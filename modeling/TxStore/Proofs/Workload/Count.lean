import TxStore.Proofs.Workload.Turns

/-!
# The row holds the count

Whatever turns are taken, the row holds the sum of the increments that the workers have made, those
included that are applied while their worker does not know of it yet (`Crew.Sound`). An increment is
applied in one turn, by the worker that has the lock of the row, and so no other worker relies then
on what the row held before. A crew is sound as long as no worker gives up (`Crew.Sound.works`).
-/

namespace TxStore.Crew

open Database CounterPlan

variable {p : CounterPlan} {target : Target} {t : MemoryTable} {clock : Clock}
  {setup : ConnectionId} {c c' first : Crew} {done : Nat → Nat} {n : Nat} {w w' : Worker} {k k' : Nat}

/-- The number of workers that have ended. -/
def endings (c : Crew) (size : Nat) : Nat :=
  ∑ n ∈ Finset.range size, (c.workers[n]?).elim 0 Worker.endings

/-- What holds of a crew between any two turns, if worker `n` has made `done n` increments and `t`
is the table of the row. -/
structure Sound (p : CounterPlan) (target : Target) (clock : Clock) (setup : ConnectionId)
    (c : Crew) (done : Nat → Nat) (t : MemoryTable) : Prop where
  /-- It has the plan. -/
  plan : c.plan = p
  /-- The database is regular. -/
  regular : c.db.Regular clock
  /-- There are as many workers as the plan has. -/
  size : c.workers.size = p.workers
  /-- Each has a connection of its own. -/
  apart : ∀ (n m : Nat) (w v : Worker), c.workers[n]? = some w → c.workers[m]? = some v →
    w.connection = v.connection → n = m
  /-- Another connection has no transaction, and no worker is on it. -/
  rest : c.db.attached.get? setup = none ∧
    ∀ (n : Nat) (w : Worker), c.workers[n]? = some w → w.connection ≠ setup
  /-- Every call that is not over is waited for by a worker. -/
  awaited : ∀ (i : TaskId) (op : Operation), c.db.tasks[i]? = some (.operation op) → ¬ op.IsOver →
    ∃ (n : Nat) (w : Worker), c.workers[n]? = some w ∧ w.connection = op.connection ∧
      w.awaits = some i
  /-- All workers that have ended have made their increments. -/
  ends : c.ends = List.replicate (c.endings p.workers) (.ok p.iterations)
  /-- The table is the one of the plan. -/
  finds : p.Finds target t c.db
  /-- It takes numbers. -/
  fits : p.Fits t
  /-- The row holds the count. -/
  row : p.rowIn t = some (.integer (.ofNat (∑ n ∈ Finset.range p.workers, done n)))
  /-- It is known how far each worker is. -/
  workers : ∀ (n : Nat) (w : Worker), c.workers[n]? = some w → w.Due ∧
    ∃ k, p.Follows target t c.db w k ∧ done n + w.left = p.iterations + k

/-- A sum in which one summand changes. -/
theorem sum_range_change {f g : Nat → Nat} {size : Nat} (hn : n < size)
    (hsame : ∀ m, n ≠ m → g m = f m) :
    ∑ m ∈ Finset.range size, g m + f n = ∑ m ∈ Finset.range size, f m + g n := by
  have hmem : n ∈ Finset.range size := Finset.mem_range.mpr hn
  have hf := Finset.add_sum_erase (Finset.range size) f hmem
  have hg := Finset.add_sum_erase (Finset.range size) g hmem
  have hrest : ∑ m ∈ (Finset.range size).erase n, g m = ∑ m ∈ (Finset.range size).erase n, f m :=
    Finset.sum_congr rfl fun m hm => hsame m (Finset.ne_of_mem_erase hm).symm
  omega

/-- The row holds a value. -/
theorem Sound.exists_row (h : Sound p target clock setup c done t) : ∃ v, p.rowIn t = some v :=
  ⟨_, h.row⟩

/-- A worker may take a turn. -/
theorem Sound.step (h : Sound p target clock setup c done t) (hw : c.workers[n]? = some w)
    (hopen : w.endings = 0) (htold : ∀ i, w.awaits = some i → c.db.result? i ≠ none)
    (hcount : done n + w'.left = p.iterations + k')
    (hsteps : Steps p target t clock c n w w' k' c') : Sound p target clock setup c' done t := by
  have hlt : n < c.workers.size := (Array.getElem?_eq_some_iff.mp hw).1
  have hworkers : ∀ m, c'.workers[m]? = if n = m then some w' else c.workers[m]? := by
    intro m
    rw [hsteps.workers, Array.getElem?_setIfInBounds, if_pos hlt]
  -- A worker after the turn is `w'`, or one that was there, on another connection.
  have hcases : ∀ {m v}, c'.workers[m]? = some v →
      n = m ∧ v = w' ∨ n ≠ m ∧ c.workers[m]? = some v := by
    intro m v hv
    rw [hworkers] at hv
    split at hv
    · rename_i heq
      exact .inl ⟨heq, (Option.some.inj hv).symm⟩
    · rename_i hne
      exact .inr ⟨hne, hv⟩
  have hapart : ∀ {m v}, n ≠ m → c.workers[m]? = some v → w.connection ≠ v.connection :=
    fun hne hv heq => hne (h.apart _ _ _ _ hw hv heq)
  refine ⟨hsteps.plan.trans h.plan, hsteps.acts.regular, ?_, ?_, ⟨?_, ?_⟩, ?_, ?_,
    h.finds.of_stable hsteps.acts.stable, h.fits, h.row, ?_⟩
  · rw [hsteps.workers, Array.size_setIfInBounds, h.size]
  · intro m m' v v' hv hv' heq
    rcases hcases hv with ⟨rfl, rfl⟩ | ⟨hne, hv⟩ <;> rcases hcases hv' with ⟨rfl, rfl⟩ | ⟨hne', hv'⟩
    · rfl
    · exact absurd (hsteps.connection.symm.trans heq) (hapart hne' hv')
    · exact absurd (heq.trans hsteps.connection).symm (hapart hne hv)
    · exact h.apart _ _ _ _ hv hv' heq
  · exact (hsteps.acts.beside setup (h.rest.2 n w hw)).attached.trans h.rest.1
  · intro m v hv
    rcases hcases hv with ⟨rfl, rfl⟩ | ⟨-, hv⟩
    · exact hsteps.connection ▸ h.rest.2 n w hw
    · exact h.rest.2 m v hv
  · intro i op hop hover
    rcases hsteps.acts.calls i op hop with hold | ⟨rfl, hc⟩
    · obtain ⟨m, v, hv, hc, hawaits⟩ := h.awaited i op hold hover
      by_cases hne : n = m
      · -- The worker has had its wait over, so this call is.
        subst hne
        cases hw.symm.trans hv
        exact absurd (result?_eq_none hold hover) (htold i hawaits)
      · exact ⟨m, v, (hworkers m).trans ((if_neg hne).trans hv), hc, hawaits⟩
    · rcases hsteps.awaits with hsame | hawaits
      · -- There is no new call where there are no new tasks.
        rw [hsame] at hop
        exact absurd (Array.getElem?_eq_some_iff.mp hop).1 (Nat.lt_irrefl _)
      · exact ⟨n, w', (hworkers n).trans (if_pos rfl), hsteps.connection.trans hc.symm, hawaits⟩
  · have hsum : c'.endings p.workers + w.endings = c.endings p.workers + w'.endings := by
      have hn : n < p.workers := h.size ▸ hlt
      have hchange := sum_range_change (f := fun m => (c.workers[m]?).elim 0 Worker.endings)
        (g := fun m => (c'.workers[m]?).elim 0 Worker.endings) hn
        (fun m hne => by rw [hworkers, if_neg hne])
      rw [hw, hworkers n, if_pos rfl] at hchange
      exact hchange
    rw [hsteps.ends, h.ends, h.plan, List.replicate_append_replicate, ← hsum, hopen, Nat.add_zero]
  · intro m v hv
    rcases hcases hv with ⟨rfl, rfl⟩ | ⟨hne, hv⟩
    · exact ⟨hsteps.due, k', hsteps.follows, hcount⟩
    · obtain ⟨hdue, j, hfollows, hj⟩ := h.workers m v hv
      exact ⟨hdue, j, hfollows.beside h.regular (hsteps.acts.beside _ (hapart hne hv))
        hsteps.acts.stable.registry, hj⟩

/-- A task that is given a turn may only leave the line. -/
theorem Sound.idle {db : Database Table} (h : Sound p target clock setup c done t)
    (hregular : db.Regular clock) (hstable : Stable c.db db) (hbeside : ∀ d, Beside d c.db db)
    (htasks : db.tasks = c.db.tasks) :
    Sound p target clock setup { c with db := db } done t where
  plan := h.plan
  regular := hregular
  size := h.size
  apart := h.apart
  rest := ⟨(hbeside setup).attached.trans h.rest.1, h.rest.2⟩
  awaited i op hop hopen := h.awaited i op (htasks ▸ hop) hopen
  ends := h.ends
  finds := h.finds.of_stable hstable
  fits := h.fits
  row := h.row
  workers n w hw := by
    obtain ⟨hdue, k, hfollows, hcount⟩ := h.workers n w hw
    exact ⟨hdue, k, hfollows.beside h.regular (hbeside _) hstable.registry, hcount⟩

/-- Every call that is not over after a turn is waited for by a worker. -/
theorem Sound.awaited_resume (h : Sound p target clock setup c done t) (i j : TaskId)
    (op : Operation) (hop : (c.db.resume i).tasks[j]? = some (.operation op))
    (hunfinished : ¬ op.IsOver) :
    ∃ (n : Nat) (w : Worker), c.workers[n]? = some w ∧ w.connection = op.connection ∧
      w.awaits = some j := by
  have hcomes : c.db.Comes (.resume i) j op :=
    h.regular.tidy.comes h.regular.lifecycle h.regular.twoPhase hop
  cases hcomes with
  | same before => exact h.awaited j op before hunfinished
  | moved turn before unfinished now =>
    obtain ⟨n, w, hw, hown, hwaits⟩ := h.awaited j _ before unfinished
    exact ⟨n, w, hw, hown.trans (now ▸ rfl), hwaits⟩
  | made submitted => cases submitted

/-- A call of a worker may have its turn. -/
theorem Sound.advance {i : TaskId} {op : Operation} (h : Sound p target clock setup c done t)
    (hop : c.db.tasks[i]? = some (.operation op)) (hopen : ¬ op.IsOver) :
    ∃ done' t', Sound p target clock setup { c with db := c.db.resume i } done' t' := by
  obtain ⟨n, w, hw, hc, hawaits⟩ := h.awaited i op hop hopen
  obtain ⟨hdue, k, hfollows, hcount⟩ := h.workers n w hw
  obtain ⟨t', k', hfinds, hfits, hfollows', hrow⟩ :=
    hfollows.resume h.regular h.finds h.fits h.exists_row hawaits hop hopen
  have hregular : (c.db.resume i).Regular clock := h.regular.resume i
  -- The call belongs to one worker, and to the others it happens elsewhere.
  have hbeside : ∀ d, w.connection ≠ d → Beside d c.db (c.db.resume i) := by
    intro d hne
    have hperform : Beside d c.db (c.db.perform (.resume i)) := by
      refine h.regular.beside rfl ?_
      rintro ⟨other, hother, hd, -⟩
      cases hop.symm.trans hother
      exact hne (hc.trans hd)
    exact hperform
  have hregistry : (c.db.resume i).registry = c.db.registry := (h.regular.alike_resume i).registry
  have hlt : n < p.workers := h.size ▸ (Array.getElem?_eq_some_iff.mp hw).1
  have hawaited := h.awaited_resume i
  have hrest : (c.db.resume i).attached.get? setup = none :=
    (hbeside setup (h.rest.2 n w hw)).attached.trans h.rest.1
  -- The others may have to do with a row that has changed.
  have hothers : ∀ (m : Nat) (v : Worker), n ≠ m → c.workers[m]? = some v →
      t' = t ∨ p.Grips target c.db w.connection → v.Due ∧
        ∃ j, p.Follows target t' (c.db.resume i) v j ∧ done m + v.left = p.iterations + j := by
    intro m v hne hv hsame
    have happart : w.connection ≠ v.connection := fun heq => hne (h.apart n m w v hw hv heq)
    obtain ⟨hdue, j, hstill, hj⟩ := h.workers m v hv
    have hmoved : p.Follows target t' c.db v j := by
      rcases hsame with rfl | hgrips
      · exact hstill
      · exact hstill.change h.regular hgrips happart t'
    exact ⟨hdue, j, hmoved.beside h.regular (hbeside _ happart) hregistry, hj⟩
  -- The turn applies the worker's increment to the row, or it does nothing to the row.
  rcases hrow with ⟨rfl, rfl⟩ | ⟨hnext, rfl, rfl, hgrips⟩
  · refine ⟨done, t', h.plan, hregular, h.size, h.apart, ⟨hrest, h.rest.2⟩, hawaited, h.ends, hfinds,
      hfits, h.row, fun m v hv => ?_⟩
    by_cases hne : n = m
    · subst hne
      cases hw.symm.trans hv
      exact ⟨hdue, k', hfollows', hcount⟩
    · exact hothers m v hne hv (.inl rfl)
  · refine ⟨Function.update done n (done n + 1), t', h.plan, hregular, h.size, h.apart,
      ⟨hrest, h.rest.2⟩, hawaited, h.ends, hfinds, hfits, ?_, fun m v hv => ?_⟩
    · -- The row is one more, and so is the count of the worker that has written it.
      have hsum := sum_range_change (f := done) (g := Function.update done n (done n + 1)) hlt
        fun m hne => Function.update_of_ne (Ne.symm hne) ..
      rw [Function.update_self] at hsum
      have hplus : ∑ m ∈ Finset.range p.workers, Function.update done n (done n + 1) m =
          (∑ m ∈ Finset.range p.workers, done m) + 1 := by omega
      rw [hnext, hplus, Int64.ofNat_add]
      unfold CounterPlan.nextIn
      rw [h.row]
      rfl
    · by_cases hne : n = m
      · subst hne
        cases hw.symm.trans hv
        refine ⟨hdue, 1, hfollows', ?_⟩
        rw [Function.update_self]
        omega
      · rw [Function.update_of_ne (Ne.symm hne)]
        exact hothers m v hne hv (.inr hgrips)

/-- Somebody may take a turn, and then the crew is sound, or a worker gives up. -/
theorem Sound.turn (h : Sound p target clock setup c done t) (a : Agent) :
    (∃ done' t', Sound p target clock setup (c.turn a) done' t') ∨ (c.turn a).Doomed := by
  cases a with
  | task i =>
    refine .inl ?_
    rcases h.regular.resume_cases i with heq | ⟨op, me, hruns, hopen, -⟩
    · refine ⟨done, t, h.idle (h.regular.resume i) ?_ (fun d => ?_) ?_⟩
      · rw [heq]
        exact ⟨rfl, rfl⟩
      · rw [heq]
        exact .of_eq rfl rfl rfl rfl
      · rw [heq]
        rfl
    · exact h.advance hruns.1 hopen
  | worker n =>
    cases hw : c.workers[n]? with
    | none =>
      have hsame : c.turn (.worker n) = c := by
        unfold Crew.turn
        dsimp only
        rw [hw]
      rw [hsame]
      exact .inl ⟨done, t, h⟩
    | some w =>
      obtain ⟨hdue, k, hfollows, hcount⟩ := h.workers n w hw
      rcases turn_cases h.plan h.regular hw hfollows hdue with
        hsame | ⟨w', k', hopen, htold, hleft, hsteps⟩ | hdoomed
      · rw [hsame]
        exact .inl ⟨done, t, h⟩
      · exact .inl ⟨done, t, h.step hw hopen htold (by omega) hsteps⟩
      · exact .inr hdoomed

/-- A crew stays sound at work until a worker gives up. -/
theorem Sound.works (h : Sound p target clock setup first done t) (hworks : Works first c) :
    (∃ done' t', Sound p target clock setup c done' t') ∨ c.Doomed := by
  induction hworks with
  | start => exact .inl ⟨done, t, h⟩
  | turn works a ih =>
    rcases ih with ⟨done', t', hsound⟩ | hdoomed
    · exact hsound.turn a
    · exact .inr (hdoomed.turn a)
  | reach works instant ih =>
    rename_i crew
    rcases ih with ⟨done', t', hsound⟩ | hdoomed
    · have hregular : (crew.db.perform (.reach instant)).Regular clock := hsound.regular.perform rfl
      exact .inl ⟨done', t', hsound.idle hregular ⟨rfl, rfl⟩ (fun _ => .of_eq rfl rfl rfl rfl) rfl⟩
    · exact .inr hdoomed
  | line works line ih =>
    rcases ih with ⟨done', t', hsound⟩ | hdoomed
    · exact .inl ⟨done', t', { hsound with }⟩
    · exact .inr hdoomed

end TxStore.Crew
