import TxStore.Proofs.Database.Deeds

/-!
# The fate of every transaction

A transaction is applied or discarded. Which of the two is decided when it leaves its active life,
by the operation that moves it on, and never changes (`Lifecycle.fate?_perform`). Whoever comes
later to finish it is told so, or does nothing (`commit_of_decided` and its like). What a commit
applies is taken down from the write buffer once, with the tables that are registered at that moment
(`Snapshot`).
-/

namespace TxStore

/-- What becomes of a transaction. -/
inductive Fate where
  /-- Its writes are applied. -/
  | applied
  /-- Its writes are dropped. -/
  | discarded
  deriving DecidableEq

/-- The fate of a transaction by its phase, once it is decided. If the transaction is over it is
told by whether a commit of it is recorded. -/
def Phase.fate? (recorded : Bool) : Phase → Option Fate
  | active => none
  | committing => some .applied
  | aborting => some .discarded
  | ready => some (if recorded then .applied else .discarded)

/-- The fate of an active transaction is open, and no other's is. -/
theorem Phase.fate?_eq_none {recorded : Bool} {phase : Phase} :
    phase.fate? recorded = none ↔ phase = .active := by
  cases phase <;> simp [fate?]

namespace Phase.Passes

variable {op : Operation} {applied : Prop} {phase phase' : Phase} {recorded recorded' : Bool}
  {f : Fate}

/-- On its way the phase of a transaction does not change its fate. -/
theorem fate (h : Passes op applied phase phase') (happlied : applied → recorded)
    (hsound : recorded → phase = .committing ∨ phase = .ready) (hkept : recorded → recorded')
    (hnew : recorded' → recorded ∨ phase = .committing) (hfate : phase.fate? recorded = some f) :
    phase'.fate? recorded' = some f := by
  cases h with
  | stay phase =>
    cases phase with
    | active => cases hfate
    | committing => exact hfate
    | aborting => exact hfate
    | ready =>
      have hsame : recorded' = recorded :=
        Bool.eq_iff_iff.mpr ⟨fun h => (hnew h).resolve_right nofun, hkept⟩
      rw [hsame]
      exact hfate
  | commit own => cases hfate
  | discard => cases hfate
  | committed done =>
    cases hfate
    show some (if recorded' then Fate.applied else .discarded) = _
    rw [if_pos (hkept (happlied done))]
  | discarded =>
    cases hfate
    have hunrecorded : ¬ recorded' := by
      intro h
      rcases hsound ((hnew h).resolve_right nofun) with heq | heq
      · cases heq
      · cases heq
    show some (if recorded' then Fate.applied else .discarded) = _
    rw [if_neg hunrecorded]

/-- Only what may commit a transaction decides that it is applied. -/
theorem own (h : Passes op applied phase phase') (hopen : phase.fate? recorded = none)
    (hfate : phase'.fate? recorded' = some .applied) : op.call = .commit ∨ op.opened := by
  rw [fate?_eq_none] at hopen
  subst hopen
  cases h with
  | stay phase => cases hfate
  | commit own => exact own
  | discard => cases hfate

end Phase.Passes

namespace Database

variable {σ : Type} {db mid db' : Database σ} {i : TaskId} {op : Operation} {me : Lock.Holder}
  {t u : TransactionId} {txn : Transaction} {stand stand' : Stand} {writes : List WriteEntry}
  {plan : List PlannedWrite} {f : Fate} {c : ConnectionId} {result : Result}

/-- Whether a transaction is applied can be looked up. -/
instance (db : Database σ) (t : TransactionId) : Decidable (db.Applied t) :=
  inferInstanceAs (Decidable (t ∈ db.commits.map Commit.txn))

/-- The fate of a transaction, once it is decided. -/
def fate? (db : Database σ) (t : TransactionId) : Option Fate :=
  (db.directory.find? t).bind fun txn => txn.phase.fate? (db.Applied t)

/-- The fate of a transaction that is known. -/
theorem fate?_of_found (hfound : db.directory.find? t = some txn) :
    db.fate? t = txn.phase.fate? (db.Applied t) := by
  unfold fate?
  rw [hfound]
  rfl

/-- Fates are told by the directory and the commits. -/
theorem fate?_of_eq (hdirectory : db'.directory = db.directory)
    (hcommits : db'.commits = db.commits) (t : TransactionId) : db'.fate? t = db.fate? t := by
  have hsame : db'.Applied t ↔ db.Applied t := by
    unfold Applied
    rw [hcommits]
  unfold fate?
  rw [hdirectory, decide_eq_decide.mpr hsame]

/-! ## Who comes too late -/

/-- A transaction of which the fate is decided does not move on. -/
theorem turnTo_of_decided (h : db.fate? t = some f) (target : Phase) :
    db.turnTo t target = .error .terminalState := by
  obtain ⟨txn, hfound, hfate⟩ := Option.bind_eq_some_iff.mp h
  have hphase : ¬ txn.phase = .active := by
    intro hactive
    rw [hactive] at hfate
    cases hfate
  unfold Database.turnTo Transaction.turnTo
  rw [hfound]
  dsimp only
  rw [if_neg hphase]

/-- No operation registers with a transaction of which the fate is decided. -/
theorem enroll_of_decided (h : db.fate? t = some f) : db.enroll t = .error .terminalState := by
  obtain ⟨txn, hfound, hfate⟩ := Option.bind_eq_some_iff.mp h
  have hphase : ¬ txn.phase = .active := by
    intro hactive
    rw [hactive] at hfate
    cases hfate
  unfold Database.enroll Transaction.register
  rw [hfound]
  dsimp only
  rw [if_neg hphase]

/-- A commit that expects a transaction of which the fate is decided fails. -/
theorem commit_of_decided (h : db.fate? t = some f) (i : TaskId) (c : ConnectionId)
    (result : Result) :
    db.commit i c (some t) result = db.finish i (result.join [Cause.terminalState]) := by
  unfold Database.commit
  split
  · rfl
  · rename_i u _
    split
    · rename_i hexpected
      have heq : t = u := of_decide_eq_true hexpected
      rw [← heq, turnTo_of_decided h]
    · rfl

/-- An abort of such a transaction changes nothing. -/
theorem abort_of_decided (h : db.fate? t = some f) (i : TaskId) (c : ConnectionId)
    (why : Lock.Refusal) : db.abort i c t why = db.finish i (.error (Cause.lock why)) := by
  unfold Database.abort
  dsimp only
  split
  · rw [turnTo_of_decided h]
  · rfl

/-- A call that is to finish such a transaction fails, and changes nothing. -/
theorem submit_of_decided (h : db.fate? t = some f) (hattached : db.attached.get? c = some t)
    {call : Call} (hcall : call.isStatement = false) :
    db.submit c call = db.push (.operation
      ⟨c, call, db.attachedHolder c, false, .finished (.error Cause.terminalState)⟩) := by
  have hissue : ∀ result, (db.issue c call).finish db.tasks.size result =
      db.push (.operation ⟨c, call, db.attachedHolder c, false, .finished result⟩) :=
    fun _ => setStand_push ..
  have hattached' : (db.issue c call).attached.get? c = some t := hattached
  have hfate : (db.issue c call).fate? t = some f := h
  have hrollback : (db.issue c call).rollback db.tasks.size c =
      db.push (.operation
        ⟨c, call, db.attachedHolder c, false, .finished (.error Cause.terminalState)⟩) := by
    unfold Database.rollback
    rw [hattached']
    dsimp only
    rw [turnTo_of_decided hfate]
    exact hissue _
  -- A commit turns the phase itself, and a disconnect goes through the rollback.
  unfold Database.submit
  dsimp only
  cases call with
  | statement s => cases hcall
  | commit =>
    dsimp only
    unfold Database.commit
    rw [hattached']
    dsimp only
    rw [turnTo_of_decided hfate]
    exact hissue _
  | rollback => exact hrollback
  | disconnect =>
    dsimp only
    unfold Database.disconnect Dict.contains
    rw [hattached']
    exact hrollback

/-! ## The turns decide it -/

/-- What is taken down of the writes of a transaction to be applied, or has been applied. -/
def Snapshot (db : Database σ) (t : TransactionId) (plan : List PlannedWrite) : Prop :=
  ⟨t, plan⟩ ∈ db.commits ∨
    ∃ i op me, db.Runs i op me ∧ me.txn = t ∧ op.stand.plan? = some plan

/-- What has been taken down are the writes of the transaction, and no operation is in flight any
more. -/
theorem Lifecycle.snapshot (h : db.Lifecycle) (hsnapshot : db.Snapshot t plan) :
    ∃ txn, db.directory.find? t = some txn ∧ (txn.phase = .committing ∨ txn.phase = .ready) ∧
      txn.inFlight = 0 ∧ plan.map PlannedWrite.entry = txn.log.entries := by
  rcases hsnapshot with hmem | ⟨i, op, me, hruns, rfl, hplan⟩
  · exact h.recorded _ hmem
  · obtain ⟨txn, hfound, hfits⟩ := h.fits i op me hruns
    obtain ⟨result, hstand⟩ := Stand.eq_applying_of_plan? hplan
    rw [hstand] at hfits
    exact ⟨txn, hfound, .inl hfits.1, hfits.2.2⟩

/-- The writes of a transaction are taken down once. -/
theorem Lifecycle.snapshot_unique {plan' : List PlannedWrite} (h : db.Lifecycle)
    (hfirst : db.Snapshot t plan) (hsecond : db.Snapshot t plan') : plan = plan' := by
  -- An operation has nothing to apply any more when the commit is recorded.
  have hnever : ∀ {i op me plan}, db.Runs i op me → op.stand.plan? = some plan →
      ¬ db.Applied me.txn := by
    intro i op me plan hruns hplan
    obtain ⟨txn, hfound, hfits⟩ := h.fits i op me hruns
    obtain ⟨result, hstand⟩ := Stand.eq_applying_of_plan? hplan
    rw [hstand] at hfits
    exact hfits.2.1
  rcases hfirst with hmem | ⟨i, op, me, hruns, rfl, hplan⟩
  · rcases hsecond with hmem' | ⟨j, op', me', hruns', rfl, hplan'⟩
    · exact congrArg Commit.plan (List.inj_on_of_nodup_map h.once hmem hmem' rfl)
    · exact absurd (List.mem_map_of_mem hmem) (hnever hruns' hplan')
  · rcases hsecond with hmem' | ⟨j, op', me', hruns', htxn, hplan'⟩
    · exact absurd (List.mem_map_of_mem hmem') (hnever hruns hplan)
    · have hclosing : ∀ {stand : Stand} {plan}, stand.plan? = some plan → stand.isClosing := by
        intro stand plan hplan
        obtain ⟨result, rfl⟩ := Stand.eq_applying_of_plan? hplan
        rfl
      obtain rfl :=
        h.alone i j op op' me me' hruns hruns' (hclosing hplan) (hclosing hplan') htxn.symm
      rw [(hruns.unique hruns').1, hplan] at hplan'
      exact Option.some.inj hplan'

/-- A transaction of which a commit is recorded is applied. -/
theorem Lifecycle.fate?_of_commit {commit : Commit} (h : db.Lifecycle)
    (hmem : commit ∈ db.commits) : db.fate? commit.txn = some .applied := by
  obtain ⟨txn, hfound, hphase, -⟩ := h.recorded commit hmem
  have happlied : db.Applied commit.txn := List.mem_map_of_mem hmem
  rw [fate?_of_found hfound]
  rcases hphase with hphase | hphase
  · rw [hphase]
    rfl
  · rw [hphase]
    show some (if decide (db.Applied commit.txn) then Fate.applied else .discarded) = _
    rw [if_pos (decide_eq_true happlied)]

/-- A transaction of which the writes have been taken down is applied. -/
theorem Lifecycle.fate?_of_snapshot (h : db.Lifecycle) (hsnapshot : db.Snapshot t plan) :
    db.fate? t = some .applied := by
  rcases hsnapshot with hmem | ⟨i, op, me, hruns, rfl, hplan⟩
  · exact h.fate?_of_commit hmem
  · obtain ⟨txn, hfound, hfits⟩ := h.fits i op me hruns
    obtain ⟨result, hstand⟩ := Stand.eq_applying_of_plan? hplan
    rw [hstand] at hfits
    rw [fate?_of_found hfound, hfits.1]
    rfl

/-- The same in the middle of a turn, with the operation in hand at `stand`. -/
theorem snapshot_setStand (h : db.Runs i op me) : (db.setStand i stand).Snapshot t plan ↔
    ⟨t, plan⟩ ∈ db.commits ∨ me.txn = t ∧ stand.plan? = some plan ∨
      ∃ j op' me', i ≠ j ∧ db.Runs j op' me' ∧ me'.txn = t ∧ op'.stand.plan? = some plan := by
  unfold Snapshot
  rw [commits_setStand]
  refine or_congr Iff.rfl ⟨?_, ?_⟩
  · rintro ⟨j, op', me', hop, htxn, hplan⟩
    rcases (runs_setStand_iff h).mp hop with ⟨rfl, rfl, rfl⟩ | ⟨hne, hop⟩
    · exact .inl ⟨htxn, hplan⟩
    · exact .inr ⟨j, op', me', hne, hop, htxn, hplan⟩
  · rintro (⟨htxn, hplan⟩ | ⟨j, op', me', hne, hop, htxn, hplan⟩)
    · exact ⟨i, _, me, (runs_setStand_iff h).mpr (.inl ⟨rfl, rfl, rfl⟩), htxn, hplan⟩
    · exact ⟨j, op', me', (runs_setStand_iff h).mpr (.inr ⟨hne, hop⟩), htxn, hplan⟩

/-- Where an operation is put down matters only to the line. -/
theorem putDown_eq (db : Database σ) (i : TaskId) (stand : Stand) :
    ∃ ready, db.putDown i stand = { db.setStand i stand with ready := ready } := by
  cases stand <;> exact ⟨_, rfl⟩

/-- It does not matter to the locks. -/
theorem locks_putDown (db : Database σ) (i : TaskId) (stand : Stand) :
    (db.putDown i stand).locks = db.locks := by
  obtain ⟨ready, heq⟩ := db.putDown_eq i stand
  rw [heq, setStand_eq]

/-- Nor does it to the fates. -/
theorem fate?_putDown (db : Database σ) (i : TaskId) (stand : Stand) (u : TransactionId) :
    (db.putDown i stand).fate? u = db.fate? u := by
  obtain ⟨ready, heq⟩ := db.putDown_eq i stand
  rw [heq]
  exact fate?_of_eq (directory_setStand ..) (commits_setStand ..) u

section

variable [Backend σ] {action : Action σ}

namespace Effect

variable (heffect : Effect op me db stand writes db' stand')

include heffect

/-- Commits are recorded at the end. -/
theorem commits : db.commits <+: db'.commits := by
  cases heffect.carries with
  | idle plan commits store => exact commits ▸ List.prefix_refl _
  | taken found before plan commits store => exact commits ▸ List.prefix_refl _
  | applied before after commits store => exact commits ▸ List.prefix_append _ _

/-- What is applied stays so. -/
theorem applied_mono (h : db.Applied u) : db'.Applied u := by
  exact (heffect.commits.map Commit.txn).subset h

/-- Only the transaction of the operation in hand is applied, and only if it commits. -/
theorem applied_new (h : db.InTurn i op me stand) (happlied : db'.Applied u) :
    db.Applied u ∨ u = me.txn ∧
      ∀ txn, db.directory.find? me.txn = some txn → txn.phase = .committing := by
  unfold Applied at *
  cases heffect.carries with
  | idle plan commits store => exact .inl (commits ▸ happlied)
  | taken found before plan commits store => exact .inl (commits ▸ happlied)
  | applied before after commits store =>
    rw [commits, List.map_append, List.mem_append] at happlied
    refine happlied.imp id fun hnew => ⟨List.mem_singleton.mp hnew, fun txn hfound => ?_⟩
    obtain ⟨txn', hfound', -, hfits⟩ := h.found
    rw [hfound] at hfound'
    cases hfound'
    obtain ⟨result, rfl⟩ := Stand.eq_applying_of_plan? before
    exact hfits.1

/-- A fate that is decided stays. -/
theorem fate (h : db.InTurn i op me stand) (hfate : db.fate? u = some f) :
    db'.fate? u = some f := by
  obtain ⟨txn, hfound, hphase⟩ := Option.bind_eq_some_iff.mp hfate
  by_cases hu : u = me.txn
  · subst hu
    obtain ⟨txn', hfound', hpasses, -⟩ := heffect.mine txn hfound
    obtain ⟨found, hfound'', hsound, -⟩ := h.found
    rw [hfound] at hfound''
    cases hfound''
    rw [fate?_of_found hfound']
    refine hpasses.fate (fun h => decide_eq_true h)
      (fun h => (hsound.applied (of_decide_eq_true h)).1)
      (fun h => decide_eq_true (heffect.applied_mono (of_decide_eq_true h))) (fun hnew => ?_) hphase
    exact (heffect.applied_new h (of_decide_eq_true hnew)).imp (fun h => decide_eq_true h)
      fun hnew => hnew.2 txn hfound
  · rw [fate?_of_found (heffect.others u txn hu hfound)]
    have hsame : db'.Applied u ↔ db.Applied u :=
      ⟨fun happlied => (heffect.applied_new h happlied).resolve_right fun hnew => hu hnew.1,
        heffect.applied_mono⟩
    rw [decide_eq_decide.mpr hsame]
    exact hphase

/-- Only the fate of the operation's own transaction is decided, and that it is applied only if it
may commit it. -/
theorem decided (h : db.InTurn i op me stand) (hopen : db.fate? u = none)
    (hfate : db'.fate? u = some f) :
    u = me.txn ∧ (f = .applied → op.call = .commit ∨ op.opened) := by
  obtain ⟨txn', hfound', hphase'⟩ := Option.bind_eq_some_iff.mp hfate
  by_cases hu : u = me.txn
  · subst hu
    obtain ⟨txn, hfound, -⟩ := h.found
    obtain ⟨found, hfound'', hpasses, -⟩ := heffect.mine txn hfound
    rw [hfound'] at hfound''
    cases hfound''
    rw [fate?_of_found hfound] at hopen
    exact ⟨rfl, fun happlied => hpasses.own hopen (happlied ▸ hphase')⟩
  · -- Another transaction is as it was, or it is new.
    have hactive : txn'.phase = .active := by
      rcases heffect.fresh u txn' hfound' with ⟨txn, hfound⟩ | ⟨hactive, -⟩
      · have hsame := (heffect.others u txn hu hfound).symm.trans hfound'
        cases hsame
        rw [fate?_of_found hfound] at hopen
        exact Phase.fate?_eq_none.mp hopen
      · exact hactive
    rw [hactive] at hphase'
    cases hphase'

/-- What has been taken down stays so. -/
theorem snapshot (h : db.InTurn i op me stand) (hsnapshot : (db.setStand i stand).Snapshot t plan) :
    (db'.setStand i stand').Snapshot t plan := by
  rw [snapshot_setStand ((runs_of_tasks heffect.tasks).mpr h.runs)]
  rcases (snapshot_setStand h.runs).mp hsnapshot with hmem | ⟨htxn, hplan⟩ | hother
  · refine .inl ?_
    cases heffect.carries with
    | idle plan commits store => rwa [commits]
    | taken found before plan commits store => rwa [commits]
    | applied before after commits store =>
      rw [commits]
      exact List.mem_append_left _ hmem
  · cases heffect.carries with
    | idle plan commits store => exact .inr (.inl ⟨htxn, plan.trans hplan⟩)
    | taken found before plan commits store =>
      rw [before] at hplan
      cases hplan
    | applied before after commits store =>
      rw [before] at hplan
      cases hplan
      rw [commits]
      exact .inl (List.mem_append_right _ (List.mem_singleton.mpr (htxn ▸ rfl)))
  · obtain ⟨j, op', me', hne, hop, htxn, hplan⟩ := hother
    exact .inr (.inr ⟨j, op', me', hne, (runs_of_tasks heffect.tasks).mpr hop, htxn, hplan⟩)

/-- What is taken down are the tables that are registered now. -/
theorem snapshot_new (h : db.InTurn i op me stand)
    (hsnapshot : (db'.setStand i stand').Snapshot t plan) :
    (db.setStand i stand).Snapshot t plan ∨
      plan = db.plan (plan.map PlannedWrite.entry) := by
  have hruns' : db'.Runs i op me := (runs_of_tasks heffect.tasks).mpr h.runs
  -- The plan is that of a commit, of the operation itself or of another one. The first two can
  -- change here, the third cannot.
  rw [snapshot_setStand h.runs]
  rcases (snapshot_setStand hruns').mp hsnapshot with hmem | ⟨htxn, hplan⟩ | hother
  · cases heffect.carries with
    | idle plan commits store => exact .inl (.inl (commits ▸ hmem))
    | taken found before plan commits store => exact .inl (.inl (commits ▸ hmem))
    | applied before after commits store =>
      rw [commits, List.mem_append] at hmem
      rcases hmem with hmem | hmem
      · exact .inl (.inl hmem)
      · cases List.mem_singleton.mp hmem
        exact .inl (.inr (.inl ⟨rfl, before⟩))
  · cases heffect.carries with
    | idle plan commits store => exact .inl (.inr (.inl ⟨htxn, plan.symm.trans hplan⟩))
    | taken found before plan commits store =>
      rw [plan] at hplan
      cases hplan
      refine .inr (congrArg db.plan ?_)
      exact (List.map_map ..).symm ▸ (List.map_id _).symm
    | applied before after commits store =>
      rw [after] at hplan
      cases hplan
  · obtain ⟨j, op', me', hne, hop, htxn, hplan⟩ := hother
    exact .inl (.inr (.inr ⟨j, op', me', hne, (runs_of_tasks heffect.tasks).mp hop, htxn, hplan⟩))

end Effect

/-- What every move keeps is kept by several moves. -/
theorem Moves.keeps {P : Database σ → Stand → Prop}
    (hmoves : Moves i op me db stand writes db' stand')
    (hstep : ∀ {db stand writes db' stand'}, Move i op me db stand writes db' stand' →
      db.InTurn i op me stand → P db stand → P db' stand')
    (h : db.InTurn i op me stand) (hP : P db stand) : P db' stand' := by
  induction hmoves with
  | nil => exact hP
  | cons move _ ih => exact ih (move.inTurn h) (hstep move h hP)

/-- In a turn no table is registered or taken out. -/
theorem Moves.registry (hmoves : Moves i op me db stand writes db' stand')
    (h : db.InTurn i op me stand) : db'.registry = db.registry :=
  hmoves.keeps (P := fun mid _ => mid.registry = db.registry)
    (fun move h hmid => (move.effect h).registry.trans hmid) h rfl

/-- In a turn no fate is changed that is decided. -/
theorem Moves.fate (hmoves : Moves i op me db stand writes db' stand')
    (h : db.InTurn i op me stand) (hfate : db.fate? u = some f) : db'.fate? u = some f :=
  hmoves.keeps (P := fun mid _ => mid.fate? u = some f)
    (fun move h hmid => (move.effect h).fate h hmid) h hfate

/-- Nor is it at the end of the turn. -/
theorem Leads.fate (hleads : Leads i op me db stand writes db') (h : db.InTurn i op me stand)
    (hfate : db.fate? u = some f) : db'.fate? u = some f := by
  obtain ⟨mid, stand', hmoves, -, rfl⟩ := hleads
  rw [fate?_putDown]
  exact hmoves.fate h hfate

/-- A turn decides only the fate of its own transaction. -/
theorem Leads.decided (hleads : Leads i op me db stand writes db') (h : db.InTurn i op me stand)
    (hopen : db.fate? u = none) (hfate : db'.fate? u = some f) :
    (∃ stand', db'.Runs i { op with stand := stand' } me) ∧ me.txn = u ∧
      (f = .applied → op.call = .commit ∨ op.opened) := by
  obtain ⟨mid, stand', hmoves, -, rfl⟩ := hleads
  obtain ⟨ready, heq⟩ := mid.putDown_eq i stand'
  -- The induction is on the moves of the turn: the first that decides the fate is asked, and later
  -- ones keep it.
  have hmid := hmoves.keeps
    (P := fun mid _ => ∀ f, mid.fate? u = some f →
      me.txn = u ∧ (f = .applied → op.call = .commit ∨ op.opened))
    (fun {db _ _ _ _} move h hmid f hfate => by
      cases hbefore : db.fate? u with
      | none =>
        obtain ⟨hu, hown⟩ := (move.effect h).decided h hbefore hfate
        exact ⟨hu.symm, hown⟩
      | some before =>
        have hsame := ((move.effect h).fate h hbefore).symm.trans hfate
        cases hsame
        exact hmid f hbefore)
    h (fun f hfate => by rw [hopen] at hfate; cases hfate)
  rw [fate?_putDown] at hfate
  refine ⟨⟨stand', ?_⟩, hmid f hfate⟩
  rw [heq]
  exact (hmoves.inTurn h).moved

/-- What has been taken down before a turn stays so. -/
theorem Leads.snapshot (hleads : Leads i op me db stand writes db') (h : db.InTurn i op me stand)
    (hsnapshot : (db.setStand i stand).Snapshot t plan) : db'.Snapshot t plan := by
  obtain ⟨mid, stand', hmoves, -, rfl⟩ := hleads
  obtain ⟨ready, heq⟩ := mid.putDown_eq i stand'
  rw [heq]
  exact hmoves.keeps (P := fun mid stand => (mid.setStand i stand).Snapshot t plan)
    (fun move h hmid => (move.effect h).snapshot h hmid) h hsnapshot

/-- What is taken down in a turn are the tables that are registered then. -/
theorem Leads.snapshot_new (hleads : Leads i op me db stand writes db')
    (h : db.InTurn i op me stand) (hsnapshot : db'.Snapshot t plan) :
    (db.setStand i stand).Snapshot t plan ∨ plan = db.plan (plan.map PlannedWrite.entry) := by
  obtain ⟨mid, stand', hmoves, -, rfl⟩ := hleads
  obtain ⟨ready, heq⟩ := mid.putDown_eq i stand'
  rw [heq] at hsnapshot
  refine (hmoves.keeps
    (P := fun mid stand' => mid.registry = db.registry ∧
      ((mid.setStand i stand').Snapshot t plan → (db.setStand i stand).Snapshot t plan ∨
        plan = db.plan (plan.map PlannedWrite.entry)))
    (fun {mid _ _ _ _} move h hmid => ?_) h ⟨rfl, .inl⟩).2 hsnapshot
  refine ⟨(move.effect h).registry.trans hmid.1, fun hsnapshot => ?_⟩
  rcases (move.effect h).snapshot_new h hsnapshot with hbefore | hnew
  · exact hmid.2 hbefore
  · refine .inr (hnew.trans ?_)
    unfold Database.plan
    rw [hmid.1]

/-! ## The actions -/

omit [Backend σ] in
/-- What is done quietly changes no fate. -/
theorem Quiet.fate (h : db.Quiet db') (hfate : db.fate? u = some f) :
    db'.fate? u = some f := by
  obtain ⟨txn, hfound, hphase⟩ := Option.bind_eq_some_iff.mp hfate
  obtain ⟨txn', hfound', hsame, -⟩ := h.kept u txn hfound
  have happlied : db'.Applied u ↔ db.Applied u := by
    unfold Applied
    rw [h.commits]
  rw [fate?_of_found hfound', hsame, decide_eq_decide.mpr happlied]
  exact hphase

omit [Backend σ] in
/-- What is done quietly decides none. -/
theorem Quiet.undecided (h : db.Quiet db') (hopen : db.fate? u = none) : db'.fate? u = none := by
  cases hfate : db'.fate? u with
  | none => rfl
  | some f =>
    obtain ⟨txn', hfound', hphase'⟩ := Option.bind_eq_some_iff.mp hfate
    rcases h.fresh u txn' hfound' with ⟨txn, hfound⟩ | ⟨hactive, -⟩
    · obtain ⟨txn'', hfound'', hsame, -⟩ := h.kept u txn hfound
      rw [hfound'] at hfound''
      cases hfound''
      rw [fate?_of_found hfound] at hopen
      rw [hsame, Phase.fate?_eq_none.mp hopen] at hphase'
      cases hphase'
    · rw [hactive] at hphase'
      cases hphase'

omit [Backend σ] in
/-- What is done quietly takes nothing down, and leaves what is. -/
theorem Quiet.snapshot_iff (h : db.Quiet db') : db'.Snapshot t plan ↔ db.Snapshot t plan := by
  unfold Snapshot
  rw [h.commits]
  refine or_congr Iff.rfl ⟨?_, ?_⟩
  · rintro ⟨j, op, me, hop, htxn, hplan⟩
    rcases h.added j op hop.1 with hold | ⟨-, hnew, -⟩
    · exact ⟨j, op, me, ⟨hold, hop.2⟩, htxn, hplan⟩
    · rw [hnew] at hplan
      cases hplan
  · rintro ⟨j, op, me, hop, htxn, hplan⟩
    exact ⟨j, op, me, ⟨h.operations j op hop.1, hop.2⟩, htxn, hplan⟩

omit [Backend σ] in
/-- At the beginning of a turn, with the operation held, fates are what they were. -/
theorem Quiet.fate?_first {first : Database σ} (h : db.Quiet (first.setStand i stand))
    (u : TransactionId) : first.fate? u = db.fate? u := by
  have hsame := fate?_of_eq (directory_setStand first i stand) (commits_setStand first i stand) u
  rw [← hsame]
  cases hfate : db.fate? u with
  | none => exact h.undecided hfate
  | some f => exact h.fate hfate

/-- No action changes a fate that is decided. -/
theorem Lifecycle.fate?_perform (h : db.Lifecycle) (htwoPhase : db.TwoPhase)
    (hfate : db.fate? t = some f) (action : Action σ) :
    (db.perform action).fate? t = some f := by
  cases h.deed htwoPhase action with
  | tabular about quiet => exact quiet.fate hfate
  | quiet quiet store registry => exact quiet.fate hfate
  | turn begins held leads => exact leads.fate held ((begins.quiet.fate?_first t).trans hfate)

/-- A fate is decided by the operation that the action gives a turn, and this belongs to the
transaction. Only what may commit a transaction decides that it is applied. -/
theorem Lifecycle.decided_perform (h : db.Lifecycle) (htwoPhase : db.TwoPhase)
    (hopen : db.fate? t = none) (hfate : (db.perform action).fate? t = some f) :
    ∃ i op me, db.actor? action = some i ∧ (db.perform action).Runs i op me ∧ me.txn = t ∧
      (f = .applied → op.call = .commit ∨ op.opened) := by
  have hnever : ∀ {db' : Database σ}, db.Quiet db' → db'.fate? t ≠ some f := by
    intro db' hquiet hfate
    rw [hquiet.undecided hopen] at hfate
    cases hfate
  cases h.deed htwoPhase action with
  | tabular about quiet => exact absurd hfate (hnever quiet)
  | quiet quiet store registry => exact absurd hfate (hnever quiet)
  | turn begins held leads =>
    obtain ⟨⟨stand, hruns⟩, htxn, hown⟩ :=
      leads.decided held ((begins.quiet.fate?_first t).trans hopen) hfate
    exact ⟨_, _, _, begins.actor, hruns, htxn, hown⟩

/-- What has been taken down stays so. -/
theorem Lifecycle.snapshot_perform (h : db.Lifecycle) (htwoPhase : db.TwoPhase)
    (hsnapshot : db.Snapshot t plan) (action : Action σ) :
    (db.perform action).Snapshot t plan := by
  cases h.deed htwoPhase action with
  | tabular about quiet => exact quiet.snapshot_iff.mpr hsnapshot
  | quiet quiet store registry => exact quiet.snapshot_iff.mpr hsnapshot
  | turn begins held leads =>
    exact leads.snapshot held (begins.quiet.snapshot_iff.mpr hsnapshot)

/-- What an action takes down are the tables that are registered then. -/
theorem Lifecycle.snapshot_new (h : db.Lifecycle) (htwoPhase : db.TwoPhase)
    (hsnapshot : (db.perform action).Snapshot t plan) :
    db.Snapshot t plan ∨ plan = db.plan (plan.map PlannedWrite.entry) := by
  cases h.deed htwoPhase action with
  | tabular about quiet => exact .inl (quiet.snapshot_iff.mp hsnapshot)
  | quiet quiet store registry => exact .inl (quiet.snapshot_iff.mp hsnapshot)
  | turn begins held leads =>
    rcases leads.snapshot_new held hsnapshot with hbefore | hnew
    · exact .inl (begins.quiet.snapshot_iff.mp hbefore)
    · refine .inr (hnew.trans ?_)
      unfold Database.plan
      rw [begins.tables.2]

/-- Commits are recorded one after the other. -/
theorem Lifecycle.commits_perform (h : db.Lifecycle) (htwoPhase : db.TwoPhase)
    (action : Action σ) : db.commits <+: (db.perform action).commits := by
  have hquiet : ∀ {db' : Database σ}, db.Quiet db' → db.commits <+: db'.commits :=
    fun hquiet => hquiet.commits ▸ List.prefix_refl _
  cases h.deed htwoPhase action with
  | tabular about quiet => exact hquiet quiet
  | quiet quiet store registry => exact hquiet quiet
  | turn begins held leads =>
    obtain ⟨last, stand', hmoves, -, hlast⟩ := leads
    obtain ⟨ready, heq⟩ := last.putDown_eq _ stand'
    have hfirst := hquiet begins.quiet
    rw [commits_setStand] at hfirst
    have hkept := hmoves.keeps (P := fun mid _ => db.commits <+: mid.commits)
      (fun move hturn hmid => hmid.trans (move.effect hturn).commits) held hfirst
    rw [hlast, heq]
    exact commits_setStand last _ stand' ▸ hkept

omit [Backend σ] in
/-- In a new database nothing is taken down. -/
theorem not_snapshot_new (config : Config) (clock : Clock) (hasher : Hasher) :
    ¬ (new config clock hasher : Database σ).Snapshot t plan := by
  rintro (hmem | ⟨i, op, me, hruns, -⟩)
  · cases hmem
  · cases hruns.1

/-- Where the writes of a transaction are taken down after several actions, one of these did it,
with the tables that were registered then. -/
theorem exists_taken (h : db.Lifecycle) (htwoPhase : db.TwoPhase) (actions : List (Action σ))
    (hnone : ¬ db.Snapshot t plan) (htaken : (actions.foldl perform db).Snapshot t plan) :
    ∃ before action later, actions = before ++ action :: later ∧
      ¬ (before.foldl perform db).Snapshot t plan ∧
      ((before.foldl perform db).perform action).Snapshot t plan ∧
      plan = (before.foldl perform db).plan (plan.map PlannedWrite.entry) := by
  induction actions generalizing db with
  | nil => exact absurd htaken hnone
  | cons action rest ih =>
    by_cases hnow : (db.perform action).Snapshot t plan
    · exact ⟨[], action, rest, rfl, hnone, hnow, (h.snapshot_new htwoPhase hnow).resolve_left hnone⟩
    · obtain ⟨before, later, after, rfl, hlater⟩ :=
        ih (h.perform htwoPhase action) (htwoPhase.perform action) hnow htaken
      exact ⟨action :: before, later, after, rfl, hlater⟩

end

end Database

end TxStore
