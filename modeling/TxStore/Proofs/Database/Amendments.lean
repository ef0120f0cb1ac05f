import TxStore.Proofs.Database.Lifecycle

/-!
# Every move keeps the records in agreement

In the middle of a turn the records agree if the operation in hand is taken to stand where it is
held (`InTurn`). Each of the moves that touch a transaction has a lemma on what it changes
(`Amends`), and with these `Move.inTurn` goes through the moves. A turn is a chain of them, and so
it keeps the records in agreement (`Leads.lifecycle`).
-/

namespace TxStore

/-- An operation that is at work does not finish its transaction. -/
theorem Stand.not_closing_of_working {stand : Stand} (h : stand.isWorking) :
    stand.isClosing = false := by
  cases stand with
  | issued | locking | reading | fetched | finished => rfl
  | draining | applying | applied => cases h

/-- An operation that does not finish its transaction does not commit it. -/
theorem Stand.not_committing_of_not_closing {stand : Stand} (h : stand.isClosing = false) :
    stand.isCommitting = false := by
  cases stand with
  | issued | locking | reading | fetched | finished => rfl
  | draining | applying | applied => cases h

/-- An operation that commits its transaction is not at work. -/
theorem Stand.not_working_of_closing {stand : Stand} (h : stand.isClosing) :
    stand.isWorking = false := by
  cases stand with
  | draining | applying | applied | finished => rfl
  | issued | locking | reading | fetched => cases h

/-- What holds of a transaction whatever its operations do. -/
structure Transaction.Sound (txn : Transaction) (applied : Prop) : Prop where
  /-- No operation is in flight in one that is over. -/
  ready : txn.phase = .ready → txn.inFlight = 0
  /-- One whose writes are applied commits or is over, and no operation is in flight. -/
  applied : applied → (txn.phase = .committing ∨ txn.phase = .ready) ∧ txn.inFlight = 0

section

variable {op : Operation} {applied : Prop} {txn txn' : Transaction} {stand stand' : Stand}
  {result : Result}

/-- An operation that is not at work weighs nothing. -/
theorem Operation.weight_of_not_working (op : Operation) (h : stand.isWorking = false) :
    op.weight stand = 0 := by
  unfold weight
  rw [h, Bool.and_false]
  rfl

/-- An operation that idles weighs nothing. -/
theorem Operation.IdlesAt.weight (h : op.IdlesAt stand) : op.weight stand = 0 := by
  unfold Operation.weight
  rw [h.2]
  rfl

/-- A statement that is at work weighs one. -/
theorem Operation.weight_of_working (hcall : op.call.isStatement) (h : stand.isWorking) :
    op.weight stand = 1 := by
  unfold weight
  rw [hcall, h]
  rfl

/-- A transaction of which operations are in flight agrees with whoever finishes it by its phase
only. -/
theorem Stand.Fits.of_phase (h : stand.Fits txn applied) (hbusy : 0 < txn.inFlight)
    (hphase : txn'.phase = txn.phase) : stand.Fits txn' applied := by
  cases stand with
  | draining purpose result =>
    cases purpose with
    | commit => exact ⟨hphase.trans h.1, h.2⟩
    | discard restart => exact hphase.trans h
  | applying plan result => exact absurd h.2.2.1 (Nat.ne_of_gt hbusy)
  | applied errors result => exact absurd h.2.2 (Nat.ne_of_gt hbusy)
  | issued => trivial
  | locking target w => trivial
  | reading target => trivial
  | fetched target row => trivial
  | finished result => trivial

/-- Where nothing is recorded the writes of a transaction are recorded if they were. -/
theorem applied_or_none : (applied ∨ (none : Option (List PlannedWrite)).isSome) = applied := by
  simp

namespace Database

/-- An operation that does not finish its transaction may move, and change it on the way, if neither
its phase nor, as long as nothing is in flight, anything else changes. -/
theorem amends_move (hsound : txn.Sound applied) (hstand : stand.isClosing = false)
    (hstand' : stand'.isClosing = false)
    (hcount : txn'.inFlight + op.weight stand = txn.inFlight + op.weight stand')
    (hplaced : stand'.isWorking → op.call.isStatement)
    (hphase : txn'.phase = txn.phase) (hsame : txn' = txn ∨ 0 < txn.inFlight) :
    Amends op applied none txn stand txn' stand' where
  count := hcount
  placed := hplaced
  owned h := by
    rw [Stand.not_committing_of_not_closing hstand'] at h
    cases h
  fits := Stand.fits_of_not_closing hstand'
  others _ other _ hfits := by
    -- Whoever applies or has applied the writes would need that none is in flight.
    rw [applied_or_none]
    rcases hsame with rfl | hbusy
    · exact hfits
    · exact hfits.of_phase hbusy hphase
  alone h := by
    rw [hstand'] at h
    cases h
  closer h := .inr ⟨hstand, hphase ▸ h⟩
  ready h := by
    rcases hsame with rfl | hbusy
    · exact hsound.ready h
    · exact absurd (hsound.ready (hphase.symm.trans h)) (Nat.ne_of_gt hbusy)
  once := nofun
  kept h := by
    obtain ⟨hphases, hidle⟩ := hsound.applied h
    rcases hsame with rfl | hbusy
    · exact ⟨hphases, hidle, rfl⟩
    · exact absurd hidle (Nat.ne_of_gt hbusy)
  recorded := nofun

/-- An operation that finishes its transaction may change what concerns nobody else. -/
theorem amends_stay (hsound : txn.Sound applied) (hstand : stand.isClosing)
    (howned : stand.isCommitting → op.call = .commit ∨ op.opened)
    (hfits : stand.Fits txn' applied)
    (hphase : txn'.phase = txn.phase) (hcount : txn'.inFlight = txn.inFlight)
    (hlog : applied → txn'.log.entries = txn.log.entries) :
    Amends op applied none txn stand txn' stand where
  count := by rw [hcount]
  placed h := by
    rw [Stand.not_working_of_closing hstand] at h
    cases h
  owned := howned
  fits := by
    rw [applied_or_none]
    exact hfits
  others h := by
    rw [hstand] at h
    cases h
  alone _ := .inl hstand
  closer _ := .inl hstand
  ready h := hcount.trans (hsound.ready (hphase.symm.trans h))
  once := nofun
  kept h := by
    rw [hphase, hcount]
    exact ⟨(hsound.applied h).1, (hsound.applied h).2, hlog h⟩
  recorded := nofun

/-- An operation that idles may begin to finish a transaction that is active. -/
theorem amends_close {target : Phase} (hsound : txn.Sound applied) (hidle : op.IdlesAt stand)
    (hactive : txn.phase = .active) (hstand' : stand'.isClosing)
    (howned : stand'.isCommitting → op.call = .commit ∨ op.opened)
    (hfits : ¬ applied → stand'.Fits { txn with phase := target } applied)
    (htarget : target ≠ .ready) :
    Amends op applied none txn stand { txn with phase := target } stand' := by
  have hopen : txn.phase.isClosing = false := by
    rw [hactive]
    rfl
  -- Nothing of an active transaction is applied.
  have hunapplied : ¬ applied := by
    intro h
    rcases (hsound.applied h).1 with hphase | hphase
    · cases hactive.symm.trans hphase
    · cases hactive.symm.trans hphase
  refine ⟨?_, fun h => ?_, howned, ?_, fun _ other hclosing hother => ?_, fun _ => .inr hopen,
    fun _ => .inl hstand', fun h => absurd h htarget, nofun, fun h => absurd h hunapplied, nofun⟩
  · rw [hidle.weight, op.weight_of_not_working (Stand.not_working_of_closing hstand')]
  · rw [Stand.not_working_of_closing hstand'] at h
    cases h
  · rw [applied_or_none]
    exact hfits hunapplied
  · have hphase := hother.closing hclosing
    rw [hopen] at hphase
    cases hphase

/-- A statement may register with a transaction that is active. -/
theorem amends_register (hsound : txn.Sound applied) (hactive : txn.phase = .active)
    (hcall : op.call.isStatement) :
    Amends op applied none txn (.finished result) { txn with inFlight := txn.inFlight + 1 }
      .issued := by
  have hopen : txn.phase.isClosing = false := by
    rw [hactive]
    rfl
  refine ⟨?_, fun _ => hcall, nofun, trivial, fun _ other hclosing hother => ?_, nofun,
    fun h => ?_, fun h => ?_, nofun, fun h => ?_, nofun⟩
  · rw [op.weight_of_not_working rfl, Operation.weight_of_working hcall rfl]
  · have hphase := hother.closing hclosing
    rw [hopen] at hphase
    cases hphase
  · rw [hopen] at h
    cases h
  · cases hactive.symm.trans h
  · rcases (hsound.applied h).1 with hphase | hphase
    · cases hactive.symm.trans hphase
    · cases hactive.symm.trans hphase

/-- A commit takes down the writes of its transaction when no operation is in flight. -/
theorem amends_snapshot {plan : List PlannedWrite} (hsound : txn.Sound applied)
    (howned : op.call = .commit ∨ op.opened)
    (hfits : (Stand.draining .commit result).Fits txn applied) (hidle : txn.inFlight = 0)
    (hplan : plan.map PlannedWrite.entry = txn.log.entries) :
    Amends op applied none txn (.draining .commit result) txn (.applying plan result) where
  count := by rw [op.weight_of_not_working rfl, op.weight_of_not_working rfl]
  placed := nofun
  owned _ := howned
  fits := by
    rw [applied_or_none]
    exact ⟨hfits.1, hfits.2, hidle, hplan⟩
  others := nofun
  alone _ := .inl rfl
  closer _ := .inl rfl
  ready := hsound.ready
  once := nofun
  kept h := absurd h hfits.2
  recorded := nofun

/-- A commit applies what it has taken down. -/
theorem amends_apply {plan : List PlannedWrite} {errors : List Error}
    (hsound : txn.Sound applied) (howned : op.call = .commit ∨ op.opened)
    (hfits : (Stand.applying plan result).Fits txn applied) :
    Amends op applied (some plan) txn (.applying plan result) txn (.applied errors result) where
  count := by rw [op.weight_of_not_working rfl, op.weight_of_not_working rfl]
  placed := nofun
  owned _ := howned
  fits := ⟨hfits.1, .inr rfl, hfits.2.2.1⟩
  others := nofun
  alone _ := .inl rfl
  closer _ := .inl rfl
  ready := hsound.ready
  once _ := hfits.2.1
  kept h := absurd h hfits.2.1
  recorded _ heq := by
    cases heq
    exact ⟨.inl hfits.1, hfits.2.2⟩

/-- An operation may end its transaction's life. -/
theorem amends_retire (hstand : stand.isClosing) (hidle : txn.inFlight = 0) :
    Amends op applied none txn stand txn.finish (.finished result) where
  count := by
    rw [op.weight_of_not_working (Stand.not_working_of_closing hstand),
      op.weight_of_not_working rfl]
    rfl
  placed := nofun
  owned := nofun
  fits := trivial
  others h := by
    rw [hstand] at h
    cases h
  alone := nofun
  closer := nofun
  ready _ := hidle
  once := nofun
  kept _ := ⟨.inr rfl, hidle, rfl⟩
  recorded := nofun

end Database

end

namespace Database

variable {σ : Type} {db mid db' : Database σ} {i j : TaskId} {op op' : Operation}
  {me : Lock.Holder} {t : TransactionId} {txn txn' : Transaction} {stand stand' : Stand}
  {c : ConnectionId} {writes : List WriteEntry} {result : Result}

/-! ## Moves -/

/-- Every transaction is sound. -/
theorem Lifecycle.sound (h : db.Lifecycle) (hfound : db.directory.find? t = some txn) :
    txn.Sound (db.Applied t) where
  ready := h.ready t txn hfound
  applied happlied := by
    obtain ⟨commit, hmem, rfl⟩ := List.mem_map.mp happlied
    obtain ⟨found, hfound', hphase, hidle, -⟩ := h.recorded commit hmem
    rw [hfound] at hfound'
    cases hfound'
    exact ⟨hphase, hidle⟩

/-- As long as an operation is at work some operation is in flight. -/
theorem Lifecycle.busy (h : db.Lifecycle) (hruns : db.Runs i op me) (hworking : op.stand.isWorking)
    (hfound : db.directory.find? me.txn = some txn) : 0 < txn.inFlight := by
  rw [h.inFlight me.txn txn hfound]
  refine Array.countP_pos_iff.mpr ⟨_, Array.mem_of_getElem? hruns.1, ?_⟩
  unfold Task.worksFor
  dsimp only
  rw [h.placed i op hruns.1 hworking, hworking, hruns.2]
  exact decide_eq_true rfl

/-- What holds in the middle of a turn, with the operation in hand at `stand`. -/
structure InTurn (db : Database σ) (i : TaskId) (op : Operation) (me : Lock.Holder)
    (stand : Stand) : Prop where
  /-- The operation in hand is one of the transaction. -/
  runs : db.Runs i op me
  /-- With the operation where it stands the records agree. -/
  lifecycle : (db.setStand i stand).Lifecycle

namespace InTurn

/-- The operation in hand stands where it is held. -/
theorem moved (h : db.InTurn i op me stand) :
    (db.setStand i stand).Runs i { op with stand := stand } me :=
  (runs_setStand_iff h.runs).mpr (.inl ⟨rfl, rfl, rfl⟩)

/-- Its transaction is known, and agrees with it. -/
theorem found (h : db.InTurn i op me stand) :
    ∃ txn, db.directory.find? me.txn = some txn ∧ txn.Sound (db.Applied me.txn) ∧
      stand.Fits txn (db.Applied me.txn) := by
  obtain ⟨txn, hfound, hfits⟩ := h.lifecycle.fits i _ me h.moved
  have hsound := h.lifecycle.sound hfound
  rw [directory_setStand] at hfound
  rw [applied_setStand] at hfits hsound
  exact ⟨txn, hfound, hsound, hfits⟩

/-- It commits only its own transaction. -/
theorem owned (h : db.InTurn i op me stand) (hstand : stand.isCommitting) :
    op.call = .commit ∨ op.opened :=
  h.lifecycle.owned i { op with stand := stand } h.moved.1 hstand

/-- Some operation is in flight while it is at work. -/
theorem busy (h : db.InTurn i op me stand) (hworking : stand.isWorking)
    (hfound : db.directory.find? me.txn = some txn) : 0 < txn.inFlight := by
  refine h.lifecycle.busy h.moved hworking ?_
  rw [directory_setStand]
  exact hfound

/-- A change that keeps to what it must leads on. -/
theorem change {new : Option (List PlannedWrite)} (h : db.InTurn i op me stand)
    (hc : Changes i op me new db txn stand db' txn' stand') : db'.InTurn i op me stand' :=
  ⟨hc.runs', h.lifecycle.change hc⟩

/-- What happens to the tables, the locks and the line does not matter. -/
theorem of_eq (h : db.InTurn i op me stand) (hdirectory : db'.directory = db.directory)
    (hattached : db'.attached = db.attached) (htasks : db'.tasks = db.tasks)
    (hcommits : db'.commits = db.commits) : db'.InTurn i op me stand := by
  refine ⟨(runs_of_tasks htasks).mpr h.runs, h.lifecycle.of_eq ?_ ?_ ?_ ?_⟩
  · rw [directory_setStand, directory_setStand, hdirectory]
  · rw [attached_setStand, attached_setStand, hattached]
  · rw [setStand_eq, setStand_eq, htasks]
  · rw [commits_setStand, commits_setStand, hcommits]

/-- The transaction may be replaced by one that it may become. -/
theorem set (h : db.InTurn i op me stand) (hfound : db.directory.find? me.txn = some txn)
    (hamends : Amends op (db.Applied me.txn) none txn stand txn' stand') :
    (db.withDirectory (db.directory.set me.txn txn')).InTurn i op me stand' :=
  h.change ⟨h.runs, hfound, Directory.find?_set hfound txn', rfl, rfl, rfl,
    (List.append_nil _).symm, hamends⟩

/-- The operation may move while the transaction stays as it is. -/
theorem move (h : db.InTurn i op me stand) (hfound : db.directory.find? me.txn = some txn)
    (hamends : Amends op (db.Applied me.txn) none txn stand txn stand') :
    db.InTurn i op me stand' := by
  refine h.change ⟨h.runs, hfound, fun u => ?_, rfl, rfl, rfl, (List.append_nil _).symm, hamends⟩
  split
  · rename_i heq
    exact heq ▸ hfound
  · rfl

/-- A statement may stay at work. -/
theorem work (h : db.InTurn i op me stand) (hcall : op.call.isStatement)
    (hworking : stand.isWorking) (hworking' : stand'.isWorking) : db.InTurn i op me stand' := by
  obtain ⟨txn, hfound, hsound, -⟩ := h.found
  refine h.move hfound (amends_move hsound (Stand.not_closing_of_working hworking)
    (Stand.not_closing_of_working hworking') ?_ (fun _ => hcall) rfl (.inl rfl))
  rw [Operation.weight_of_working hcall hworking, Operation.weight_of_working hcall hworking']

end InTurn

/-! ## Attaching and detaching connections -/

/-- A transaction may be separated from its connection. -/
theorem Lifecycle.separate (h : db.Lifecycle) (c : ConnectionId) (t : TransactionId) :
    (db.separate c t).Lifecycle := by
  have herase : ∀ (d : Dict ConnectionId TransactionId) (e : ConnectionId) (u : TransactionId),
      (if d.get? c = some t then d.erase c else d).get? e = some u → d.get? e = some u := by
    intro d e u hu
    split at hu
    · rw [Dict.get?_erase] at hu
      split at hu
      · cases hu
      · exact hu
    · exact hu
  rw [separate_eq]
  refine h.of_operations rfl (fun _ _ => Iff.rfl) (fun _ => rfl) rfl (fun e => ?_)
    fun e u hu => h.present e u (herase _ e u hu)
  -- Both records name the same transaction, so both are cleared or neither is.
  dsimp only
  rw [h.attached c]
  split
  · rw [Dict.get?_erase, Dict.get?_erase, h.attached e]
  · exact h.attached e

/-- An operation may move before or after its transaction is separated from its connection. -/
theorem setStand_separate (db : Database σ) (i : TaskId) (stand : Stand) (c : ConnectionId)
    (t : TransactionId) :
    (db.separate c t).setStand i stand = (db.setStand i stand).separate c t := by
  rw [separate_eq, separate_eq, setStand_eq, setStand_eq]

/-- A transaction may be separated from its connection in the middle of a turn. -/
theorem InTurn.separate (h : db.InTurn i op me stand) (c : ConnectionId) (t : TransactionId) :
    (db.separate c t).InTurn i op me stand := by
  refine ⟨?_, ?_⟩
  · rw [separate_eq]
    exact h.runs
  · rw [setStand_separate]
    exact h.lifecycle.separate c t

/-- The database in which a new transaction is the one of a connection. -/
def placed (db : Database σ) (c : ConnectionId) (ts : Timestamp) (clock : Clock)
    (origin : Origin) : Database σ :=
  { db with
    directory := (db.directory.place c ts origin).2
    clock := clock
    attached := db.attached.insert c (db.directory.place c ts origin).1 }

/-- A new transaction may become the one of a connection. -/
theorem Lifecycle.place (h : db.Lifecycle) (c : ConnectionId) (ts : Timestamp)
    (clock : Clock) (origin : Origin) : (db.placed c ts clock origin).Lifecycle := by
  have hnew := db.directory.find?_place_new c ts origin
  have hold : ∀ {u txn}, db.directory.find? u = some txn →
      (db.placed c ts clock origin).directory.find? u = some txn :=
    fun hu => Directory.find?_place_of_some ts origin hu
  -- Whatever is found is new, and then nothing knows it, or was there before.
  have hcases : ∀ {u txn}, (db.placed c ts clock origin).directory.find? u = some txn →
      txn = .new (db.directory.place c ts origin).1 c ts origin ∧
        u = (db.directory.place c ts origin).1 ∨ db.directory.find? u = some txn := by
    intro u txn hu
    have hu := (db.directory.find?_place c ts origin u).symm.trans hu
    split at hu
    · rename_i heq
      cases hu
      exact .inl ⟨rfl, heq.symm⟩
    · exact .inr hu
  -- Nothing is at work for a transaction that nobody knows.
  have hidle : db.working (db.directory.place c ts origin).1 = 0 := by
    by_contra hbusy
    obtain ⟨i, op, me, hruns, htxn, -⟩ := exists_working hbusy
    obtain ⟨txn, hfound, -⟩ := h.fits i op me hruns
    rw [htxn, hnew] at hfound
    cases hfound
  -- A new transaction is active and has nothing in flight, which is all that the records say of it.
  refine ⟨fun e => ?_, fun e u hu => ?_, fun u txn hu => ?_, h.placed, h.held, h.owned,
    fun i op me hop => ?_, h.alone, fun u txn hu hclosing => ?_, fun u txn hu hready => ?_,
    h.once, fun commit hmem => ?_⟩
  · show (db.attached.insert c _).get? e = (db.directory.current.insert c _).get? e
    rw [Dict.get?_insert, Dict.get?_insert, h.attached e]
    rfl
  · have hu : (db.attached.insert c _).get? e = some u := hu
    rw [Dict.get?_insert] at hu
    split at hu
    · cases hu
      exact ⟨_, (db.directory.find?_place c ts origin _).trans (if_pos rfl)⟩
    · obtain ⟨txn, hfound⟩ := h.present e u hu
      exact ⟨txn, hold hfound⟩
  · rcases hcases hu with ⟨rfl, rfl⟩ | hu
    · exact hidle.symm
    · exact h.inFlight u txn hu
  · obtain ⟨txn, hfound, hfits⟩ := h.fits i op me hop
    exact ⟨txn, hold hfound, hfits⟩
  · rcases hcases hu with ⟨rfl, rfl⟩ | hu
    · cases hclosing
    · exact h.closer u txn hu hclosing
  · rcases hcases hu with ⟨rfl, rfl⟩ | hu
    · cases hready
    · exact h.ready u txn hu hready
  · obtain ⟨txn, hfound, hrecorded⟩ := h.recorded commit hmem
    exact ⟨txn, hold hfound, hrecorded⟩

/-- What replacing a transaction comes to that is still its connection's: its write buffer is
emptied, and a new transaction becomes the one of the connection. There are no errors. -/
theorem replace_of_attached (hattached : db.attached.get? c = some t)
    (hcurrent : db.directory.current.get? c = some t)
    (hfound : db.directory.find? t = some txn) :
    db.replace c t = ((db.withDirectory (db.directory.set t { txn with log := .empty })).placed c
      db.clock.read.1 db.clock.read.2 txn.origin, []) := by
  have hclear : db.directory.clearLog c = .ok (db.directory.set t { txn with log := .empty }) := by
    unfold Directory.clearLog Directory.modifyLog Directory.modify
    rw [hcurrent]
    dsimp only
    rw [hfound]
  have hpresent : (db.directory.set t { txn with log := .empty }).get? c =
      some { txn with log := .empty } := by
    unfold Directory.get?
    rw [Directory.current_set, hcurrent]
    exact (Directory.find?_set hfound { txn with log := .empty } t).trans (if_pos rfl)
  unfold Database.replace Directory.restart
  rw [if_pos hattached, hclear]
  dsimp only
  rw [hpresent]
  rfl

/-- What the database is then. -/
theorem replace_eq (hattached : db.attached.get? c = some t)
    (hcurrent : db.directory.current.get? c = some t)
    (hfound : db.directory.find? t = some txn) :
    (db.replace c t).1 = (db.withDirectory (db.directory.set t { txn with log := .empty })).placed c
      db.clock.read.1 db.clock.read.2 txn.origin :=
  congrArg Prod.fst (replace_of_attached hattached hcurrent hfound)

/-- A discard may put a fresh transaction in the place of its own. -/
theorem InTurn.replace {restart : Bool}
    (h : db.InTurn i op me (.draining (.discard restart) result)) (c : ConnectionId) :
    (db.replace c me.txn).1.InTurn i op me (.draining (.discard restart) result) := by
  by_cases hattached : db.attached.get? c = some me.txn
  · obtain ⟨txn, hfound, hsound, hfits⟩ := h.found
    have hphase : txn.phase = .aborting := hfits
    have hagree := h.lifecycle.attached c
    rw [directory_setStand, attached_setStand, hattached] at hagree
    -- Nothing of a transaction that is being discarded is applied.
    have hunapplied : ¬ db.Applied me.txn := by
      intro happlied
      rcases (hsound.applied happlied).1 with hother | hother
      · cases hphase.symm.trans hother
      · cases hphase.symm.trans hother
    have hcleared : (db.withDirectory (db.directory.set me.txn { txn with log := .empty })).InTurn
        i op me (.draining (.discard restart) result) :=
      h.set hfound (amends_stay hsound rfl nofun hfits rfl rfl
        fun happlied => absurd happlied hunapplied)
    rw [replace_eq hattached hagree.symm hfound]
    refine ⟨hcleared.runs, ?_⟩
    have hplaced := hcleared.lifecycle.place c db.clock.read.1 db.clock.read.2 txn.origin
    unfold placed at hplaced ⊢
    rw [setStand_eq] at hplaced ⊢
    exact hplaced
  · have hsame : (db.replace c me.txn).1 = db := by
      unfold Database.replace
      rw [if_neg hattached]
    rw [hsame]
    exact h

/-- A statement that is at work may buffer a write. -/
theorem InTurn.buffer {s : Statement} (h : db.InTurn i op me stand) (hcall : op.call.isStatement)
    (hworking : stand.isWorking) (target : Target) (write : Write) :
    (db.buffer me.txn target s.key write).InTurn i op me stand := by
  obtain ⟨txn, hfound, hsound, -⟩ := h.found
  have hclosing := Stand.not_closing_of_working hworking
  have hset : (db.withDirectory (db.directory.set me.txn
      { txn with log := txn.log.append target.id s.key write })).InTurn i op me stand :=
    h.set hfound (amends_move hsound hclosing hclosing rfl (fun _ => hcall) rfl
      (.inr (h.busy hworking hfound)))
  unfold Database.buffer Directory.modifyLog Directory.modify
  rw [hfound]
  exact hset

/-- What leaving a transaction comes to. -/
theorem leave_eq (hfound : db.directory.find? t = some txn) :
    db.leave t =
      (db.withDirectory (db.directory.set t txn.deregister.1)).wake txn.deregister.2 := by
  unfold Database.leave
  rw [hfound]

/-- A statement that is at work may leave its transaction. -/
theorem InTurn.leave (h : db.InTurn i op me stand) (hcall : op.call.isStatement)
    (hworking : stand.isWorking) (result : Result) :
    (db.leave me.txn).InTurn i op me (.finished result) := by
  obtain ⟨txn, hfound, hsound, -⟩ := h.found
  have hbusy := h.busy hworking hfound
  have hset : (db.withDirectory (db.directory.set me.txn txn.deregister.1)).InTurn i op me
      (.finished result) := by
    refine h.set hfound (amends_move hsound (Stand.not_closing_of_working hworking) rfl ?_ nofun
      txn.deregister_spec.2.1 (.inr hbusy))
    rw [Transaction.inFlight_deregister, Operation.weight_of_working hcall hworking,
      op.weight_of_not_working rfl]
    exact Nat.sub_add_cancel hbusy
  rw [leave_eq hfound]
  exact hset.of_eq rfl rfl rfl rfl

/-- An operation that idles may begin to finish its transaction. -/
theorem InTurn.close {target : Phase} (h : db.InTurn i op me stand) (hidle : op.IdlesAt stand)
    (hturned : db.turnTo me.txn target = .ok db') (stand' : Stand) (hstand' : stand'.isClosing)
    (howned : stand'.isCommitting → op.call = .commit ∨ op.opened)
    (hfits : ∀ txn : Transaction, ∀ applied, ¬ applied →
      stand'.Fits { txn with phase := target } applied) (htarget : target ≠ .ready) :
    db'.InTurn i op me stand' := by
  obtain ⟨txn, hfound, hactive, rfl⟩ := turnTo_ok hturned
  obtain ⟨txn', hfound', hsound, -⟩ := h.found
  rw [hfound] at hfound'
  cases hfound'
  exact h.set hfound (amends_close hsound hidle hactive hstand' howned (hfits txn _) htarget)

/-- An operation may end its transaction's life when no operation is in flight. -/
theorem InTurn.retire (h : db.InTurn i op me stand) (hends : db.Ends me.txn stand)
    (result : Result) : (db.retire me.txn).InTurn i op me (.finished result) := by
  obtain ⟨txn, hfound, -, hfits⟩ := h.found
  have hidle : stand.isClosing ∧ txn.inFlight = 0 := by
    cases stand with
    | applied errors result => exact ⟨rfl, hfits.2.2⟩
    | draining purpose result =>
      cases purpose with
      | commit => cases hends
      | discard restart =>
        obtain ⟨txn', hfound', hidle⟩ := hends
        rw [hfound] at hfound'
        cases hfound'
        exact ⟨rfl, hidle⟩
    | issued => cases hends
    | locking target w => cases hends
    | reading target => cases hends
    | fetched target row => cases hends
    | applying plan result => cases hends
    | finished result => cases hends
  unfold Database.retire Directory.modify
  rw [hfound]
  exact h.set hfound (amends_retire hidle.1 hidle.2)

/-- An operation that finishes its transaction may be parked. -/
theorem InTurn.park {purpose : Purpose} (h : db.InTurn i op me (.draining purpose result))
    (hfound : db.directory.find? me.txn = some txn) :
    (db.withDirectory (db.directory.set me.txn (txn.awaitIdle i).1)).InTurn i op me
      (.draining purpose result) := by
  obtain ⟨txn', hfound', hsound, hfits⟩ := h.found
  rw [hfound] at hfound'
  cases hfound'
  obtain ⟨hphase, hcount, hlog⟩ := Transaction.awaitIdle_spec txn i
  refine h.set hfound (amends_stay hsound rfl h.owned ?_ hphase hcount fun _ => by rw [hlog])
  cases purpose with
  | commit => exact ⟨hphase.trans hfits.1, hfits.2⟩
  | discard restart => exact hphase.trans hfits

/-- A commit may apply the writes it has taken down. -/
theorem InTurn.apply [Backend σ] {plan : List PlannedWrite}
    (h : db.InTurn i op me (.applying plan result)) (errors : List Error) :
    (({ db with store := (applyPlan db.store plan).1 } : Database σ).recordCommit
      me.txn plan).InTurn i op me (.applied errors result) := by
  obtain ⟨txn, hfound, hsound, hfits⟩ := h.found
  have hchanges : Changes i op me (some plan) db txn (.applying plan result)
      (({ db with store := (applyPlan db.store plan).1 } : Database σ).recordCommit me.txn plan) txn
      (.applied errors result) := by
    refine ⟨h.runs, hfound, fun u => ?_, rfl, rfl, rfl, rfl,
      amends_apply hsound (h.owned rfl) hfits⟩
    show db.directory.find? u = _
    split
    · rename_i heq
      exact heq ▸ hfound
    · rfl
  exact h.change hchanges

/-- Every move leads on. -/
theorem Move.inTurn [Backend σ] (hmove : Move i op me db stand writes db' stand')
    (h : db.InTurn i op me stand) : db'.InTurn i op me stand' := by
  have hstatement : ∀ {s}, op.call = .statement s → op.call.isStatement := by
    intro s hcall
    rw [hcall]
    rfl
  have hstandAt : ∀ {target : Target} {stand : Stand} (a : Lock.Acquisition), stand.isWorking →
      (a.standAt target stand).isWorking := by
    intro target stand a hworking
    cases a with
    | answered answer => exact hworking
    | waiting w => rfl
  -- A move within the body needs only that the call is a statement; one that finishes needs what it
  -- knows of the phase.
  cases hmove with
  | ask call aims asked =>
    exact (h.work (hstatement call) rfl (hstandAt _ rfl)).of_eq rfl rfl rfl rfl
  | look call looked =>
    exact (h.work (hstatement call) rfl (hstandAt _ rfl)).of_eq rfl rfl rfl rfl
  | read call working aims => exact h.work (hstatement call) working rfl
  | fetch call working aims row => exact h.work (hstatement call) working rfl
  | buffer call working target write => exact h.buffer (hstatement call) working target write
  | leave call working result => exact h.leave (hstatement call) working result
  | tell idle result =>
    obtain ⟨txn, hfound, hsound, -⟩ := h.found
    refine h.move hfound (amends_move hsound idle.1 rfl ?_ nofun rfl (.inl rfl))
    rw [idle.weight, op.weight_of_not_working rfl]
  | close idle own attached turned result =>
    exact h.close idle turned _ rfl (fun _ => own) (fun _ _ hunapplied => ⟨rfl, hunapplied⟩) nofun
  | discard idle attached turned restart result =>
    have hclosed := h.close idle turned (.draining (.discard restart) result) rfl nofun
      (fun _ _ _ => rfl) nofun
    exact hclosed.of_eq rfl rfl rfl rfl
  | park found busy => exact h.park found
  | snapshot found idle =>
    obtain ⟨txn', hfound, hsound, hfits⟩ := h.found
    rw [found] at hfound
    cases hfound
    refine h.move found (amends_snapshot hsound (h.owned rfl) hfits idle ?_)
    exact (List.map_map ..).trans (List.map_id _)
  | apply errors => exact h.apply errors
  | release => exact h.of_eq rfl rfl rfl rfl
  | forget ends => exact h.of_eq rfl rfl rfl rfl
  | separate ends => exact h.separate _ _
  | replace ends => exact h.replace _
  | retire ends result => exact h.retire ends result

/-- Several moves lead on, too. -/
theorem Moves.inTurn [Backend σ] (hmoves : Moves i op me db stand writes db' stand')
    (h : db.InTurn i op me stand) : db'.InTurn i op me stand' := by
  induction hmoves with
  | nil => exact h
  | cons move _ ih => exact ih (move.inTurn h)

/-- With the operation put down the records agree. -/
theorem InTurn.putDown (h : db.InTurn i op me stand) : (db.putDown i stand).Lifecycle := by
  have hwoken : ((db.setStand i stand).wake [i]).Lifecycle := h.lifecycle.of_eq rfl rfl rfl rfl
  cases stand with
  | issued => exact h.lifecycle
  | locking target w => exact h.lifecycle
  | reading target => exact hwoken
  | fetched target row => exact hwoken
  | draining purpose result => exact h.lifecycle
  | applying plan result => exact hwoken
  | applied errors result => exact hwoken
  | finished result => exact h.lifecycle

/-- A turn keeps the records in agreement. -/
theorem Leads.lifecycle [Backend σ] (hleads : Leads i op me db stand writes db')
    (h : db.InTurn i op me stand) : db'.Lifecycle := by
  obtain ⟨mid, stand', hmoves, -, rfl⟩ := hleads
  exact (hmoves.inTurn h).putDown

end Database

end TxStore
