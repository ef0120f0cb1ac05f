import TxStore.Proofs.Database.Lives

/-!
# What a move does to the transactions and the tables

A move of an operation touches no transaction but its own, and in that nothing but the phase, the
writes and the number in flight. `Effect` says which way the phase may go, which writes are added,
and what becomes of the writes that were taken down to be applied. There are three things that can
happen to these: they are taken down as they stand in the write buffer, with the tables that are
registered then; they are applied and the commit is recorded; or nothing happens, and then neither
the tables nor the commits change.
-/

namespace TxStore

/-- The writes that an operation is to apply where it stands. -/
def Stand.plan? : Stand → Option (List PlannedWrite)
  | .applying plan _ => some plan
  | .issued | .locking _ _ | .reading _ | .fetched _ _ | .draining _ _ | .applied _ _
  | .finished _ => none

/-- An operation has writes to apply only where it is applying them. -/
theorem Stand.eq_applying_of_plan? {stand : Stand} {plan : List PlannedWrite}
    (h : stand.plan? = some plan) : ∃ result, stand = .applying plan result := by
  cases stand <;> cases h
  exact ⟨_, rfl⟩

/-- An operation that is at work has nothing to apply. -/
theorem Stand.plan?_of_working {stand : Stand} (h : stand.isWorking) : stand.plan? = none := by
  cases hplan : stand.plan? with
  | none => rfl
  | some plan =>
    obtain ⟨result, rfl⟩ := eq_applying_of_plan? hplan
    cases h

/-- An operation that does not finish its transaction has nothing to apply. -/
theorem Stand.plan?_of_not_closing {stand : Stand} (h : stand.isClosing = false) :
    stand.plan? = none := by
  cases hplan : stand.plan? with
  | none => rfl
  | some plan =>
    obtain ⟨result, rfl⟩ := eq_applying_of_plan? hplan
    cases h

/-- How the phase of a transaction may change in a move of one of its operations, if its writes are
recorded as applied or not. -/
inductive Phase.Passes (op : Operation) (applied : Prop) : Phase → Phase → Prop where
  /-- It stays. -/
  | stay (phase : Phase) : Passes op applied phase phase
  /-- The operation begins to commit. -/
  | commit (own : op.call = .commit ∨ op.opened) : Passes op applied .active .committing
  /-- It begins to roll back or to abort. -/
  | discard : Passes op applied .active .aborting
  /-- It ends a commit. -/
  | committed (done : applied) : Passes op applied .committing .ready
  /-- It ends a rollback or an abort. -/
  | discarded : Passes op applied .aborting .ready

namespace Database

variable {σ : Type} {db db' : Database σ} {i : TaskId} {op : Operation} {me : Lock.Holder}
  {t u : TransactionId} {txn txn' : Transaction} {stand stand' : Stand} {writes : List WriteEntry}

/-- What a move does with the writes that are to be applied. -/
inductive Carries [Backend σ] (me : Lock.Holder) (db : Database σ) (stand : Stand)
    (db' : Database σ) (stand' : Stand) : Prop where
  /-- Nothing. -/
  | idle (plan : stand'.plan? = stand.plan?) (commits : db'.commits = db.commits)
      (store : db'.store = db.store)
  /-- They are taken down. -/
  | taken {txn : Transaction} (found : db'.directory.find? me.txn = some txn)
      (before : stand.plan? = none) (plan : stand'.plan? = some (db.plan txn.log.entries))
      (commits : db'.commits = db.commits) (store : db'.store = db.store)
  /-- They are applied. -/
  | applied {plan : List PlannedWrite} (before : stand.plan? = some plan)
      (after : stand'.plan? = none) (commits : db'.commits = db.commits ++ [⟨me.txn, plan⟩])
      (store : db'.store = (applyPlan db.store plan).1)

/-- What a move may do. -/
structure Effect [Backend σ] (op : Operation) (me : Lock.Holder) (db : Database σ) (stand : Stand)
    (writes : List WriteEntry) (db' : Database σ) (stand' : Stand) : Prop where
  /-- Other transactions stay as they are. -/
  others : ∀ u txn, u ≠ me.txn → db.directory.find? u = some txn →
    db'.directory.find? u = some txn
  /-- A transaction that was not known is new. -/
  fresh : ∀ u txn, db'.directory.find? u = some txn →
    db.Known u ∨ txn.phase = .active ∧ txn.log = .empty
  /-- The phase of the operation's transaction goes its way, and the writes are added unless they
  are to be dropped. -/
  mine : ∀ txn, db.directory.find? me.txn = some txn →
    ∃ txn', db'.directory.find? me.txn = some txn' ∧
      Phase.Passes op (db.Applied me.txn) txn.phase txn'.phase ∧
      (txn.phase ≠ .aborting → txn'.log = txn.log.appendAll writes)
  /-- No table is registered or taken out. -/
  registry : db'.registry = db.registry
  /-- The tasks are as they were. -/
  tasks : db'.tasks = db.tasks
  /-- The writes to be applied are carried on. -/
  carries : Carries me db stand db' stand'

section

variable [Backend σ]

/-- The effect of a change of the operation's transaction. -/
theorem Effect.of_find (hfound : db.directory.find? me.txn = some txn) (txn' : Transaction)
    (hfind : ∀ u, db'.directory.find? u =
      if me.txn = u then some txn' else db.directory.find? u)
    (hphase : Phase.Passes op (db.Applied me.txn) txn.phase txn'.phase)
    (hlog : txn.phase ≠ .aborting → txn'.log = txn.log.appendAll writes)
    (hregistry : db'.registry = db.registry) (htasks : db'.tasks = db.tasks)
    (hcarries : Carries me db stand db' stand') : Effect op me db stand writes db' stand' where
  others u found hne hu := by
    rw [hfind, if_neg (Ne.symm hne)]
    exact hu
  fresh u found hu := by
    rw [hfind] at hu
    split at hu
    · rename_i heq
      exact .inl ⟨txn, heq ▸ hfound⟩
    · exact .inl ⟨found, hu⟩
  mine found hu := by
    rw [hfound] at hu
    cases hu
    exact ⟨txn', (hfind me.txn).trans (if_pos rfl), hphase, hlog⟩
  registry := hregistry
  tasks := htasks
  carries := hcarries

/-- The effect of a change that touches no transaction. -/
theorem Effect.of_same (hfound : db.directory.find? me.txn = some txn)
    (hfind : db'.directory.find? = db.directory.find?) (hregistry : db'.registry = db.registry)
    (htasks : db'.tasks = db.tasks) (hcarries : Carries me db stand db' stand') :
    Effect op me db stand [] db' stand' := by
  refine .of_find hfound txn (fun u => ?_) (.stay _) (fun _ => rfl) hregistry htasks
    hcarries
  rw [hfind]
  split
  · rename_i heq
    exact heq ▸ hfound
  · rfl

/-- The effect of putting a fresh transaction in the place of one that is discarded. -/
theorem InTurn.effect_replace {restart : Bool} {result : Result}
    (h : db.InTurn i op me (.draining (.discard restart) result)) (c : ConnectionId) :
    Effect op me db (.draining (.discard restart) result) [] (db.replace c me.txn).1
      (.draining (.discard restart) result) := by
  obtain ⟨txn, hfound, -, hfits⟩ := h.found
  have hphase : txn.phase = .aborting := hfits
  by_cases hattached : db.attached.get? c = some me.txn
  · -- The directory names the transaction, too, and so both its look-ups succeed.
    have hagree := h.lifecycle.attached c
    rw [directory_setStand, attached_setStand, hattached] at hagree
    rw [replace_eq hattached hagree.symm hfound]
    have hset := Directory.find?_set hfound { txn with log := .empty }
    refine ⟨fun u found hne hu => ?_, fun u found hu => ?_, fun found hu => ?_, rfl, rfl,
      .idle rfl rfl rfl⟩
    · exact Directory.find?_place_of_some _ _
        ((hset u).trans ((if_neg (Ne.symm hne)).trans hu))
    · have hu := (Directory.find?_place ..).symm.trans hu
      split at hu
      · cases hu
        exact .inr ⟨rfl, rfl⟩
      · have hu := (hset u).symm.trans hu
        split at hu
        · rename_i heq
          exact .inl ⟨txn, heq ▸ hfound⟩
        · exact .inl ⟨found, hu⟩
    · rw [hfound] at hu
      cases hu
      exact ⟨_, Directory.find?_place_of_some _ _ ((hset me.txn).trans (if_pos rfl)), .stay _,
        fun hother => absurd hphase hother⟩
  · have hsame : (db.replace c me.txn).1 = db := by
      unfold Database.replace
      rw [if_neg hattached]
    rw [hsame]
    exact .of_same hfound rfl rfl rfl (.idle rfl rfl rfl)

/-- The effect of ending a transaction's life. -/
theorem InTurn.effect_retire (h : db.InTurn i op me stand) (hends : db.Ends me.txn stand)
    (result : Result) : Effect op me db stand [] (db.retire me.txn) (.finished result) := by
  obtain ⟨txn, hfound, -, hfits⟩ := h.found
  have hstand : Phase.Passes op (db.Applied me.txn) txn.phase .ready ∧ stand.plan? = none := by
    cases stand with
    | applied errors result => exact ⟨hfits.1 ▸ .committed hfits.2.1, rfl⟩
    | draining purpose result =>
      cases purpose with
      | commit => cases hends
      | discard restart =>
        have hphase : txn.phase = .aborting := hfits
        exact ⟨hphase ▸ .discarded, rfl⟩
    | issued => cases hends
    | locking target w => cases hends
    | reading target => cases hends
    | fetched target row => cases hends
    | applying plan result => cases hends
    | finished result => cases hends
  refine .of_find hfound txn.finish (fun u => ?_) hstand.1 (fun _ => rfl) rfl rfl
    (.idle hstand.2.symm rfl rfl)
  show (db.directory.modify me.txn Transaction.finish).find? u = _
  rw [Directory.find?_modify, hfound]
  rfl

/-- Every move has such an effect. -/
theorem Move.effect (hmove : Move i op me db stand writes db' stand')
    (h : db.InTurn i op me stand) : Effect op me db stand writes db' stand' := by
  obtain ⟨txn, hfound, hsound, hfits⟩ := h.found
  -- A statement plans no writes to be applied, wherever it stands, so that most moves leave the
  -- plan of the operation as it was.
  have hstandAt : ∀ {target : Target} {stand : Stand} (a : Lock.Acquisition), stand.isWorking →
      (a.standAt target stand).plan? = stand.plan? := by
    intro target stand a hworking
    cases a with
    | answered answer => rfl
    | waiting w => exact (Stand.plan?_of_working hworking).symm
  cases hmove with
  | ask call aims asked => exact .of_same hfound rfl rfl rfl (.idle (hstandAt _ rfl) rfl rfl)
  | look call looked => exact .of_same hfound rfl rfl rfl (.idle (hstandAt _ rfl) rfl rfl)
  | read call working aims =>
    exact .of_same hfound rfl rfl rfl (.idle (Stand.plan?_of_working working).symm rfl rfl)
  | fetch call working aims row =>
    exact .of_same hfound rfl rfl rfl (.idle (Stand.plan?_of_working working).symm rfl rfl)
  | buffer call working target write =>
    refine .of_find hfound { txn with log := txn.log.append target.id _ write }
      (fun u => ?_) (.stay _) (fun _ => rfl) rfl rfl (.idle rfl rfl rfl)
    exact (Directory.find?_modify ..).trans (by rw [hfound]; rfl)
  | leave call working result =>
    obtain ⟨-, hphase, hlog⟩ := txn.deregister_spec
    rw [leave_eq hfound]
    exact .of_find hfound _ (Directory.find?_set hfound _) (hphase ▸ .stay _) (fun _ => hlog)
      rfl rfl (.idle (Stand.plan?_of_working working).symm rfl rfl)
  | tell idle result =>
    exact .of_same hfound rfl rfl rfl (.idle (Stand.plan?_of_not_closing idle.1).symm rfl rfl)
  -- The phase changes in two moves, and the log of one's own transaction in one.
  | close idle own attached turned result =>
    obtain ⟨txn, hfound, hactive, rfl⟩ := turnTo_ok turned
    exact .of_find hfound _ (Directory.find?_set hfound _) (hactive ▸ .commit own) (fun _ => rfl)
      rfl rfl (.idle (Stand.plan?_of_not_closing idle.1).symm rfl rfl)
  | discard idle attached turned restart result =>
    obtain ⟨txn, hfound, hactive, rfl⟩ := turnTo_ok turned
    exact .of_find hfound _ (Directory.find?_set hfound _) (hactive ▸ .discard) (fun _ => rfl)
      rfl rfl (.idle (Stand.plan?_of_not_closing idle.1).symm rfl rfl)
  | park found busy =>
    rename_i parked _ _
    obtain ⟨hphase, -, hlog⟩ := Transaction.awaitIdle_spec parked i
    exact .of_find found _ (Directory.find?_set found _) (hphase ▸ .stay _) (fun _ => hlog) rfl rfl
      (.idle rfl rfl rfl)
  | snapshot found idle =>
    exact .of_same hfound rfl rfl rfl (.taken found rfl rfl rfl rfl)
  | apply errors => exact .of_same hfound rfl rfl rfl (.applied rfl rfl rfl rfl)
  | release => exact .of_same hfound rfl rfl rfl (.idle rfl rfl rfl)
  | forget ends => exact .of_same hfound rfl rfl rfl (.idle rfl rfl rfl)
  | separate ends =>
    rw [separate_eq]
    exact .of_same hfound rfl rfl rfl (.idle rfl rfl rfl)
  | replace ends => exact h.effect_replace _
  | retire ends result => exact h.effect_retire ends result

end

end Database

end TxStore
