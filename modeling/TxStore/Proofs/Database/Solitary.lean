import TxStore.Proofs.Database.Beside
import TxStore.Proofs.Database.Handles
import TxStore.Proofs.Database.Implicit
import TxStore.Proofs.Database.Statements

/-!
# Calls that are alone in their transaction

On a connection that makes one call at a time the transaction has one operation in flight at most
(`Holds`). A statement then knows what becomes of its turn from the way in which its body ends in
it: as long as the body goes on nothing has happened but to the locks (`Labors`), and when it has
ended the statement leaves an idle transaction. A commit of an idle transaction goes on to apply the
writes at once, and a rollback is over at once. None of this depends on what other connections do.
-/

namespace TxStore.Database

variable {σ : Type} {db mid db' : Database σ} {i j : TaskId} {op : Operation} {me : Lock.Holder}
  {t u : TransactionId} {txn : Transaction} {stand stand' : Stand} {writes : List WriteEntry}
  {c : ConnectionId} {clock : Clock} {s : Statement} {ending : Ending} {r : Result} {n : Nat}
  {target : Target}

/-- A connection is attached to an active transaction with `n` operations in flight. -/
structure Holds (db : Database σ) (c : ConnectionId) (t : TransactionId) (txn : Transaction)
    (n : Nat) : Prop where
  /-- The connection is attached to it. -/
  attached : db.attached.get? c = some t
  /-- It was started. -/
  found : db.directory.find? t = some txn
  /-- It is active. -/
  phase : txn.phase = .active
  /-- So many operations are in flight. -/
  inFlight : txn.inFlight = n

/-- The tables and the commits are as they were. -/
structure Stable (db db' : Database σ) : Prop where
  /-- The tables hold what they held. -/
  store : db'.store = db.store
  /-- The same tables are registered. -/
  registry : db'.registry = db.registry

/-- What holds of the database `mid` when an operation has worked on its row in `db`, so that its
transaction is `txn` now. -/
structure Labors (i : TaskId) (op : Operation) (me : Lock.Holder) (db : Database σ)
    (txn : Transaction) (mid : Database σ) : Prop where
  /-- The tasks are as they were. -/
  tasks : mid.tasks = db.tasks
  /-- Its connection holds the transaction. -/
  holds : mid.Holds op.connection me.txn txn 1
  /-- Nothing has happened to the tables. -/
  stable : Stable db mid
  /-- No transaction has lost a lock. -/
  locks : ∀ Shut, db.locks.Orderly Shut → db.locks.Continues Shut mid.locks

/-- Nothing happens to the tables when nothing happens. -/
theorem Stable.refl (db : Database σ) : Stable db db := ⟨rfl, rfl⟩

/-- Changes that leave the tables can be chained. -/
theorem Stable.trans (h : Stable db mid) (h' : Stable mid db') : Stable db db' :=
  ⟨h'.store.trans h.store, h'.registry.trans h.registry⟩

/-- What a transaction is after its only operation has left. -/
theorem Holds.leave_eq (h : db.Holds c t txn 1) :
    db.leave t = (db.withDirectory
      (db.directory.set t { txn with inFlight := 0, parked := [] })).wake txn.parked := by
  unfold Database.leave
  rw [h.found]
  dsimp only
  unfold Transaction.deregister
  rw [if_pos h.inFlight]

/-- A transaction may change as long as it is active. -/
theorem Holds.set {txn' : Transaction} (h : db.Holds c t txn n) (hphase : txn'.phase = .active) :
    (db.withDirectory (db.directory.set t txn')).Holds c t txn' txn'.inFlight :=
  ⟨h.attached, (Directory.find?_set h.found txn' t).trans (if_pos rfl), hphase, rfl⟩

/-- Nothing else counts than the attachment and the transactions. -/
theorem Holds.of_eq (h : db.Holds c t txn n) (hattached : db'.attached = db.attached)
    (hdirectory : db'.directory = db.directory) : db'.Holds c t txn n :=
  ⟨hattached ▸ h.attached, hdirectory ▸ h.found, h.phase, h.inFlight⟩

/-- An operation moves and all else stays. -/
theorem Holds.setStand (h : db.Holds c t txn n) (i : TaskId) (stand : Stand) :
    (db.setStand i stand).Holds c t txn n :=
  h.of_eq (attached_setStand ..) (directory_setStand ..)

/-- The transaction was started on the connection. -/
theorem Holds.connection (h : db.Holds c t txn n) (htidy : db.Tidy) : txn.connection = c := by
  obtain ⟨own, hown, hconnection, -⟩ := htidy.owner h.attached
  cases h.found.symm.trans hown
  exact hconnection

/-- What happens elsewhere leaves a connection its transaction. -/
theorem Holds.beside (h : db.Holds c t txn n) (htidy : db.Tidy) (hbeside : Beside c db db') :
    db'.Holds c t txn n :=
  ⟨hbeside.attached.trans h.attached, hbeside.found t txn h.found (h.connection htidy), h.phase,
    h.inFlight⟩

/-- An active transaction is not shut. -/
theorem Holds.not_shut (h : db.Holds c t txn n) : ¬ db.Shut t := by
  rintro ⟨txn', hfound, hshut⟩
  cases h.found.symm.trans hfound
  exact hshut (.inl h.phase)

/-! ## Work on a row -/

section

variable [Backend σ]

/-- A move of an operation that stays at work changes the locks and the write buffer at most. -/
theorem Move.labors (hmove : Move i op me db stand writes db' stand')
    (hworking : stand'.isWorking) (holds : db.Holds op.connection me.txn txn 1) :
    Labors i op me db { txn with log := txn.log.appendAll writes } db' := by
  cases hmove with
  | ask call aims asked =>
    subst asked
    exact ⟨rfl, holds.of_eq rfl rfl, ⟨rfl, rfl⟩, fun _ h => h.continues_acquire _ _ _ _⟩
  | look call looked =>
    subst looked
    exact ⟨rfl, holds.of_eq rfl rfl, ⟨rfl, rfl⟩, fun _ h => h.continues_poll _ _⟩
  | read call working aims => exact ⟨rfl, holds, .refl _, fun _ h => h.refl⟩
  | fetch call working aims row => exact ⟨rfl, holds, .refl _, fun _ h => h.refl⟩
  | buffer call working target write =>
    rename_i s
    have heq : db.buffer me.txn target s.key write = db.withDirectory (db.directory.set me.txn
        { txn with log := txn.log.append target.id s.key write }) := by
      unfold Database.buffer Directory.modifyLog Directory.modify
      rw [holds.found]
    have hset : (db.withDirectory (db.directory.set me.txn
        { txn with log := txn.log.append target.id s.key write })).Holds op.connection me.txn
          { txn with log := txn.log.append target.id s.key write } txn.inFlight :=
      holds.set holds.phase
    rw [heq]
    exact ⟨rfl, holds.inFlight ▸ hset, ⟨rfl, rfl⟩, fun _ h => h.refl⟩
  | leave | tell | close | discard | park | snapshot | apply | release | retire | replace =>
    cases hworking
  | forget ends | separate ends =>
    rw [ends.not_working] at hworking
    cases hworking

/-- So do several moves. -/
theorem Moves.labors (hmoves : Moves i op me db stand writes db' stand')
    (hworking : stand'.isWorking) (holds : db.Holds op.connection me.txn txn 1) :
    Labors i op me db { txn with log := txn.log.appendAll writes } db' := by
  induction hmoves generalizing txn with
  | nil => exact ⟨rfl, holds, .refl _, fun _ h => h.refl⟩
  | cons move rest ih =>
    -- The operation is at work in between, since it does not begin to work again.
    have hbetween := fun hidle => Bool.false_ne_true ((rest.not_working hidle).symm.trans hworking)
    have hfirst := move.labors (Bool.eq_true_of_not_eq_false hbetween) holds
    have hrest := ih hworking hfirst.holds
    rw [WriteBuffer.appendAll_append]
    exact ⟨hrest.tasks.trans hfirst.tasks, hrest.holds, hfirst.stable.trans hrest.stable,
      fun Shut h => (hfirst.locks Shut h).trans (hrest.locks Shut (hfirst.locks Shut h).orderly)⟩

/-- Whether a table is the one on which a statement works where it stands: it has looked the table
up, or will find it. -/
def Seeks (db : Database σ) (s : Statement) (stand : Stand) (target : Target) : Prop :=
  stand.target? = some target ∨ stand = .issued ∧
    ∃ entry, db.registry.lookUp s.table = .ok (target.id, entry) ∧ entry.table = target.table

/-- Where a statement of `t` is put down as long as its body goes on. -/
inductive GoesOn (db : Database σ) (t : TransactionId) (s : Statement) (stand : Stand) :
    Stand → Prop where
  /-- It waits for its lock. -/
  | parks {target : Target} (seeks : db.Seeks s stand target) (w : Lock.Waiting) :
      GoesOn db t s stand (.locking target w)
  /-- It has its lock, and its row is to be read. -/
  | locks {target : Target} (seeks : db.Seeks s stand target)
      (unbuffered : db.lockedEnding? t target s = none) : GoesOn db t s stand (.reading target)
  /-- Its row has been read. -/
  | reads {target : Target} (begins : stand = .reading target) :
      GoesOn db t s stand (.fetched target (db.readRow target s.key))

omit [Backend σ] in
/-- Only the transactions tell how a body ends with its lock. -/
theorem lockedEnding?_of_eq (h : db.directory = mid.directory) :
    db.lockedEnding? t target s = mid.lockedEnding? t target s := by
  have hbuffered : ∀ key, db.buffered? t target key = mid.buffered? t target key := by
    intro key
    unfold buffered?
    rw [h]
  unfold lockedEnding?
  simp only [hbuffered]

omit [Backend σ] in
/-- A statement whose body goes on with its lock is to read its row. -/
theorem locked_eq_of_none (hnone : db.lockedEnding? t target s = none) :
    db.locked i op t s target = (db.setStand i (.reading target)).wake [i] := by
  unfold lockedEnding? at hnone
  unfold Database.locked
  cases s with
  | put table key value => cases hnone
  | get table key =>
    dsimp only at hnone ⊢
    cases hbuffered : db.buffered? t target key with
    | none => rfl
    | some w =>
      rw [hbuffered] at hnone
      cases w <;> cases hnone
  | delete table key =>
    dsimp only at hnone ⊢
    cases hbuffered : db.buffered? t target key with
    | none => rfl
    | some w =>
      rw [hbuffered] at hnone
      cases w <;> cases hnone

/-- A statement whose body goes on when it has asked for its lock, or looked for the answer, waits
for it or is to read its row. -/
theorem acquired_goesOn {turn : Lock.Manager × Lock.Acquisition} (hruns : db.Runs i op me)
    (hseeks : mid.Seeks s stand target) (hdirectory : db.directory = mid.directory)
    (hnone : mid.acquiredEnding? t target s turn.2 = none) :
    ∃ stand', GoesOn mid t s stand stand' ∧
      (db.acquired i op t s target turn).Runs i { op with stand := stand' } me := by
  obtain ⟨m, answer⟩ := turn
  match answer with
  | .answered (.ok ()) =>
    have hsame : (db.withLocks m).directory = mid.directory := hdirectory
    have hlocked : (db.withLocks m).lockedEnding? t target s = none :=
      (lockedEnding?_of_eq hsame).trans hnone
    refine ⟨_, .locks hseeks hnone, ?_⟩
    show ((db.withLocks m).locked i op t s target).Runs i _ me
    rw [locked_eq_of_none hlocked]
    have hmoved : (db.withLocks m).Runs i op me := hruns
    exact hmoved.setStand (.reading target)
  | .answered (.error why) => cases hnone
  | .waiting w => exact ⟨_, .parks hseeks w, hruns.setStand (.locking target w)⟩

/-- A statement whose body goes on has found out more where it is put down. -/
theorem Runs.goesOn (hruns : db.Runs i op me) (hcall : op.call = .statement s)
    (hworking : op.stand.isWorking) (hnone : db.bodyEnding? op me = none) :
    ∃ stand', GoesOn db me.txn s op.stand stand' ∧
      (db.resume i).Runs i { op with stand := stand' } me := by
  have hpop : (db.pop i).Runs i op me := hruns
  have hresume : db.resume i = (db.pop i).resumeOperation i op me := resume_eq hruns
  rw [hresume]
  obtain ⟨c, call, holder, opened, stand⟩ := op
  cases hcall
  -- By cases on where it stands. The branches in which its body ends are excluded by `hnone`, one
  -- after the other, in the order in which the code takes them.
  cases stand with
  | issued =>
    unfold bodyEnding? at hnone
    dsimp only at hnone
    show ∃ stand', _ ∧ ((db.pop i).begin i _ me s).Runs i _ me
    unfold Database.begin
    have hregistry : (db.pop i).registry = db.registry := rfl
    have hstore : (db.pop i).store = db.store := rfl
    rw [hregistry, hstore]
    cases hlook : db.registry.lookUp s.table with
    | error e =>
      rw [hlook] at hnone
      cases hnone
    | ok found =>
      obtain ⟨id, entry⟩ := found
      have hseeks : db.Seeks s .issued ⟨id, entry.table⟩ := .inr ⟨rfl, entry, hlook, rfl⟩
      rw [hlook] at hnone
      dsimp only at hnone ⊢
      cases htable : db.store[entry.table]? with
      | none =>
        rw [htable] at hnone
        cases hnone
      | some table =>
        rw [htable] at hnone
        dsimp only at hnone ⊢
        cases hvalid : Backend.validate table s.key s.value? with
        | failed e =>
          rw [hvalid] at hnone
          cases hnone
        | broken text =>
          rw [hvalid] at hnone
          cases hnone
        | done _ =>
          rw [hvalid] at hnone
          exact acquired_goesOn hpop hseeks rfl hnone
  | locking target w =>
    -- It looks for the answer to its request.
    have hseeks : db.Seeks s (.locking target w) target := .inl rfl
    have hwaits : db.acquiredEnding? me.txn target s (db.locks.poll db.now w).2 = none := hnone
    exact acquired_goesOn hpop hseeks rfl hwaits
  | reading target =>
    refine ⟨_, .reads rfl, ?_⟩
    show (((db.pop i).setStand i (.fetched target (db.readRow target s.key))).wake [i]).Runs i _ me
    exact hpop.setStand (.fetched target _)
  | fetched target row => cases hnone
  | draining purpose result | applying plan result | applied errors result | finished result =>
    cases hworking

/-- As long as the body of a statement goes on nothing happens to the tables and its transaction,
and no transaction loses a lock. -/
theorem Holds.body_goesOn (holds : db.Holds op.connection me.txn txn 1) (hruns : db.Runs i op me)
    (hcall : op.call = .statement s) (hworking : op.stand.isWorking)
    (hending : db.bodyEnding? op me = none) :
    ∃ stand', GoesOn db me.txn s op.stand stand' ∧
      (db.resume i).Runs i { op with stand := stand' } me ∧
      (db.resume i).Holds op.connection me.txn txn 1 ∧ Stable db (db.resume i) ∧
      ∀ Shut, db.locks.Orderly Shut → db.locks.Continues Shut (db.resume i).locks := by
  obtain ⟨stand', hgoesOn, hafter⟩ := hruns.goesOn hcall hworking hending
  have hworks := works_resume hruns hcall hworking
  rw [hending] at hworks
  refine ⟨stand', hgoesOn, hafter, ?_⟩
  generalize db.resume i = after at hworks
  cases hworks with
  | goesOn moves working waits =>
    rename_i mid stand₁
    obtain ⟨ready, heq⟩ := mid.putDown_eq i stand₁
    have hlabors : Labors i op me (db.pop i) txn mid := moves.labors working (holds.of_eq rfl rfl)
    have hholds := hlabors.holds.setStand i stand₁
    rw [heq]
    refine ⟨hholds.of_eq rfl rfl, ⟨?_, ?_⟩, fun Shut horderly => ?_⟩
    · exact (store_setStand ..).trans hlabors.stable.store
    · exact (registry_setStand ..).trans hlabors.stable.registry
    · show db.locks.Continues Shut (mid.setStand i stand₁).locks
      rw [setStand_eq]
      exact hlabors.locks Shut horderly

/-- When it ends the statement has worked on its row, and then it is concluded. -/
theorem Holds.body_ends (holds : db.Holds op.connection me.txn txn 1) (hruns : db.Runs i op me)
    (hcall : op.call = .statement s) (hworking : op.stand.isWorking)
    (hending : db.bodyEnding? op me = some ending) :
    ∃ mid, Labors i op me db
        { txn with log := txn.log.appendAll (entriesAt (op.tableOf db.registry s) s (some ending)) }
        mid ∧ db.resume i = mid.conclude i op me.txn ending := by
  have hworks := works_resume hruns hcall hworking
  rw [hending] at hworks
  generalize hafter : db.resume i = after at hworks
  cases hworks with
  | ends moves working =>
    have hpop : (db.pop i).Holds op.connection me.txn txn 1 := holds.of_eq rfl rfl
    have hlabors := moves.labors working hpop
    exact ⟨_, ⟨hlabors.tasks, hlabors.holds, ⟨hlabors.stable.store, hlabors.stable.registry⟩,
      hlabors.locks⟩, rfl⟩

end

/-! ## The end of a statement -/

/-- How a statement is over: with a result, and its connection holds an idle transaction. -/
structure Rested (i : TaskId) (op : Operation) (me : Lock.Holder) (db : Database σ)
    (txn : Transaction) (r : Result) (db' : Database σ) : Prop where
  /-- It has its result. -/
  runs : db'.Runs i { op with stand := .finished r } me
  /-- No operation is in flight. -/
  holds : db'.Holds op.connection me.txn { txn with inFlight := 0, parked := [] } 0
  /-- Nothing has happened to the tables. -/
  stable : Stable db db'
  /-- No transaction has lost a lock. -/
  locks : ∀ Shut, db.locks.Orderly Shut → db.locks.Continues Shut db'.locks

/-- A statement that leaves its transaction with a result is over. -/
theorem Labors.finish (h : Labors i op me db txn mid) (hruns : db.Runs i op me) (r : Result) :
    Rested i op me db txn r ((mid.leave me.txn).finish i r) := by
  have hset : (mid.withDirectory (mid.directory.set me.txn
      { txn with inFlight := 0, parked := [] })).Holds op.connection me.txn
        { txn with inFlight := 0, parked := [] } 0 := h.holds.set h.holds.phase
  rw [h.holds.leave_eq]
  unfold Database.finish
  refine ⟨Runs.setStand ((runs_of_tasks ?_).mpr hruns) _, ?_, ?_, fun Shut horderly => ?_⟩
  · exact h.tasks
  · refine Holds.setStand ?_ i _
    exact hset.of_eq rfl rfl
  · refine ⟨(store_setStand ..).trans h.stable.store,
      (registry_setStand ..).trans h.stable.registry⟩
  · rw [setStand_eq]
    exact h.locks Shut horderly

/-- A statement of a transaction that is not up to it leaves when its body has ended. -/
theorem Labors.conclude (h : Labors i op me db txn mid) (hruns : db.Runs i op me)
    (hresult : ending.result? = some r) (hopened : op.opened = false) :
    Rested i op me db txn r (mid.conclude i op me.txn ending) := by
  have heq : mid.conclude i op me.txn ending = (mid.leave me.txn).finish i r := by
    unfold Database.conclude
    cases ending with
    | done value =>
      cases hresult
      exact if_neg (hopened ▸ Bool.false_ne_true)
    | failed e =>
      cases hresult
      exact if_neg (hopened ▸ Bool.false_ne_true)
    | refused why => cases hresult
    | broken text => cases hresult
  rw [heq]
  exact h.finish hruns r

/-- A statement of its own transaction goes on to commit it when its body has ended. -/
theorem Labors.conclude_opened (h : Labors i op me db txn mid) (hruns : db.Runs i op me)
    (hresult : ending.result? = some r) (hopened : op.opened = true) :
    mid.conclude i op me.txn ending =
        (mid.leave me.txn).commit i op.connection (some me.txn) r ∧
      (mid.leave me.txn).Runs i op me ∧
      (mid.leave me.txn).Holds op.connection me.txn { txn with inFlight := 0, parked := [] } 0 ∧
      Stable db (mid.leave me.txn) ∧
      ∀ Shut, db.locks.Orderly Shut → db.locks.Continues Shut (mid.leave me.txn).locks := by
  have heq : mid.conclude i op me.txn ending =
      (mid.leave me.txn).commit i op.connection (some me.txn) r := by
    unfold Database.conclude
    cases ending with
    | done value =>
      cases hresult
      exact if_pos hopened
    | failed e =>
      cases hresult
      exact if_pos hopened
    | refused why => cases hresult
    | broken text => cases hresult
  -- Its operation was the only one in flight, and so the transaction is idle when that has left.
  have hset : (mid.withDirectory (mid.directory.set me.txn
      { txn with inFlight := 0, parked := [] })).Holds op.connection me.txn
        { txn with inFlight := 0, parked := [] } 0 := h.holds.set h.holds.phase
  have hleave := h.holds.leave_eq
  refine ⟨heq, (runs_of_tasks ?_).mpr hruns, ?_, ?_, fun Shut horderly => ?_⟩
  · rw [hleave]
    exact h.tasks
  · rw [hleave]
    exact hset.of_eq rfl rfl
  · rw [hleave]
    exact ⟨h.stable.store, h.stable.registry⟩
  · rw [hleave]
    exact h.locks Shut horderly

/-! ## Commits -/

/-- A commit without writes is over when no operation is in flight. -/
theorem afterDrain_commit_nil (hfound : db.directory.find? t = some txn)
    (hentries : txn.log.entries = []) (i : TaskId) (c : ConnectionId) (r : Result) :
    db.afterDrain i c t .commit r = (db.recordCommit t []).endCommit i c t [] r := by
  unfold Database.afterDrain
  dsimp only
  rw [hfound]
  dsimp only [Option.map_some, Option.getD_some]
  rw [hentries]
  rfl

/-- One with writes goes on to apply them. -/
theorem afterDrain_commit (hfound : db.directory.find? t = some txn)
    (hentries : txn.log.entries ≠ []) (i : TaskId) (c : ConnectionId) (r : Result) :
    db.afterDrain i c t .commit r =
      (db.setStand i (.applying (db.plan txn.log.entries) r)).wake [i] := by
  unfold Database.afterDrain
  dsimp only
  rw [hfound]
  dsimp only [Option.map_some, Option.getD_some]
  obtain ⟨e, rest, heq⟩ := List.exists_cons_of_ne_nil hentries
  rw [heq]
  rfl

/-- What a commit of an idle transaction comes to. -/
theorem Holds.commit_eq {expected : Option TransactionId} (h : db.Holds c t txn 0)
    (hexpected : expected.all (· = t)) (i : TaskId) (r : Result) :
    db.commit i c expected r =
      (db.withDirectory (db.directory.set t { txn with phase := .committing })).afterDrain i c t
        .commit r := by
  have hfound : (db.withDirectory
      (db.directory.set t { txn with phase := .committing })).directory.find? t =
        some { txn with phase := .committing } :=
    (Directory.find?_set h.found _ t).trans (if_pos rfl)
  unfold Database.commit
  rw [h.attached]
  dsimp only
  rw [if_pos hexpected, turnTo_eq h.found h.phase]
  dsimp only
  exact drain_eq hfound h.inFlight i c .commit r

/-- A connection is about to have the writes of its transaction applied. -/
structure Applies (i : TaskId) (op : Operation) (me : Lock.Holder) (txn : Transaction) (r : Result)
    (db : Database σ) : Prop where
  /-- The operation is. -/
  runs : db.Runs i { op with stand := .applying (db.plan txn.log.entries) r } me
  /-- The connection is attached to the transaction. -/
  attached : db.attached.get? op.connection = some me.txn
  /-- The transaction was started. -/
  found : db.directory.find? me.txn = some txn
  /-- It is being committed. -/
  phase : txn.phase = .committing

/-- What happens elsewhere leaves it so, as long as the same tables are registered. -/
theorem Applies.beside (h : Applies i op me txn r db) (htidy : db.Tidy)
    (hbeside : Beside op.connection db db') (hregistry : db'.registry = db.registry) :
    Applies i op me txn r db' := by
  obtain ⟨own, hown, hconnection, -⟩ := htidy.owner h.attached
  cases h.found.symm.trans hown
  have hplan : db'.plan txn.log.entries = db.plan txn.log.entries := by
    unfold Database.plan
    rw [hregistry]
  exact ⟨hplan ▸ hbeside.runs h.runs rfl, hbeside.attached.trans h.attached,
    hbeside.found _ _ h.found hconnection, h.phase⟩

/-- A connection has lost its transaction with the end of the call. -/
structure Released (i : TaskId) (op : Operation) (me : Lock.Holder) (db : Database σ) (r : Result)
    (db' : Database σ) : Prop where
  /-- The call has its result. -/
  runs : db'.Runs i { op with stand := .finished r } me
  /-- The connection has no transaction. -/
  attached : db'.attached.get? op.connection = none
  /-- Nothing has happened to the tables. -/
  stable : Stable db db'

/-- A commit may end. -/
theorem released_endCommit (hruns : db.Runs i op me)
    (hattached : db.attached.get? op.connection = some me.txn) (errors : List Error) (r : Result) :
    Released i op me db (r.join errors) (db.endCommit i op.connection me.txn errors r) := by
  unfold Database.endCommit Database.finish
  refine ⟨Runs.setStand ((runs_of_tasks ?_).mpr hruns) _, ?_, ?_⟩
  · rw [separate_eq]
    rfl
  · rw [attached_setStand]
    exact (get?_attached_separate ..).trans (if_pos ⟨rfl, hattached⟩)
  · refine ⟨(store_setStand ..).trans ?_, (registry_setStand ..).trans ?_⟩
    · rw [separate_eq]
      rfl
    · rw [separate_eq]
      rfl

/-- A commit of an idle transaction is over at once if there is nothing to apply. -/
theorem Holds.commit_nil {expected : Option TransactionId}
    (h : db.Holds op.connection me.txn txn 0) (hruns : db.Runs i op me)
    (hexpected : expected.all (· = me.txn)) (hentries : txn.log.entries = []) (r : Result) :
    Released i op me db r (db.commit i op.connection expected r) := by
  have hfound : (db.withDirectory
      (db.directory.set me.txn { txn with phase := .committing })).directory.find? me.txn =
        some { txn with phase := .committing } :=
    (Directory.find?_set h.found _ me.txn).trans (if_pos rfl)
  rw [h.commit_eq hexpected, afterDrain_commit_nil hfound hentries]
  generalize hmid : (db.withDirectory
    (db.directory.set me.txn { txn with phase := .committing })).recordCommit me.txn [] = mid
  have hmoved : mid.Runs i op me := hmid ▸ hruns
  have hattached : mid.attached.get? op.connection = some me.txn := hmid ▸ h.attached
  have hended := released_endCommit hmoved hattached [] r
  rw [Result.join_nil] at hended
  subst hmid
  exact ⟨hended.runs, hended.attached, hended.stable.store, hended.stable.registry⟩

/-- Else it goes on to apply the writes. -/
theorem Holds.commit {expected : Option TransactionId}
    (h : db.Holds op.connection me.txn txn 0) (hruns : db.Runs i op me)
    (hexpected : expected.all (· = me.txn)) (hentries : txn.log.entries ≠ []) (r : Result) :
    Applies i op me { txn with phase := .committing } r (db.commit i op.connection expected r) ∧
      Stable db (db.commit i op.connection expected r) ∧
      (db.commit i op.connection expected r).locks = db.locks := by
  have hfound : (db.withDirectory
      (db.directory.set me.txn { txn with phase := .committing })).directory.find? me.txn =
        some { txn with phase := .committing } :=
    (Directory.find?_set h.found _ me.txn).trans (if_pos rfl)
  rw [h.commit_eq hexpected, afterDrain_commit hfound hentries, setStand_eq]
  have hmoved : (db.withDirectory
      (db.directory.set me.txn { txn with phase := .committing })).Runs i op me := hruns
  have hstand := hmoved.setStand (.applying (db.plan txn.log.entries) r)
  rw [setStand_eq] at hstand
  exact ⟨⟨hstand, h.attached, hfound, rfl⟩, ⟨rfl, rfl⟩, rfl⟩

/-- A statement without writes that commits its own transaction is over when its body has ended. -/
theorem Labors.released (h : Labors i op me db txn mid) (hruns : db.Runs i op me)
    (hresult : ending.result? = some r) (hopened : op.opened = true)
    (hentries : txn.log.entries = []) : Released i op me db r (mid.conclude i op me.txn ending) := by
  obtain ⟨heq, hleft, hholds, hstable, -⟩ := h.conclude_opened hruns hresult hopened
  have hexpected : (some me.txn).all (· = me.txn) := decide_eq_true rfl
  have hended := hholds.commit_nil hleft hexpected hentries r
  rw [heq]
  exact ⟨hended.runs, hended.attached, hstable.trans hended.stable⟩

/-- One with writes goes on to apply them. -/
theorem Labors.applies (h : Labors i op me db txn mid) (hruns : db.Runs i op me)
    (hresult : ending.result? = some r) (hopened : op.opened = true)
    (hentries : txn.log.entries ≠ []) :
    Applies i op me { txn with inFlight := 0, parked := [], phase := .committing } r
        (mid.conclude i op me.txn ending) ∧
      Stable db (mid.conclude i op me.txn ending) := by
  obtain ⟨heq, hleft, hholds, hstable, -⟩ := h.conclude_opened hruns hresult hopened
  have hexpected : (some me.txn).all (· = me.txn) := decide_eq_true rfl
  obtain ⟨happlies, hstable', -⟩ := hholds.commit hleft hexpected hentries r
  rw [heq]
  exact ⟨happlies, hstable.trans hstable'⟩

/-- The writes are applied in the next turn. -/
theorem Applies.resume [Backend σ] (h : Applies i op me txn r db) :
    ∃ errors, (causesOf (applyPlan db.store (db.plan txn.log.entries)).2).map Error.one = errors ∧
      (db.resume i).Runs i { op with stand := .applied errors r } me ∧
      (db.resume i).attached.get? op.connection = some me.txn ∧
      (db.resume i).directory.find? me.txn = some txn ∧
      (db.resume i).store = (applyPlan db.store (db.plan txn.log.entries)).1 ∧
      (db.resume i).registry = db.registry ∧ (db.resume i).locks = db.locks := by
  refine ⟨_, rfl, ?_⟩
  have hresume : db.resume i = (db.pop i).apply i me.txn (db.plan txn.log.entries) r :=
    resume_eq h.runs
  have hmoved : (({ db.pop i with
      store := (applyPlan db.store (db.plan txn.log.entries)).1 } : Database σ).recordCommit
        me.txn (db.plan txn.log.entries)).Runs i
          { op with stand := .applying (db.plan txn.log.entries) r } me := h.runs
  rw [hresume]
  unfold Database.apply
  dsimp only
  rw [setStand_eq]
  have hstand := hmoved.setStand
    (.applied ((causesOf (applyPlan db.store (db.plan txn.log.entries)).2).map .one) r)
  rw [setStand_eq] at hstand
  exact ⟨hstand, h.attached, h.found, rfl, rfl, rfl⟩

/-- And after that the commit ends. -/
theorem released_resume [Backend σ] {errors : List Error}
    (hruns : db.Runs i { op with stand := .applied errors r } me)
    (hattached : db.attached.get? op.connection = some me.txn) :
    Released i op me db (r.join errors) (db.resume i) := by
  have hresume : db.resume i = (db.pop i).endCommit i op.connection me.txn errors r :=
    resume_eq hruns
  have hpop : (db.pop i).Runs i { op with stand := .applied errors r } me := hruns
  have hended := released_endCommit hpop hattached errors r
  rw [hresume]
  exact ⟨hended.runs, hended.attached, hended.stable.store, hended.stable.registry⟩

/-! ## Rollbacks -/

/-- A rollback of an idle transaction is over at once. -/
theorem Holds.rollback (h : db.Holds op.connection me.txn txn 0) (hruns : db.Runs i op me) :
    Released i op me db (.ok none) (db.rollback i op.connection) := by
  have hfound : (db.withDirectory
      (db.directory.set me.txn { txn with phase := .aborting })).directory.find? me.txn =
        some { txn with phase := .aborting } :=
    (Directory.find?_set h.found _ me.txn).trans (if_pos rfl)
  -- With nothing in flight the rollback does not park: it runs through to the end of the
  -- transaction's life in the turn in which it is called.
  have heq : db.rollback i op.connection =
      (((((db.withDirectory (db.directory.set me.txn { txn with phase := .aborting })).releaseLocks
        me.txn).forgetLocks me.txn).separate op.connection me.txn).retire me.txn).finish i
          (.ok none) := by
    unfold Database.rollback
    rw [h.attached]
    dsimp only
    rw [turnTo_eq h.found h.phase]
    dsimp only
    unfold Database.discard
    generalize hmid : (db.withDirectory
      (db.directory.set me.txn { txn with phase := .aborting })).releaseLocks me.txn = mid
    have hreleased : mid.directory.find? me.txn = some { txn with phase := .aborting } :=
      hmid ▸ hfound
    exact drain_eq hreleased h.inFlight i op.connection (.discard false) (.ok none)
  rw [heq]
  unfold Database.finish
  refine ⟨Runs.setStand ((runs_of_tasks ?_).mpr hruns) _, ?_, ?_⟩
  · rw [separate_eq]
    rfl
  · rw [attached_setStand]
    exact (get?_attached_separate ..).trans (if_pos ⟨rfl, h.attached⟩)
  · refine ⟨(store_setStand ..).trans ?_, (registry_setStand ..).trans ?_⟩
    · rw [separate_eq]
      rfl
    · rw [separate_eq]
      rfl

/-! ## Refused locks -/

section

variable [Backend σ]

/-- A turn that applies nothing leaves the tables as they are. -/
theorem Leads.stable (hleads : Leads i op me db stand writes db') (hturn : db.InTurn i op me stand)
    (hunapplied : ¬ db'.Applied me.txn) : Stable db db' := by
  obtain ⟨mid, stand', hmoves, -, rfl⟩ := hleads
  obtain ⟨ready, heq⟩ := mid.putDown_eq i stand'
  -- Either the tables are as they were, or the transaction is among those applied; and if it is
  -- once, it stays so.
  have hmid := hmoves.keeps (P := fun mid _ => Stable db mid ∨ mid.Applied me.txn)
    (fun move hturn hmid => by
      have heffect := move.effect hturn
      rcases hmid with hmid | happlied
      · cases heffect.carries with
        | idle plan commits store => exact .inl (hmid.trans ⟨store, heffect.registry⟩)
        | taken found before plan commits store =>
          exact .inl (hmid.trans ⟨store, heffect.registry⟩)
        | applied before after commits store =>
          refine .inr ?_
          unfold Database.Applied
          rw [commits, List.map_append]
          exact List.mem_append_right _ (List.mem_singleton.mpr rfl)
      · exact .inr (heffect.applied_mono happlied)) hturn (.inl (.refl db))
  rw [heq] at hunapplied ⊢
  rcases hmid with hmid | happlied
  · exact ⟨(store_setStand ..).trans hmid.store, (registry_setStand ..).trans hmid.registry⟩
  · exact absurd (applied_setStand.mpr happlied) hunapplied

/-- A statement that is refused its lock is over at once if it is alone in its transaction, and then
its connection has a fresh transaction or none. -/
theorem Regular.refused_alone {why : Lock.Refusal} (h : db.Regular clock)
    (holds : db.Holds op.connection me.txn txn 1) (hruns : db.Runs i op me)
    (hending : db.bodyEnding? op me = some (.refused why)) (hwhy : why ≠ .released) :
    (db.resume i).Runs i { op with stand := .finished (.error (Cause.lock why)) } me ∧
      db.Succeeds clock (db.resume i) op.connection (txn.origin = .explicit) ∧
      Stable db (db.resume i) := by
  obtain ⟨m, hrefused⟩ := h.refused hruns hending
  obtain ⟨mid, hdiscards, ⟨own, hown, hflight⟩, hroster, hlocks, hfate, hresume⟩ :=
    h.aborts hruns hrefused hwhy holds.found holds.phase
  have hidle : own.inFlight = 0 := by
    rw [hflight, holds.inFlight]
  have hend : db.resume i = mid.endDiscard i op.connection me.txn (txn.origin = .explicit)
      (.error (Cause.lock why)) := by
    rw [hresume]
    exact drain_eq hown hidle i op.connection _ _
  obtain ⟨hover, hsucceeds⟩ := hdiscards.end
  rw [← hend] at hover hsucceeds
  refine ⟨hover, hsucceeds.of_roster hroster, ?_⟩
  -- The transaction is discarded, and so the turn has applied nothing.
  have hdiscarded := ((h.abandons hruns hending hwhy holds.found holds.phase).1).fate
  rcases h.lifecycle.resume_cases hruns with ⟨heq, -⟩ | ⟨-, hleads⟩
  · rw [heq]
    exact ⟨rfl, rfl⟩
  · have hstable := hleads.stable (h.lifecycle.inTurn hruns)
      ((h.resume i).of_discarded hdiscarded).1
    exact ⟨hstable.store, hstable.registry⟩

end

/-! ## Calls on a connection at rest -/

/-- A statement that is issued on a connection that is at rest joins the transaction and the line. -/
theorem Holds.submit_eq (h : db.Holds c t txn 0) (s : Statement) :
    db.submit c (.statement s) = ((db.withDirectory
      (db.directory.set t { txn with inFlight := 1 })).push
        (.operation ⟨c, .statement s, some txn.holder, false, .issued⟩)).wake [db.tasks.size] := by
  have hattach : db.attach c = (.ok (t, false), db) := by
    unfold Database.attach
    rw [h.attached]
  have henroll : db.enroll t = .ok (txn.holder, db.withDirectory
      (db.directory.set t { txn with inFlight := 1 })) := by
    unfold Database.enroll
    rw [h.found]
    dsimp only
    unfold Transaction.register
    rw [if_pos h.phase, h.inFlight]
    rfl
  unfold Database.submit Database.register
  rw [hattach]
  dsimp only
  rw [henroll]

/-- A statement may be issued on a connection that is at rest. -/
theorem Holds.submit_statement (h : db.Holds c t txn 0) (hnumbered : db.directory.Numbered)
    (s : Statement) :
    (db.submit c (.statement s)).Runs db.tasks.size
        ⟨c, .statement s, some txn.holder, false, .issued⟩ txn.holder ∧
      txn.holder.txn = t ∧
      (db.submit c (.statement s)).Holds c t { txn with inFlight := 1 } 1 ∧
      Stable db (db.submit c (.statement s)) ∧
      (db.submit c (.statement s)).locks = db.locks := by
  have hset : (db.withDirectory (db.directory.set t { txn with inFlight := 1 })).Holds c t
      { txn with inFlight := 1 } 1 := h.set h.phase
  rw [h.submit_eq s]
  exact ⟨⟨Array.getElem?_push_size, rfl⟩, hnumbered t txn h.found, hset.of_eq rfl rfl, ⟨rfl, rfl⟩, rfl⟩

/-- A call that finishes the transaction may be issued. -/
theorem Holds.issue (h : db.Holds c t txn 0) (hnumbered : db.directory.Numbered) (call : Call) :
    (db.issue c call).Runs db.tasks.size ⟨c, call, some txn.holder, false, .issued⟩ txn.holder ∧
      txn.holder.txn = t ∧ (db.issue c call).Holds c t txn 0 := by
  rw [issue_eq (attachedHolder_of_attached h.attached h.found)]
  exact ⟨⟨Array.getElem?_push_size, rfl⟩, hnumbered t txn h.found, h.of_eq rfl rfl⟩

/-- A commit of a transaction with writes goes on to apply them. -/
theorem Holds.submit_commit (h : db.Holds c t txn 0) (hnumbered : db.directory.Numbered)
    (hentries : txn.log.entries ≠ []) :
    Applies db.tasks.size ⟨c, .commit, some txn.holder, false, .issued⟩ txn.holder
        { txn with phase := .committing } (.ok none) (db.submit c .commit) ∧
      txn.holder.txn = t ∧ Stable db (db.submit c .commit) ∧
      (db.submit c .commit).locks = db.locks := by
  obtain ⟨hruns, htxn, hissued⟩ := h.issue hnumbered .commit
  subst htxn
  have hexpected : (none : Option TransactionId).all (· = txn.holder.txn) := rfl
  obtain ⟨happlies, hstable, hlocks⟩ := hissued.commit hruns hexpected hentries (.ok none)
  exact ⟨happlies, rfl, ⟨hstable.store, hstable.registry⟩, hlocks⟩

/-- A commit of a transaction without writes is over at once. -/
theorem Holds.submit_commit_nil (h : db.Holds c t txn 0) (hnumbered : db.directory.Numbered)
    (hentries : txn.log.entries = []) :
    Released db.tasks.size ⟨c, .commit, some txn.holder, false, .issued⟩ txn.holder db (.ok none)
      (db.submit c .commit) := by
  obtain ⟨hruns, htxn, hissued⟩ := h.issue hnumbered .commit
  subst htxn
  have hexpected : (none : Option TransactionId).all (· = txn.holder.txn) := rfl
  have hended := hissued.commit_nil hruns hexpected hentries (.ok none)
  exact ⟨hended.runs, hended.attached, hended.stable.store, hended.stable.registry⟩

/-- So is a rollback, and a disconnect comes to one. -/
theorem Holds.submit_rollback {call : Call} (h : db.Holds c t txn 0)
    (hnumbered : db.directory.Numbered) (hcall : call = .rollback ∨ call = .disconnect) :
    Released db.tasks.size ⟨c, call, some txn.holder, false, .issued⟩ txn.holder db (.ok none)
      (db.submit c call) := by
  obtain ⟨hruns, htxn, hissued⟩ := h.issue hnumbered call
  subst htxn
  have hended := hissued.rollback hruns
  have heq : db.submit c call = (db.issue c call).rollback db.tasks.size c := by
    rcases hcall with rfl | rfl
    · rfl
    · show (db.issue c .disconnect).disconnect db.tasks.size c = _
      unfold Database.disconnect Dict.contains
      rw [hissued.attached]
      rfl
  rw [heq]
  exact ⟨hended.runs, hended.attached, hended.stable.store, hended.stable.registry⟩

/-- What a call that finishes a transaction yields where there is none. -/
def idleResult : Call → Result
  | .disconnect => .ok none
  | .commit | .rollback | .statement _ => .error Cause.notInTransaction

/-- On a connection without a transaction such a call is over at once, and nothing else happens. -/
theorem submit_detached {call : Call} (hdetached : db.attached.get? c = none)
    (hcall : call.isStatement = false) :
    db.submit c call =
      db.push (.operation ⟨c, call, none, false, .finished (idleResult call)⟩) := by
  have hissue := issue_eq (attachedHolder_of_detached hdetached) call
  have hfinish : (db.issue c call).finish db.tasks.size (idleResult call) =
      db.push (.operation ⟨c, call, none, false, .finished (idleResult call)⟩) := by
    rw [hissue]
    exact setStand_push ..
  have hissued : (db.issue c call).attached.get? c = none := hdetached
  rw [← hfinish]
  cases call with
  | statement s => cases hcall
  | commit =>
    show (db.issue c .commit).commit db.tasks.size c none (.ok none) = _
    unfold Database.commit
    rw [hissued]
    rfl
  | rollback =>
    show (db.issue c .rollback).rollback db.tasks.size c = _
    unfold Database.rollback
    rw [hissued]
    rfl
  | disconnect =>
    show (db.issue c .disconnect).disconnect db.tasks.size c = _
    unfold Database.disconnect Dict.contains
    rw [hissued]
    rfl

/-- A call that was added when it was over has its result. -/
theorem told_push (db : Database σ) (c : ConnectionId) (call : Call) (r : Result) :
    (db.push (.operation ⟨c, call, none, false, .finished r⟩)).Told c db.tasks.size r :=
  ⟨_, Array.getElem?_push_size, rfl, rfl⟩

/-- A transaction may be begun on a connection that has none. -/
theorem Tidy.holds_placed (h : db.Tidy) (hdetached : db.attached.get? c = none) (origin : Origin) :
    ∃ t ts, db.start c origin = (.ok t, db.placed c db.clock.read.1 db.clock.read.2 origin) ∧
      (db.placed c db.clock.read.1 db.clock.read.2 origin).Holds c t (.new t c ts origin) 0 :=
  ⟨_, _, h.start_of_detached hdetached origin, Dict.get?_insert_self ..,
    (Directory.find?_place ..).trans (if_pos rfl), rfl, rfl⟩

/-- A statement may be issued on a connection that has no transaction, and gets one of its own. -/
theorem Tidy.submit_implicit (h : db.Tidy) (hdetached : db.attached.get? c = none)
    (himplicit : db.config.implicitTransactions) (s : Statement) :
    ∃ t ts, (db.submit c (.statement s)).Runs db.tasks.size
        ⟨c, .statement s, some ⟨t, ts⟩, true, .issued⟩ ⟨t, ts⟩ ∧
      (db.submit c (.statement s)).Holds c t { Transaction.new t c ts .implicit with inFlight := 1 }
        1 ∧ Stable db (db.submit c (.statement s)) := by
  obtain ⟨t, ts, hstart, hholds⟩ := h.holds_placed hdetached .implicit
  -- The database with the new transaction stands in every step, and gets a name.
  generalize hplaced : db.placed c db.clock.read.1 db.clock.read.2 .implicit = placed at hstart hholds
  have hsame : placed.tasks = db.tasks ∧ Stable db placed := hplaced ▸ ⟨rfl, rfl, rfl⟩
  have hattach : db.attach c = (.ok (t, true), placed) := by
    unfold Database.attach
    rw [hdetached]
    dsimp only
    rw [if_pos himplicit, hstart]
  have henroll : placed.enroll t = .ok (⟨t, ts⟩, placed.withDirectory
      (placed.directory.set t { Transaction.new t c ts .implicit with inFlight := 1 })) := by
    unfold Database.enroll
    rw [hholds.found]
    rfl
  have heq : db.submit c (.statement s) = ((placed.withDirectory
      (placed.directory.set t { Transaction.new t c ts .implicit with inFlight := 1 })).push
        (.operation ⟨c, .statement s, some ⟨t, ts⟩, true, .issued⟩)).wake [db.tasks.size] := by
    unfold Database.submit Database.register
    rw [hattach]
    dsimp only
    rw [henroll]
  have hset : (placed.withDirectory (placed.directory.set t
      { Transaction.new t c ts .implicit with inFlight := 1 })).Holds c t
        { Transaction.new t c ts .implicit with inFlight := 1 } 1 := hholds.set rfl
  refine ⟨t, ts, ?_⟩
  rw [heq]
  refine ⟨⟨?_, rfl⟩, hset.of_eq rfl rfl, hsame.2.store, hsame.2.registry⟩
  show (placed.tasks.push _)[db.tasks.size]? = _
  rw [hsame.1]
  exact Array.getElem?_push_size

end TxStore.Database
