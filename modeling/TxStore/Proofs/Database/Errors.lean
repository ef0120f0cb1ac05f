import TxStore.Proofs.Error
import TxStore.Proofs.Database.Progress

/-!
# The errors of a database

A call may fail for several reasons: its own, why writes could not be applied, and what went wrong
in ending its transaction. They are joined where they arise, in different functions of a turn. Each
of these functions joins flat errors only. So whatever errors the tasks have been told of, or carry
with them until they end, are flat after every action (`Flat.perform`). That depends on the
operations alone, and so it makes no difference what else is done to the locks, the transactions or
the tables (`Disturbed`).
-/

namespace TxStore

/-- Whether a result is no error, or a flat one. -/
def Result.Flat (r : Result) : Prop :=
  ∀ e, r = .error e → e.Flat

/-- Whether all errors that an operation carries with it where it stands are flat. -/
def Stand.Flat : Stand → Prop
  | .draining _ result | .applying _ result | .finished result => result.Flat
  | .applied errors result => (∀ e ∈ errors, e.Flat) ∧ result.Flat
  | .issued | .locking _ _ | .reading _ | .fetched _ _ => True

namespace Result

variable {r : Result} {later : List Error}

/-- A success is no error. -/
theorem flat_ok (value : Option Value) : Result.Flat (.ok value) :=
  nofun

/-- A flat error may be the result. -/
theorem flat_error {e : Error} (h : e.Flat) : Result.Flat (.error e) := by
  rintro _ ⟨⟩
  exact h

/-- Flat errors may be joined to a result. -/
theorem Flat.join (h : r.Flat) (hlater : ∀ e ∈ later, e.Flat) : (r.join later).Flat := by
  have hjoined : ∀ e ∈ Error.join later, e.Flat := fun e => Error.flat_of_join hlater
  cases r with
  | ok value =>
    -- After a success the later errors are all there is to tell.
    unfold Result.join
    cases hlast : Error.join later with
    | none => exact flat_ok value
    | some e => exact flat_error (hjoined e hlast)
  | error e => exact flat_error ((h e rfl).followedBy hjoined)

/-- So may a single cause. -/
theorem Flat.join_cause (h : r.Flat) (cause : Cause) : (r.join [.one cause]).Flat :=
  h.join (List.forall_mem_singleton.mpr trivial)

end Result

namespace Database

variable {σ : Type} {db db' : Database σ} {op : Operation} {result : Result}

/-- Whether all errors that the operations of a database have been told of, or carry with them, are
flat. -/
def Flat (db : Database σ) : Prop :=
  ∀ (i : TaskId) (op : Operation), db.tasks[i]? = some (.operation op) → op.stand.Flat

/-- What goes wrong in putting a fresh transaction in the place of another one is a single cause. -/
theorem flat_of_mem_replace (db : Database σ) (c : ConnectionId) (t : TransactionId) :
    ∀ e ∈ (db.replace c t).2, e.Flat := by
  unfold Database.replace
  split
  · split
    · exact List.forall_mem_singleton.mpr trivial
    · dsimp only
      split
      · exact List.forall_mem_singleton.mpr trivial
      · exact List.forall_mem_nil _
  · exact List.forall_mem_nil _

namespace Flat

/-- That depends on the operations alone. -/
theorem of_operations (h : db.Flat)
    (hcalls : ∀ (i : TaskId) (op : Operation), db'.tasks[i]? = some (.operation op) →
      db.tasks[i]? = some (.operation op)) :
    db'.Flat :=
  fun i op hop => h i op (hcalls i op hop)

/-- So it stays while no task changes. -/
theorem of_tasks (h : db.Flat) (htasks : db'.tasks = db.tasks) : db'.Flat :=
  h.of_operations fun _ _ hop => htasks ▸ hop

/-- An operation may be moved with flat errors. -/
theorem setStand (h : db.Flat) (i : TaskId) (stand : Stand) (hstand : stand.Flat) :
    (db.setStand i stand).Flat := by
  intro j op hop
  rcases getElem?_setStand hop with ⟨-, hop⟩ | ⟨-, old, -, rfl⟩
  · exact h j op hop
  · exact hstand

/-- It may be added with flat errors, too. -/
theorem push (h : db.Flat) (op : Operation) (hstand : op.stand.Flat) :
    (db.push (.operation op)).Flat := by
  intro j other hop
  have hop := Array.getElem?_push.symm.trans hop
  split at hop
  · cases hop
    exact hstand
  · exact h j other hop

/-- A bare request may be added. -/
theorem push_request (h : db.Flat) (r : Lock.Request) : (db.push (.request r)).Flat := by
  refine h.of_operations fun j other hop => ?_
  have hop := Array.getElem?_push.symm.trans hop
  split at hop
  · cases hop
  · exact hop

/-- A call may end. -/
theorem finish (h : db.Flat) (i : TaskId) (hresult : result.Flat) : (db.finish i result).Flat :=
  h.setStand i (.finished result) hresult

/-- A call may end with a single cause. -/
theorem finish_cause (h : db.Flat) (i : TaskId) (cause : Cause) :
    (db.finish i (.error (.one cause))).Flat :=
  h.finish i (Result.flat_error trivial)

/-! ## Finishing transactions -/

/-- A commit may end. -/
theorem endCommit (h : db.Flat) (i : TaskId) (c : ConnectionId) (t : TransactionId)
    {errors : List Error} (herrors : ∀ e ∈ errors, e.Flat) (hresult : result.Flat) :
    (db.endCommit i c t errors result).Flat := by
  have hended : ((((db.releaseLocks t).forgetLocks t).separate c t).retire t).Flat :=
    h.of_tasks (tasks_separate ((db.releaseLocks t).forgetLocks t) c t)
  exact hended.finish i (hresult.join herrors)

/-- A rollback or an abort may end. -/
theorem endDiscard (h : db.Flat) (i : TaskId) (c : ConnectionId) (t : TransactionId)
    (restart : Bool) (hresult : result.Flat) : (db.endDiscard i c t restart result).Flat := by
  unfold Database.endDiscard
  dsimp only
  split
  · have hended : (((db.forgetLocks t).replace c t).1.retire t).Flat :=
      h.of_tasks (tasks_replace (db.forgetLocks t) c t)
    exact hended.finish i (hresult.join (flat_of_mem_replace _ c t))
  · have hended : (((db.forgetLocks t).separate c t).retire t).Flat :=
      h.of_tasks (tasks_separate (db.forgetLocks t) c t)
    exact hended.finish i hresult

/-- A call may go on when no operation is in flight. -/
theorem afterDrain (h : db.Flat) (i : TaskId) (c : ConnectionId) (t : TransactionId)
    (purpose : Purpose) (hresult : result.Flat) : (db.afterDrain i c t purpose result).Flat := by
  unfold Database.afterDrain
  cases purpose with
  | discard restart => exact h.endDiscard i c t restart hresult
  | commit =>
    dsimp only
    split
    · have hrecorded : (db.recordCommit t []).Flat := h.of_tasks rfl
      exact hrecorded.endCommit i c t (List.forall_mem_nil _) hresult
    · exact (h.setStand i (.applying _ result) hresult).of_tasks rfl

/-- A call may wait until no operation is in flight. -/
theorem drain (h : db.Flat) (i : TaskId) (c : ConnectionId) (t : TransactionId)
    (purpose : Purpose) (hresult : result.Flat) : (db.drain i c t purpose result).Flat := by
  unfold Database.drain
  split
  · exact h
  · split
    · exact h.afterDrain i c t purpose hresult
    · rename_i txn hfound parked hparked
      have hwaiting : (db.withDirectory (db.directory.set t parked)).Flat := h.of_tasks rfl
      exact hwaiting.setStand i (.draining purpose result) hresult

/-- A transaction may be moved out of its active life. -/
theorem turnTo {target : Phase} {t : TransactionId} (h : db.Flat)
    (hturn : db.turnTo t target = .ok db') : db'.Flat := by
  obtain ⟨txn, -, -, rfl⟩ := turnTo_ok hturn
  exact h.of_tasks rfl

/-- A transaction may be committed. -/
theorem commit (h : db.Flat) (i : TaskId) (c : ConnectionId) (expected : Option TransactionId)
    (hresult : result.Flat) : (db.commit i c expected result).Flat := by
  unfold Database.commit
  split
  · exact h.finish i (hresult.join_cause _)
  · split
    · split
      · exact h.finish i (hresult.join_cause _)
      · rename_i hturn
        exact (h.turnTo hturn).drain i c _ .commit hresult
    · exact h.finish i (hresult.join_cause _)

/-- A transaction may be discarded. -/
theorem discard (h : db.Flat) (i : TaskId) (c : ConnectionId) (t : TransactionId) (restart : Bool)
    (hresult : result.Flat) : (db.discard i c t restart result).Flat := by
  have hreleased : (db.releaseLocks t).Flat := h.of_tasks rfl
  exact hreleased.drain i c t (.discard restart) hresult

/-- A connection may roll back. -/
theorem rollback (h : db.Flat) (i : TaskId) (c : ConnectionId) : (db.rollback i c).Flat := by
  unfold Database.rollback
  split
  · exact h.finish_cause i _
  · split
    · exact h.finish_cause i _
    · rename_i hturn
      exact (h.turnTo hturn).discard i c _ false (Result.flat_ok none)

/-- A connection may be closed. -/
theorem disconnect (h : db.Flat) (i : TaskId) (c : ConnectionId) : (db.disconnect i c).Flat := by
  unfold Database.disconnect
  split
  · exact h.rollback i c
  · exact h.finish i (Result.flat_ok none)

/-- A transaction may be aborted. -/
theorem abort (h : db.Flat) (i : TaskId) (c : ConnectionId) (t : TransactionId)
    (why : Lock.Refusal) : (db.abort i c t why).Flat := by
  unfold Database.abort
  dsimp only
  split
  · split
    · exact h.finish_cause i _
    · rename_i hturn
      exact (h.turnTo hturn).discard i c t _ (Result.flat_error trivial)
  · exact h.finish_cause i _

/-! ## Running statements -/

/-- A statement may end. If it fails, it does so with a flat error. -/
theorem conclude (h : db.Flat) (i : TaskId) (op : Operation) (t : TransactionId) {ending : Ending}
    (hending : ∀ e, ending = .failed e → e.Flat) : (db.conclude i op t ending).Flat := by
  have hleft : (db.leave t).Flat := h.of_tasks (db.tasks_leave t)
  have hclose : ∀ {result : Result}, result.Flat →
      Flat (if op.opened then (db.leave t).commit i op.connection (some t) result
        else (db.leave t).finish i result) := by
    intro result hresult
    split
    · exact hleft.commit i op.connection (some t) hresult
    · exact hleft.finish i hresult
  cases ending with
  | done value => exact hclose (Result.flat_ok value)
  | failed e => exact hclose (Result.flat_error (hending e rfl))
  | refused why =>
    cases why with
    | released => exact hleft.finish_cause i _
    | conflict => exact hleft.abort i op.connection t _
    | timeout => exact hleft.abort i op.connection t _
  | broken text => exact hleft.finish_cause i _

/-- A statement may fail for a single cause. -/
theorem conclude_failed (h : db.Flat) (i : TaskId) (op : Operation) (t : TransactionId)
    (cause : Cause) : (db.conclude i op t (.failed (.one cause))).Flat := by
  refine h.conclude i op t ?_
  rintro _ ⟨⟩
  trivial

/-- A write may be buffered. -/
theorem buffer (h : db.Flat) (t : TransactionId) (target : Target) (key : Value) (write : Write) :
    (db.buffer t target key write).Flat :=
  h.of_tasks rfl

/-- A row may be read in the background. -/
theorem read (h : db.Flat) (i : TaskId) (target : Target) :
    ((db.setStand i (.reading target)).wake [i]).Flat :=
  (h.setStand i (.reading target) trivial).of_tasks rfl

/-- A statement may go on with its lock. -/
theorem locked (h : db.Flat) (i : TaskId) (op : Operation) (t : TransactionId) (s : Statement)
    (target : Target) : (db.locked i op t s target).Flat := by
  unfold Database.locked
  cases s with
  | put table key value => exact (h.buffer t target key (.put value)).conclude i op t nofun
  | get table key =>
    dsimp only
    split
    · exact h.conclude i op t nofun
    · exact h.conclude_failed i op t _
    · exact h.read i target
  | delete table key =>
    dsimp only
    split
    · exact (h.buffer t target key .delete).conclude i op t nofun
    · exact h.conclude_failed i op t _
    · exact h.read i target

/-- A statement may go on with its row. -/
theorem fetched (h : db.Flat) (i : TaskId) (op : Operation) (t : TransactionId) (s : Statement)
    (target : Target) (row : Outcome Value) : (db.fetched i op t s target row).Flat := by
  unfold Database.fetched
  cases row with
  | failed e => exact h.conclude_failed i op t _
  | broken text => exact h.conclude_failed i op t _
  | done value =>
    cases s with
    | delete table key => exact (h.buffer t target key .delete).conclude i op t nofun
    | get table key => exact h.conclude i op t nofun
    | put table key value => exact h.conclude i op t nofun

/-- A statement may go on with the answer to its request for a lock, or wait for it. -/
theorem acquired (h : db.Flat) (i : TaskId) (op : Operation) (t : TransactionId) (s : Statement)
    (target : Target) (turn : Lock.Manager × Lock.Acquisition) :
    (db.acquired i op t s target turn).Flat := by
  obtain ⟨m, answer | w⟩ := turn
  · have hlocks : (db.withLocks m).Flat := h.of_tasks rfl
    cases answer with
    | ok got => exact hlocks.locked i op t s target
    | error why => exact hlocks.conclude i op t nofun
  · exact (h.setStand i (.locking target w) trivial).of_tasks rfl

/-! ## Turns -/

variable [Backend σ]

/-- A statement may begin. -/
theorem begin (h : db.Flat) (i : TaskId) (op : Operation) (me : Lock.Holder) (s : Statement) :
    (db.begin i op me s).Flat := by
  unfold Database.begin
  split
  · exact h.conclude_failed i op me.txn _
  · split
    · exact h.conclude_failed i op me.txn _
    · split
      · exact h.conclude_failed i op me.txn _
      · exact h.conclude i op me.txn nofun
      · exact h.acquired i op me.txn s _ _

/-- The writes of a transaction may be applied. -/
theorem apply (h : db.Flat) (i : TaskId) (t : TransactionId) (plan : List PlannedWrite)
    (hresult : result.Flat) : (db.apply i t plan result).Flat := by
  -- What is reported of a plan are single causes.
  have herrors : ∀ e ∈ (causesOf (applyPlan db.store plan).2).map Error.one, e.Flat :=
    List.forall_mem_map.mpr fun _ _ => trivial
  have hstored : (({ db with store := (applyPlan db.store plan).1 } : Database σ).recordCommit
      t plan).Flat := h.of_tasks rfl
  exact (hstored.setStand i (.applied _ result) ⟨herrors, hresult⟩).of_tasks rfl

/-- An operation may have its turn. -/
theorem resumeOperation (h : db.Flat) {i : TaskId} {me : Lock.Holder} (hruns : db.Runs i op me) :
    (db.resumeOperation i op me).Flat := by
  have hflat := h i op hruns.1
  unfold Database.resumeOperation
  split
  · rename_i s hstand hcall
    exact h.begin i op me s
  · rename_i target w s hstand hcall
    exact h.acquired i op me.txn s target _
  · rename_i target s hstand hcall
    exact (h.setStand i (.fetched target _) trivial).of_tasks rfl
  · rename_i target row s hstand hcall
    exact h.fetched i op me.txn s target row
  -- An operation that finishes its transaction goes on with the errors that it carries.
  · rename_i purpose result hstand
    rw [hstand] at hflat
    exact h.drain i op.connection me.txn purpose hflat
  · rename_i plan result hstand
    rw [hstand] at hflat
    exact h.apply i me.txn plan hflat
  · rename_i errors result hstand
    rw [hstand] at hflat
    exact h.endCommit i op.connection me.txn hflat.1 hflat.2
  · exact h

/-- A task may have its turn. -/
theorem resume (h : db.Flat) (i : TaskId) : (db.resume i).Flat := by
  rcases db.resume_cases i with ⟨op, me, hruns⟩ | ⟨r, hr⟩ | ⟨-, heq⟩
  · have hline : ({ db with ready := db.ready.erase i } : Database σ).Flat := h.of_tasks rfl
    rw [resume_eq hruns]
    exact hline.resumeOperation hruns
  · rw [resume_eq_of_request hr]
    -- What is put in its place is no operation.
    refine h.of_operations fun j op hop => ?_
    have hop := Array.getElem?_setIfInBounds.symm.trans hop
    split at hop
    · split at hop <;> cases hop
    · exact hop
  · rw [heq]
    exact h.of_tasks rfl

/-! ## Calls -/

omit [Backend σ] in
/-- A call may be made. -/
theorem submit (h : db.Flat) (c : ConnectionId) (call : Call) : (db.submit c call).Flat := by
  have hissued : (db.issue c call).Flat := h.push _ trivial
  cases call with
  | statement s =>
    have hattached : (db.attach c).2.Flat := h.of_tasks (db.tasks_attach c)
    rcases db.submit_statement_cases c s with ⟨e, heq⟩ | ⟨t, opened, txn, -, -, -, heq⟩
    · rw [heq]
      exact hattached.push _ (Result.flat_error trivial)
    · rw [heq]
      have hentered : ((db.attach c).2.withDirectory ((db.attach c).2.directory.set t
          { txn with inFlight := txn.inFlight + 1 })).Flat := hattached.of_tasks rfl
      exact (hentered.push ⟨c, .statement s, some txn.holder, opened, .issued⟩ trivial).of_tasks rfl
  | commit => exact hissued.commit _ c none (Result.flat_ok none)
  | rollback => exact hissued.rollback _ c
  | disconnect => exact hissued.disconnect _ c

/-- Every action keeps it. -/
theorem perform (h : db.Flat) (action : Action σ) : (db.perform action).Flat := by
  cases action with
  | connect => exact h.of_tasks rfl
  | createTable table =>
    obtain ⟨store, registry, heq⟩ := db.exists_createTable table
    show (db.createTable table).2.Flat
    rw [heq]
    exact h.of_tasks rfl
  | dropTable name =>
    obtain ⟨registry, heq⟩ := db.exists_dropTable name
    show (db.dropTable name).2.Flat
    rw [heq]
    exact h.of_tasks rfl
  | beginTransaction c =>
    rcases db.beginTransaction_cases c with heq | heq
    · exact h.of_tasks (congrArg Database.tasks heq)
    · exact h.of_tasks ((congrArg Database.tasks heq).trans (db.tasks_start c .explicit))
  | submit c call => exact h.submit c call
  | requestLock mode holder key => exact (h.push_request ⟨mode, holder, key, .issued⟩).of_tasks rfl
  | resume i => exact h.resume i
  | reach instant => exact h.of_tasks rfl

end Flat

/-! ## Whatever else is done -/

/-- The databases that are reached from one without tables and connections by any actions, while
others meddle with it: they may change anything between two actions, only they make no call and move
none. -/
inductive Disturbed [Backend σ] : Database σ → Prop where
  /-- Nothing has happened. -/
  | new (config : Config) (clock : Clock) (hasher : Hasher) :
    Disturbed (.new config clock hasher)
  /-- One more action. -/
  | perform {db : Database σ} (disturbed : Disturbed db) (action : Action σ) :
    Disturbed (db.perform action)
  /-- Somebody meddles. -/
  | meddle {db db' : Database σ} (disturbed : Disturbed db)
      (calls : ∀ (i : TaskId) (op : Operation), db'.tasks[i]? = some (.operation op) →
        db.tasks[i]? = some (.operation op)) :
    Disturbed db'

/-- What a database reports as an error: the end of a call on a connection or of a bare request for
a lock, or a refusal to begin a transaction, to make a table or to take one out of the registry. -/
inductive Reports [Backend σ] (db : Database σ) : Error → Prop where
  /-- A call has ended with the error. -/
  | told {i : TaskId} {e : Error} (result : db.result? i = some (.error e)) : Reports db e
  /-- No transaction is begun. -/
  | beginTransaction {c : ConnectionId} {cause : Cause}
      (refused : (db.beginTransaction c).1 = .error cause) : Reports db cause
  /-- No table is made. -/
  | createTable {table : σ} {cause : Cause}
      (refused : (db.createTable table).1 = .error cause) : Reports db cause
  /-- No table is taken out. -/
  | dropTable {name : String} {cause : Cause}
      (refused : (db.dropTable name).1 = .error cause) : Reports db cause

section

variable [Backend σ]

/-- Whoever meddles, all errors stay flat. -/
theorem Disturbed.flat (h : db.Disturbed) : db.Flat := by
  induction h with
  | new config clock hasher =>
    intro i op hop
    cases hop
  | perform _ action ih => exact ih.perform action
  | meddle _ calls ih => exact ih.of_operations calls

/-- Nobody need meddle. -/
theorem Reachable.disturbed (h : db.Reachable) : db.Disturbed := by
  obtain ⟨config, clock, hasher, run⟩ := h
  induction run with
  | start => exact .new config clock hasher
  | perform _ _ ih => exact ih.perform _

omit [Backend σ] in
/-- The result of a task is flat. -/
theorem Flat.told {i : TaskId} (h : db.Flat) (hresult : db.result? i = some result) :
    result.Flat := by
  unfold Database.result? at hresult
  obtain ⟨task, htask, htold⟩ := Option.bind_eq_some_iff.mp hresult
  unfold Task.result? at htold
  cases task with
  | operation op =>
    have hflat := h i op htask
    dsimp only at htold
    split at htold
    · rename_i r hstand
      cases htold
      rw [hstand] at hflat
      exact hflat
    · cases htold
  | request r =>
    dsimp only at htold
    split at htold
    · cases htold
      exact Result.flat_ok none
    · cases htold
      exact Result.flat_error trivial
    · cases htold

/-- What is reported is flat. -/
theorem Flat.reported {e : Error} (h : db.Flat) (hreported : db.Reports e) : e.Flat := by
  cases hreported with
  | told result => exact h.told result e rfl
  | beginTransaction refused => trivial
  | createTable refused => trivial
  | dropTable refused => trivial

end

/-- Joining flat errors keeps them all, and no error is ever anything but flat. What flat errors are
joined to is flat and has their members, in their order; there is nothing only if there were no
errors. An error that is followed by another one is what both are joined to. It makes no difference
in which groups errors are joined. A lock conflict, a missing row, or a cause for which to try
again is found in what they are joined to exactly if it is found in one of them. And whatever
actions are taken and however others meddle with the database, every error that it reports is
flat. -/
theorem errors_join_and_stay_flat [Backend σ] {es fs : List Error} (hes : ∀ e ∈ es, e.Flat)
    (hfs : ∀ e ∈ fs, e.Flat) (disturbed : db.Disturbed) :
    (∀ e, Error.join es = some e → e.Flat ∧ e.members = es.flatMap Error.members) ∧
    (Error.join es = none ↔ es = []) ∧
    (∀ (e : Error) later, e.Flat → (∀ f ∈ later, f.Flat) → (e.followedBy later).Flat) ∧
    (∀ e f : Error, e.Flat → f.Flat → some (e.followedBy (some f)) = Error.join [e, f]) ∧
    Error.join (es ++ fs) = Error.join ((Error.join es).toList ++ (Error.join fs).toList) ∧
    (Error.join es).any Error.isLockConflict = es.any Error.isLockConflict ∧
    (Error.join es).any Error.isKeyNotFound = es.any Error.isKeyNotFound ∧
    (Error.join es).any Error.isRetryable = es.any Error.isRetryable ∧
    ∀ e, db.Reports e → e.Flat := by
  refine ⟨fun e hjoined => ⟨Error.flat_of_join hes hjoined, ?_⟩, Error.join_eq_none_iff hes,
    fun e later he hlater => he.followedBy hlater, fun e f he hf => Error.some_followedBy he hf,
    Error.join_append hes hfs, Error.any_join hes _, Error.any_join hes _, Error.any_join hes _,
    fun e => disturbed.flat.reported⟩
  have hmembers := Error.members_join hes
  rw [hjoined] at hmembers
  exact (List.append_nil _).symm.trans hmembers

/-- Two transactions want the same row. -/
def contested : Database MemoryTable :=
  [ .createTable ⟨"t", .any, .any, ⟨[]⟩⟩, .beginTransaction 0, .beginTransaction 1,
    .submit 0 (.statement (.put "t" (.integer 1) .null)), .resume 0,
    .submit 1 (.statement (.get "t" (.integer 1))) ].foldl perform (new .standard default .fnv1a)

/-- Somebody ends the younger one in the directory, behind the back of its connection. -/
def disowned : Database MemoryTable :=
  contested.withDirectory
    { contested.directory with current := contested.directory.current.erase 1 }

/-- For instance, the younger one is refused the lock, and then there is none that a fresh one could
take the place of. Its caller is told of both, and joined to other errors both keep their places. -/
theorem errors_join_and_stay_flat_disowned :
    ∃ e, (disowned.perform (.resume 1)).result? 1 = some (.error e) ∧ e.Flat ∧
      e = .joined [Cause.lock .conflict, Cause.notInTransaction] ∧
      Error.join [e, Cause.terminalState, e] =
        Error.join ((Error.join [e, Cause.terminalState]).toList ++ (Error.join [e]).toList) ∧
      Error.join [e, Cause.terminalState] = some (.joined
        [Cause.lock .conflict, Cause.notInTransaction, Cause.terminalState]) ∧
      (Error.join [e, Cause.terminalState]).any Error.isRetryable := by
  have hcontested : contested.Disturbed :=
    (reachable_performAll .standard default .fnv1a _).disturbed
  have hdisowned : disowned.Disturbed := hcontested.meddle fun _ _ hop => hop
  have htold : (disowned.perform (.resume 1)).result? 1 =
      some (.error (.joined [Cause.lock .conflict, Cause.notInTransaction])) := by
    decide +kernel
  have hes : ∀ e ∈ [Error.joined [Cause.lock .conflict, Cause.notInTransaction],
      Cause.terminalState], e.Flat := by decide
  have hfs : ∀ e ∈ [Error.joined [Cause.lock .conflict, Cause.notInTransaction]], e.Flat := by
    decide
  obtain ⟨-, -, -, -, happend, -, -, hretryable, hflat⟩ :=
    errors_join_and_stay_flat hes hfs (hdisowned.perform (.resume 1))
  exact ⟨_, htold, hflat _ (.told htold), rfl, happend, rfl, hretryable.trans rfl⟩

end Database

end TxStore
