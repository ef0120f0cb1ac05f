import TxStore.Database.Basic

/-!
# Finishing transactions

A transaction is finished by the first of its callers that moves it out of its active life. A commit
waits until no operation is in flight, applies the buffered writes in the background, and only then
releases the locks. A rollback, and an abort after a lost lock, releases the locks first, so that
the transaction's own queued requests end, and then waits. An explicit transaction that is aborted
is replaced by a fresh one, so that its connection stays in a transaction.
-/

namespace TxStore.Database

variable {σ : Type}

/-- Applies one write to a table. -/
def applyWrite [Backend σ] (table : σ) (entry : WriteEntry) : Outcome σ :=
  match entry.write with
  | .put value => Backend.put table entry.key value
  | .delete => Backend.delete table entry.key

/-- Looks up the table of each write. -/
def plan (db : Database σ) (entries : List WriteEntry) : List PlannedWrite :=
  entries.map fun e => ⟨e, (db.registry.get? e.table).map Registered.table⟩

/-- Applies writes one after the other. A write that fails changes nothing, and its cause is reported;
a table that breaks off stops the rest, and then there is only the text of that. -/
def applyPlan [Backend σ] (store : Array σ) :
    List PlannedWrite → Array σ × Except String (List Cause)
  | [] => (store, .ok [])
  | w :: rest =>
    match w.table.bind fun ref => store[ref]?.map fun t => (ref, t) with
    | none =>
      let (store, report) := applyPlan store rest
      (store, report.map (.tableNotFound w.entry.table.display :: ·))
    | some (ref, table) =>
      match applyWrite table w.entry with
      | .done table => applyPlan (store.setIfInBounds ref table) rest
      | .failed e =>
        let (store, report) := applyPlan store rest
        (store, report.map (.table e :: ·))
      | .broken text => (store, .error text)

/-- The causes that a commit reports of its writes. A break off is the only one then, since nobody
knows which writes came before it. -/
def causesOf : Except String (List Cause) → List Cause
  | .ok causes => causes
  | .error text => [.taskFailed text]

/-- Applies the planned writes of a transaction in the background, all of them in one turn. What the
tasks of other clients do between two of the writes is taken to come before or after all of them:
whoever touches the same rows waits for the locks of the transaction, and calls on different rows
of a table do not depend on their order. -/
def apply [Backend σ] (db : Database σ) (i : TaskId) (t : TransactionId) (plan : List PlannedWrite)
    (result : Result) : Database σ :=
  let (store, report) := applyPlan db.store plan
  let errors := (causesOf report).map Error.one
  (({ db with store := store }.recordCommit t plan).setStand i (.applied errors result)).wake [i]

/-- Ends a commit whose writes have been applied: releases the locks, separates the transaction
from its connection and reports the errors. -/
def endCommit (db : Database σ) (i : TaskId) (c : ConnectionId) (t : TransactionId)
    (errors : List Error) (result : Result) : Database σ :=
  ((((db.releaseLocks t).forgetLocks t).separate c t).retire t).finish i (result.join errors)

/-- Puts a fresh transaction in the place of `t`, if its connection is still attached to it. -/
def replace (db : Database σ) (c : ConnectionId) (t : TransactionId) :
    Database σ × List Error :=
  if db.attached.get? c = some t then
    match db.directory.clearLog c with
    | .error e => (db, [.one e])
    | .ok d =>
      let (ts, clock) := db.clock.read
      match d.restart c ts with
      | .error e => ({ db with directory := d, clock := clock }, [.one e])
      | .ok (fresh, d) =>
        ({ db with
            directory := d
            clock := clock
            attached := db.attached.insert c fresh }, [])
  else (db, [])

/-- Ends a rollback or an abort when no operation is in flight. -/
def endDiscard (db : Database σ) (i : TaskId) (c : ConnectionId) (t : TransactionId)
    (restart : Bool) (result : Result) : Database σ :=
  let db := db.forgetLocks t
  if restart then
    let (db, errors) := db.replace c t
    (db.retire t).finish i (result.join errors)
  else ((db.separate c t).retire t).finish i result

/-- Goes on when no operation of the transaction is in flight. -/
def afterDrain (db : Database σ) (i : TaskId) (c : ConnectionId) (t : TransactionId)
    (purpose : Purpose) (result : Result) : Database σ :=
  match purpose with
  | .discard restart => db.endDiscard i c t restart result
  | .commit =>
    let entries := ((db.directory.find? t).map fun txn => txn.log.entries).getD []
    match db.plan entries with
    | [] => (db.recordCommit t []).endCommit i c t [] result
    | plan => (db.setStand i (.applying plan result)).wake [i]

/-- Waits until no operation of the transaction is in flight. -/
def drain (db : Database σ) (i : TaskId) (c : ConnectionId) (t : TransactionId)
    (purpose : Purpose) (result : Result) : Database σ :=
  match db.directory.find? t with
  | none => db
  | some txn =>
    match txn.awaitIdle i with
    | (_, true) => db.afterDrain i c t purpose result
    | (txn, false) =>
      (db.withDirectory (db.directory.set t txn)).setStand i (.draining purpose result)

/-- Moves a transaction out of its active life. -/
def turnTo (db : Database σ) (t : TransactionId) (target : Phase) :
    Except Cause (Database σ) :=
  match db.directory.find? t with
  | none => .error .notInTransaction
  | some txn =>
    match txn.turnTo target with
    | .error e => .error e
    | .ok txn => .ok (db.withDirectory (db.directory.set t txn))

/-- Commits the transaction that a connection is attached to; if one is expected, only that one.
The errors are joined to the result that the caller has so far. -/
def commit (db : Database σ) (i : TaskId) (c : ConnectionId) (expected : Option TransactionId)
    (result : Result) : Database σ :=
  match db.attached.get? c with
  | none =>
    let cause := if expected.isSome then Cause.terminalState else .notInTransaction
    db.finish i (result.join [cause])
  | some t =>
    if expected.all (· = t) then
      match db.turnTo t .committing with
      | .error e => db.finish i (result.join [e])
      | .ok db => db.drain i c t .commit result
    else db.finish i (result.join [Cause.terminalState])

/-- Releases the locks of a transaction that is being aborted, and drains it. -/
def discard (db : Database σ) (i : TaskId) (c : ConnectionId) (t : TransactionId)
    (restart : Bool) (result : Result) : Database σ :=
  (db.releaseLocks t).drain i c t (.discard restart) result

/-- Rolls back the transaction that a connection is attached to. -/
def rollback (db : Database σ) (i : TaskId) (c : ConnectionId) : Database σ :=
  match db.attached.get? c with
  | none => db.finish i (.error Cause.notInTransaction)
  | some t =>
    match db.turnTo t .aborting with
    | .error e => db.finish i (.error (.one e))
    | .ok db => db.discard i c t false (.ok none)

/-- Rolls back if the connection is attached to a transaction. -/
def disconnect (db : Database σ) (i : TaskId) (c : ConnectionId) : Database σ :=
  if db.attached.contains c then db.rollback i c else db.finish i (.ok none)

/-- Aborts a transaction after one of its operations was refused a lock. Nothing is aborted if the
transaction is no longer its connection's or is being finished already. -/
def abort (db : Database σ) (i : TaskId) (c : ConnectionId) (t : TransactionId)
    (why : Lock.Refusal) : Database σ :=
  let result : Result := .error (Cause.lock why)
  if db.attached.get? c = some t then
    match db.turnTo t .aborting with
    | .error _ => db.finish i result
    | .ok db =>
      let restart := (db.directory.find? t).any fun txn => txn.origin = .explicit
      db.discard i c t restart result
  else db.finish i result

end TxStore.Database
