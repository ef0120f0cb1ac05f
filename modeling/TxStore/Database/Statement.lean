import TxStore.Database.Finish

/-!
# Running statements

A statement looks up its table, checks the kinds of its row and asks for the row's lock, always for
writing. With the lock it consults the writes that its transaction has buffered, and if there is
none for its row, it reads the row in the background. A write or delete ends by buffering. When the
statement has ended its operation leaves the transaction; a transaction that was made for it is then
committed, whether the statement succeeded or not.
-/

namespace TxStore.Database

variable {σ : Type} [Backend σ]

/-- How the statement of an operation ends. -/
inductive Ending where
  /-- It succeeds. -/
  | done (value : Option Value)
  /-- It fails, and the transaction stays usable. -/
  | failed (e : Error)
  /-- It does not get its lock. -/
  | refused (why : Lock.Refusal)
  /-- Its task breaks off with a text. -/
  | broken (text : String)

/-- Lets an operation leave its transaction when its statement has ended, and finishes the
transaction if that is up to the operation. -/
def conclude (db : Database σ) (i : TaskId) (op : Operation) (t : TransactionId)
    (ending : Ending) : Database σ :=
  let db := db.leave t
  let close (result : Result) : Database σ :=
    if op.opened then db.commit i op.connection (some t) result else db.finish i result
  match ending with
  | .done value => close (.ok value)
  | .failed e => close (.error e)
  | .refused .released => db.finish i (.error Cause.terminalState)
  | .refused why => db.abort i op.connection t why
  | .broken text => db.finish i (.error (Cause.taskFailed text))

/-- Adds a write to the buffer of a transaction. -/
def buffer (db : Database σ) (t : TransactionId) (target : Target) (key : Value) (write : Write) :
    Database σ :=
  db.withDirectory (db.directory.modifyLog t fun log => log.append target.id key write)

/-- The newest buffered write of a row. -/
def buffered? (db : Database σ) (t : TransactionId) (target : Target) (key : Value) :
    Option Write :=
  (db.directory.find? t).bind fun txn => txn.log.newest? target.id key

/-- Goes on with the lock of the row. -/
def locked (db : Database σ) (i : TaskId) (op : Operation) (t : TransactionId) (s : Statement)
    (target : Target) : Database σ :=
  match s with
  | .put _ key value => (db.buffer t target key (.put value)).conclude i op t (.done none)
  | .get _ key =>
    match db.buffered? t target key with
    | some (.put value) => db.conclude i op t (.done (some value))
    | some .delete => db.conclude i op t (.failed (.one (.table (.keyNotFound key))))
    | none => (db.setStand i (.reading target)).wake [i]
  | .delete _ key =>
    match db.buffered? t target key with
    | some (.put _) => (db.buffer t target key .delete).conclude i op t (.done none)
    | some .delete => db.conclude i op t (.failed (.one (.table (.keyNotFound key))))
    | none => (db.setStand i (.reading target)).wake [i]

/-- Goes on with the row as it was read. -/
def fetched (db : Database σ) (i : TaskId) (op : Operation) (t : TransactionId) (s : Statement)
    (target : Target) (row : Outcome Value) : Database σ :=
  match row with
  | .failed e => db.conclude i op t (.failed (.one (.table e)))
  | .broken text => db.conclude i op t (.failed (.one (.taskFailed text)))
  | .done value =>
    match s with
    | .delete _ key => (db.buffer t target key .delete).conclude i op t (.done none)
    | .get _ _ | .put _ _ _ => db.conclude i op t (.done (some value))

/-- Goes on with the lock, without it, or waiting for it. -/
def acquired (db : Database σ) (i : TaskId) (op : Operation) (t : TransactionId) (s : Statement)
    (target : Target) : Lock.Manager × Lock.Acquisition → Database σ
  | (m, .answered (.ok ())) => (db.withLocks m).locked i op t s target
  | (m, .answered (.error why)) => (db.withLocks m).conclude i op t (.refused why)
  | (m, .waiting w) => (db.setStand i (.locking target w)).withLocks m

/-- Begins a statement: looks up the table, checks the row and asks for the lock. -/
def begin (db : Database σ) (i : TaskId) (op : Operation) (me : Lock.Holder) (s : Statement) :
    Database σ :=
  match db.registry.lookUp s.table with
  | .error e => db.conclude i op me.txn (.failed (.one e))
  | .ok (id, entry) =>
    match db.store[entry.table]? with
    | none => db.conclude i op me.txn (.failed (.one (.tableNotFound s.table)))
    | some table =>
      match Backend.validate table s.key s.value? with
      | .failed e => db.conclude i op me.txn (.failed (.one (.table e)))
      | .broken text => db.conclude i op me.txn (.broken text)
      | .done () =>
        db.acquired i op me.txn s ⟨id, entry.table⟩
          (db.locks.acquire db.now .write me ⟨id, s.key⟩)

/-- Reads the row of a statement in the background. -/
def readRow (db : Database σ) (target : Target) (key : Value) : Outcome Value :=
  match db.store[target.table]? with
  | none => .failed (.keyNotFound key)
  | some table => Backend.get table key

end TxStore.Database
