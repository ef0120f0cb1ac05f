import TxStore.Database.Statement

/-!
# Running a database

A client's call becomes a task. A statement registers with its connection's transaction when it is
issued, and makes an implicit transaction if there is none; its body runs later. A commit, a
rollback and a disconnect run at once, up to their first wait. `resume` gives one task one turn, in
which it goes on to its next wait; giving a turn to a task that cannot go on changes nothing but the
line. `settle` runs the tasks in line, the first to become ready first, until none is left.
-/

namespace TxStore.Database

variable {σ : Type}

/-- Opens a connection and says which number it has. -/
def connect (db : Database σ) : ConnectionId × Database σ :=
  (db.connections, { db with connections := db.connections + 1 })

/-- Registers a table under its name. The table is kept even if it is refused. -/
def createTable [Backend σ] (db : Database σ) (table : σ) :
    Except Cause TableId × Database σ :=
  let ref := db.store.size
  let db := { db with store := db.store.push table }
  match db.registry.create (Backend.name table) ref with
  | .error e => (.error e, db)
  | .ok (id, r) => (.ok id, { db with registry := r })

/-- Takes a table out of the registry. -/
def dropTable (db : Database σ) (name : String) : Except Cause Unit × Database σ :=
  match db.registry.drop name with
  | .error e => (.error e, db)
  | .ok (_, r) => (.ok (), { db with registry := r })

/-- Starts a transaction on a connection and attaches the connection to it. -/
def start (db : Database σ) (c : ConnectionId) (origin : Origin) :
    Except Cause TransactionId × Database σ :=
  let (ts, clock) := db.clock.read
  let db := { db with clock := clock }
  match db.directory.start c ts origin with
  | .error e => (.error e, db)
  | .ok (t, d) => (.ok t, { db with directory := d, attached := db.attached.insert c t })

/-- Begins an explicit transaction on a connection that is attached to none. -/
def beginTransaction (db : Database σ) (c : ConnectionId) :
    Except Cause TransactionId × Database σ :=
  if db.attached.contains c then (.error .inTransaction, db) else db.start c .explicit

/-- The transaction that a connection is attached to. If there is none, an implicit one is made,
where the settings allow it. Says also whether it was made. -/
def attach (db : Database σ) (c : ConnectionId) :
    Except Cause (TransactionId × Bool) × Database σ :=
  match db.attached.get? c with
  | some t => (.ok (t, false), db)
  | none =>
    if db.config.implicitTransactions then
      match db.start c .implicit with
      | (.error e, db) => (.error e, db)
      | (.ok t, db) => (.ok (t, true), db)
    else (.error .notInTransaction, db)

/-- Registers an operation with a transaction, which must be active. Says how the lock manager knows
the transaction. -/
def enroll (db : Database σ) (t : TransactionId) : Except Cause (Lock.Holder × Database σ) :=
  match db.directory.find? t with
  | none => .error .notInTransaction
  | some txn =>
    match txn.register with
    | .error e => .error e
    | .ok txn => .ok (txn.holder, db.withDirectory (db.directory.set t txn))

/-- Registers an operation with the transaction of its connection, which is made if need be. Says
which transaction it is and whether it was made. -/
def register (db : Database σ) (c : ConnectionId) :
    Except Cause (Lock.Holder × Bool) × Database σ :=
  match db.attach c with
  | (.error e, db) => (.error e, db)
  | (.ok (t, opened), db) =>
    match db.enroll t with
    | .error e => (.error e, db)
    | .ok (me, db) => (.ok (me, opened), db)

/-- Adds a task. -/
def push (db : Database σ) (task : Task) : Database σ :=
  { db with tasks := db.tasks.push task }

/-- The transaction that a connection is attached to, as the lock manager knows it. -/
def attachedHolder (db : Database σ) (c : ConnectionId) : Option Lock.Holder :=
  ((db.attached.get? c).bind db.directory.find?).map Transaction.holder

/-- Adds the task of a call that finishes the transaction its connection is attached to. -/
def issue (db : Database σ) (c : ConnectionId) (call : Call) : Database σ :=
  db.push (.operation ⟨c, call, db.attachedHolder c, false, .issued⟩)

/-- Makes a call on a connection. The new task has the next number. -/
def submit (db : Database σ) (c : ConnectionId) (call : Call) : Database σ :=
  let i := db.tasks.size
  match call with
  | .statement _ =>
    match db.register c with
    | (.error e, db) =>
      db.push (.operation ⟨c, call, none, false, .finished (.error (.one e))⟩)
    | (.ok (me, opened), db) =>
      (db.push (.operation ⟨c, call, some me, opened, .issued⟩)).wake [i]
  | .commit => (db.issue c call).commit i c none (.ok none)
  | .rollback => (db.issue c call).rollback i c
  | .disconnect => (db.issue c call).disconnect i c

/-- Makes a bare request for a lock. The new task has the next number. -/
def requestLock (db : Database σ) (mode : Lock.Mode) (holder : Lock.Holder) (key : Lock.Key) :
    Database σ :=
  (db.push (.request ⟨mode, holder, key, .issued⟩)).wake [db.tasks.size]

/-- Gives an operation of a transaction its turn. -/
def resumeOperation [Backend σ] (db : Database σ) (i : TaskId) (op : Operation)
    (me : Lock.Holder) : Database σ :=
  match op.stand, op.call with
  | .issued, .statement s => db.begin i op me s
  | .locking target w, .statement s =>
    db.acquired i op me.txn s target (db.locks.poll db.now w)
  | .reading target, .statement s =>
    (db.setStand i (.fetched target (db.readRow target s.key))).wake [i]
  | .fetched target row, .statement s => db.fetched i op me.txn s target row
  | .draining purpose result, _ => db.drain i op.connection me.txn purpose result
  | .applying plan result, _ => db.apply i me.txn plan result
  | .applied errors result, _ => db.endCommit i op.connection me.txn errors result
  | _, _ => db

/-- Gives a task its turn: it goes on to its next wait. -/
def resume [Backend σ] (db : Database σ) (i : TaskId) : Database σ :=
  let db : Database σ := { db with ready := db.ready.erase i }
  match db.tasks[i]? with
  | none => db
  | some (.operation op) =>
    match op.holder with
    | none => db
    | some me => db.resumeOperation i op me
  | some (.request r) =>
    let (m, stage) := r.run db.locks db.now
    { db with tasks := db.tasks.setIfInBounds i (.request { r with stage := stage }) }.withLocks m

/-- Runs the line for at most `fuel` turns. -/
def settleWithin [Backend σ] : (fuel : Nat) → Database σ → Database σ
  | 0, db => db
  | fuel + 1, db =>
    match db.ready with
    | [] => db
    | i :: _ => settleWithin fuel (db.resume i)

/-- Runs the line until it is empty. A task joins the line at most six times more: four times when
it hands work to the background or takes it back, once when its lock request has ended and once
when its transaction has no operation in flight. -/
def settle [Backend σ] (db : Database σ) : Database σ :=
  db.settleWithin (db.ready.length + 6 * db.tasks.size)

/-- The deadlines of the tasks in lock queues. -/
def deadlines (db : Database σ) : List Lock.Deadline :=
  (List.range db.tasks.size).filterMap fun i =>
    (db.tasks[i]?.bind Task.waiting?).bind fun w => w.deadline.map fun d => ⟨d, w.ticket, i⟩

/-- Moves the present on to an instant; it never moves back. -/
def reach (db : Database σ) (instant : Duration) : Database σ :=
  { db with now := if db.now.nanos ≤ instant.nanos then instant else db.now }

/-- Lets the deadlines up to an instant pass, from one instant to the next, and settles the database
after each. The tasks whose deadline is the same wake together, in the order in which they were
queued. At most `fuel` instants pass. -/
def passDeadlines [Backend σ] : (fuel : Nat) → (limit : Duration) → Database σ → Database σ
  | 0, _, db => db
  | fuel + 1, limit, db =>
    match Lock.Deadline.earliest? limit db.deadlines with
    | none => db
    | some instant =>
      passDeadlines fuel limit
        ((db.reach instant).wake (Lock.Deadline.callersAt instant db.deadlines)).settle

/-- Lets time pass. What can go on goes on before the time moves, so that a lock request has its
deadline from the instant at which it was issued. Each task has at most one deadline. -/
def advance [Backend σ] (db : Database σ) (span : Duration) : Database σ :=
  let target : Duration := ⟨db.now.nanos + span.nanos⟩
  (db.settle.passDeadlines db.tasks.size target).reach target

/-- The result of a task that is over. -/
def result? (db : Database σ) (i : TaskId) : Option Result :=
  db.tasks[i]?.bind Task.result?

/-- Makes a call on a connection and runs the database until nothing is left to run. A call that is
still waiting then has no result. -/
def call [Backend σ] (db : Database σ) (c : ConnectionId) (call : Call) :
    Option Result × Database σ :=
  let settled := (db.submit c call).settle
  (settled.result? db.tasks.size, settled)

/-- The text of a database in structural listings. -/
def describe (db : Database σ) : String :=
  "AsyncDb \x7b config: " ++ db.config.describe ++ ", tables: " ++ db.registry.describe ++
    ", locks: " ++ db.locks.describe ++ ", txns: " ++ db.directory.describe ++ ", clock: " ++
    db.clock.describe ++ " \x7d"

end TxStore.Database
