import TxStore.Clock
import TxStore.Duration
import TxStore.Lock.Request
import TxStore.Registry
import TxStore.Table.Backend
import TxStore.Transaction.Directory

/-!
# The state of a database

A database holds the tables, the locks, the transactions and the tasks that run on it. Every call of
a client is a task. A task runs until it must wait and later goes on from the state in which it
stopped; between two such turns other tasks may run. Tasks that can go on stand in line. The
functions of this module are the small changes from which the turns are built. The commits are kept
in the order in which they were applied, which is the order that explains what each transaction saw.
-/

namespace TxStore

/-- The settings of a database. -/
structure Config where
  /-- Whether an operation outside a transaction makes one for itself. -/
  implicitTransactions : Bool
  /-- How long a lock request may wait. -/
  lockTimeout : Option Duration
  deriving DecidableEq

namespace Config

/-- Implicit transactions, and no limit to waiting. -/
def standard : Config := ⟨true, none⟩

/-- The standard settings serve as the default. -/
instance : Inhabited Config := ⟨standard⟩

/-- The text of the settings in structural listings. -/
def describe (c : Config) : String :=
  "Config \x7b implicit_transactions: " ++ (if c.implicitTransactions then "true" else "false") ++
    ", lock_timeout: " ++ Duration.describe? c.lockTimeout ++ " \x7d"

end Config

/-- The place of a table among all tables ever made for a database. -/
abbrev TableRef := Nat

/-- The number of a task. -/
abbrev TaskId := Nat

/-- What an operation does to one row. -/
inductive Statement where
  /-- Insert or overwrite the row. -/
  | put (table : String) (key value : Value)
  /-- Read the row. -/
  | get (table : String) (key : Value)
  /-- Remove the row, which must be there. -/
  | delete (table : String) (key : Value)
  deriving DecidableEq

namespace Statement

/-- The name of the table. -/
def table : Statement → String
  | put t _ _ | get t _ | delete t _ => t

/-- The row key. -/
def key : Statement → Value
  | put _ k _ | get _ k | delete _ k => k

/-- The value to be written, if the statement writes one. -/
def value? : Statement → Option Value
  | put _ _ v => some v
  | get _ _ | delete _ _ => none

end Statement

/-- What a client asks of its connection. -/
inductive Call where
  /-- Work on a row. -/
  | statement (s : Statement)
  /-- Apply the writes of the transaction and end it. -/
  | commit
  /-- Drop the writes of the transaction and end it. -/
  | rollback
  /-- Roll back if there is a transaction. -/
  | disconnect
  deriving DecidableEq

/-- What a call yields: a value for a read, nothing for any other call, or an error. -/
abbrev Result := Except Error (Option Value)

/-- The result of a call after later errors have been joined to it. -/
def Result.join (r : Result) (later : List Error) : Result :=
  match r, Error.join later with
  | .ok v, none => .ok v
  | .ok _, some e => .error e
  | .error e, later => .error (e.followedBy later)

/-- A table that has been looked up. -/
structure Target where
  /-- Its identifier. -/
  id : TableId
  /-- Its place. -/
  table : TableRef
  deriving DecidableEq

/-- How a transaction is to be finished. -/
inductive Purpose where
  /-- Apply its writes. -/
  | commit
  /-- Drop its writes, and put a fresh transaction in its place if asked to. -/
  | discard (restart : Bool)
  deriving DecidableEq

/-- A write that is about to be applied, with the table registered for it. -/
structure PlannedWrite where
  /-- The write. -/
  entry : WriteEntry
  /-- Where to, if the table is registered. -/
  table : Option TableRef
  deriving DecidableEq

/-- A transaction whose writes were applied. -/
structure Commit where
  /-- The transaction. -/
  txn : TransactionId
  /-- Its writes. -/
  plan : List PlannedWrite
  deriving DecidableEq

/-- Where an operation stands between two turns. -/
inductive Stand where
  /-- It has registered and not begun. -/
  | issued
  /-- It waits in a lock queue. -/
  | locking (target : Target) (w : Lock.Waiting)
  /-- Its row is to be read in the background. -/
  | reading (target : Target)
  /-- Its row has been read. -/
  | fetched (target : Target) (row : Outcome Value)
  /-- It finishes its transaction and waits until no operation of it is in flight. -/
  | draining (purpose : Purpose) (result : Result)
  /-- Its transaction's writes are to be applied in the background. -/
  | applying (plan : List PlannedWrite) (result : Result)
  /-- Its transaction's writes have been applied, with these errors. -/
  | applied (errors : List Error) (result : Result)
  /-- It is over. -/
  | finished (result : Result)

/-- A call that was made on a connection. -/
structure Operation where
  /-- The connection. -/
  connection : ConnectionId
  /-- What was asked. -/
  call : Call
  /-- The transaction it belongs to, or tries to finish. -/
  holder : Option Lock.Holder
  /-- Whether its transaction was made for it. -/
  opened : Bool
  /-- Where it stands. -/
  stand : Stand

/-- What runs on a database: calls made on connections, and bare requests for locks by those who
coordinate among themselves through the lock manager. -/
inductive Task where
  /-- A call on a connection. -/
  | operation (op : Operation)
  /-- A bare lock request. -/
  | request (r : Lock.Request)

namespace Task

/-- Whether a task is queued for a lock under this ticket. -/
def waitsOn (ticket : Lock.Ticket) : Task → Bool
  | operation op =>
    match op.stand with
    | .locking _ w => w.ticket = ticket
    | _ => false
  | request r => r.waitsOn ticket

/-- The place of a task in a lock queue. -/
def waiting? : Task → Option Lock.Waiting
  | operation op =>
    match op.stand with
    | .locking _ w => some w
    | _ => none
  | request r =>
    match r.stage with
    | .waiting w => some w
    | _ => none

/-- The result of a task that is over. -/
def result? : Task → Option Result
  | operation op =>
    match op.stand with
    | .finished r => some r
    | _ => none
  | request r =>
    match r.stage with
    | .answered (.ok ()) => some (.ok none)
    | .answered (.error why) => some (.error (Cause.lock why))
    | _ => none

end Task

/-- A database over tables of type `σ`. -/
structure Database (σ : Type) where
  /-- The settings. -/
  config : Config
  /-- Where timestamps come from. Any clock will do; only that a fresh transaction is younger than
  all others takes a clock whose readings increase. -/
  clock : Clock
  /-- All tables ever made, registered or not, in the order in which they were made. -/
  store : Array σ
  /-- The registered tables. -/
  registry : Registry TableRef
  /-- The locks. -/
  locks : Lock.Manager
  /-- The transactions. -/
  directory : Directory
  /-- The transaction that each connection is attached to. -/
  attached : Dict ConnectionId TransactionId
  /-- The commits, in the order in which their writes were applied. -/
  commits : List Commit
  /-- The number of connections; they are numbered from zero. -/
  connections : Nat
  /-- All tasks ever made, in order. -/
  tasks : Array Task
  /-- The tasks that can go on, first come first. -/
  ready : List TaskId
  /-- The present instant. -/
  now : Duration

namespace Database

variable {σ : Type}

/-- A database without tables and connections. -/
def new (config : Config) (clock : Clock) (hasher : Hasher) : Database σ where
  config := config
  clock := clock
  store := #[]
  registry := .empty hasher
  locks := .new config.lockTimeout
  directory := .empty
  attached := ∅
  commits := []
  connections := 0
  tasks := #[]
  ready := []
  now := ⟨0⟩

/-- Unless said otherwise a database has the standard settings and counts its transactions. -/
instance : Inhabited (Database σ) := ⟨new .standard default .fnv1a⟩

/-- Puts tasks in line, unless they stand there. -/
def wake (db : Database σ) (woken : List TaskId) : Database σ :=
  { db with ready := db.ready ++ woken.filter fun i => i ∉ db.ready }

/-- Takes over changed locks, and wakes the tasks whose requests have ended. -/
def withLocks (db : Database σ) (m : Lock.Manager) : Database σ :=
  let woken := (m.endedSince db.locks).filterMap fun ticket =>
    db.tasks.findIdx? fun t => t.waitsOn ticket
  { db with locks := m }.wake woken

/-- Takes over a changed directory. -/
def withDirectory (db : Database σ) (d : Directory) : Database σ :=
  { db with directory := d }

/-- Sets where an operation stands. -/
def setStand (db : Database σ) (i : TaskId) (stand : Stand) : Database σ :=
  match db.tasks[i]? with
  | some (.operation op) =>
    { db with tasks := db.tasks.setIfInBounds i (.operation { op with stand := stand }) }
  | _ => db

/-- Ends an operation. -/
def finish (db : Database σ) (i : TaskId) (result : Result) : Database σ :=
  db.setStand i (.finished result)

/-- Lets an operation leave its transaction, and wakes whoever waits for the last one to leave. -/
def leave (db : Database σ) (t : TransactionId) : Database σ :=
  match db.directory.find? t with
  | none => db
  | some txn =>
    let (txn, woken) := txn.deregister
    (db.withDirectory (db.directory.set t txn)).wake woken

/-- Releases the locks of a transaction. -/
def releaseLocks (db : Database σ) (t : TransactionId) : Database σ :=
  db.withLocks (db.locks.release t)

/-- Forgets that a transaction has released its locks. -/
def forgetLocks (db : Database σ) (t : TransactionId) : Database σ :=
  { db with locks := db.locks.forget t }

/-- Separates a transaction from its connection, where it still is the connection's. -/
def separate (db : Database σ) (c : ConnectionId) (t : TransactionId) : Database σ :=
  let db :=
    if db.attached.get? c = some t then { db with attached := db.attached.erase c } else db
  if db.directory.current.get? c = some t then
    match db.directory.stop c with
    | .ok (_, d) => db.withDirectory d
    | .error _ => db
  else db

/-- Notes that the writes of a transaction are applied. -/
def recordCommit (db : Database σ) (t : TransactionId) (plan : List PlannedWrite) : Database σ :=
  { db with commits := db.commits ++ [⟨t, plan⟩] }

/-- Ends a transaction's life. -/
def retire (db : Database σ) (t : TransactionId) : Database σ :=
  db.withDirectory (db.directory.modify t Transaction.finish)

end Database

end TxStore
