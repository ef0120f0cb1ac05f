import TxStore.Database.Run
import TxStore.Table.Basic

/-!
# A workload that counts

Several workers, each with a connection of its own, count up one row. An increment is an explicit
transaction that reads the row, writes the next number and commits. A worker that loses a lock tries
again, in the transaction that the database has restarted for it if there is one, up to a number of
times. Workers and the tasks of the database take turns; which of them is next is left open by
`Crew.turn`, and `Crew.work` lets the first to become ready go first. How fast they are is told by
the commits per second, in double precision; a run that took no time has none.
-/

namespace TxStore

/-- What the workers are to do. -/
structure CounterPlan where
  /-- The number of workers. -/
  workers : Nat
  /-- The number of increments of each worker. -/
  iterations : Nat
  /-- The table of the row. -/
  table : String
  /-- The key of the row. -/
  key : Int64
  /-- How often an increment may be tried again. -/
  maxRetries : Nat

/-- Where a worker stands. -/
inductive WorkerStand where
  /-- It is about to try an increment, or to leave if none is left. -/
  | idle
  /-- It waits for the row. -/
  | reading (task : TaskId)
  /-- It waits for its write. -/
  | writing (task : TaskId)
  /-- It waits for its commit. -/
  | committing (task : TaskId)
  /-- It waits for its rollback, to give up with an error. -/
  | rollingBack (task : TaskId) (e : Error)
  /-- It waits until it is disconnected. -/
  | leaving (task : TaskId)
  /-- It is done. -/
  | ended

/-- A worker. -/
structure Worker where
  /-- Its connection. -/
  connection : ConnectionId
  /-- How many increments are left. -/
  left : Nat
  /-- How often the present increment has been tried again. -/
  retries : Nat
  /-- Where it stands. -/
  stand : WorkerStand

/-- The task that a worker waits for. -/
def Worker.awaits (w : Worker) : Option TaskId :=
  match w.stand with
  | .reading i | .writing i | .committing i | .rollingBack i _ | .leaving i => some i
  | .idle | .ended => none

/-- Whoever takes a turn. -/
inductive Agent where
  /-- A worker. -/
  | worker (n : Nat)
  /-- A task of the database. -/
  | task (i : TaskId)
  deriving DecidableEq

/-- Workers on a database. -/
structure Crew where
  /-- The plan. -/
  plan : CounterPlan
  /-- The database. -/
  db : Database Table
  /-- The workers. -/
  workers : Array Worker
  /-- How workers have ended, in the order in which they did. -/
  ends : List (Except Error Nat)
  /-- Who can go on, first come first. -/
  line : List Agent

namespace Crew

/-- Sets a worker. -/
def setWorker (c : Crew) (n : Nat) (w : Worker) : Crew :=
  { c with workers := c.workers.setIfInBounds n w }

/-- Ends a worker. -/
def endWorker (c : Crew) (n : Nat) (w : Worker) (result : Except Error Nat) : Crew :=
  { c.setWorker n { w with stand := .ended } with ends := c.ends ++ [result] }

/-- Makes a call on a worker's connection, and lets the worker wait for it. -/
def call (c : Crew) (n : Nat) (w : Worker) (call : Call) (stand : TaskId → WorkerStand) : Crew :=
  let i := c.db.tasks.size
  { c with db := c.db.submit w.connection call }.setWorker n { w with stand := stand i }

/-- Meets an error: tries the increment again if that may help, else rolls back and gives up. -/
def fail (c : Crew) (n : Nat) (w : Worker) (e : Error) : Crew :=
  if e.isRetryable && w.retries < c.plan.maxRetries then
    { c.setWorker n { w with retries := w.retries + 1, stand := .idle } with
      line := c.line ++ [.worker n] }
  else if c.db.attached.contains w.connection then
    c.call n w .rollback fun i => .rollingBack i e
  else c.endWorker n w (.error e)

/-- Begins the next increment, in the open transaction if there is one; leaves if none is left. -/
def tryNext (c : Crew) (n : Nat) (w : Worker) : Crew :=
  if w.left = 0 then c.call n w .disconnect .leaving
  else
    let read := Call.statement (.get c.plan.table (.integer c.plan.key))
    if c.db.attached.contains w.connection then c.call n w read .reading
    else
      match c.db.beginTransaction w.connection with
      | (.error e, db) => { c with db := db }.fail n w (.one e)
      | (.ok _, db) => { c with db := db }.call n w read .reading

/-- The number after the one that was read; nothing readable counts as zero. -/
def next (read : Option Value) : Value :=
  .integer ((read.bind Value.integer?).getD 0 + 1)

/-- Goes on with the result that a worker has waited for. -/
def receive (c : Crew) (n : Nat) (w : Worker) (result : Result) : Crew :=
  match w.stand, result with
  | .reading _, .ok read =>
    c.call n w (.statement (.put c.plan.table (.integer c.plan.key) (next read))) .writing
  | .writing _, .ok _ => c.call n w .commit .committing
  | .committing _, .ok _ => c.tryNext n { w with left := w.left - 1, retries := 0 }
  | .reading _, .error e | .writing _, .error e | .committing _, .error e => c.fail n w e
  | .rollingBack _ e, _ => c.endWorker n w (.error e)
  | .leaving _, .ok _ => c.endWorker n w (.ok c.plan.iterations)
  | .leaving _, .error e => c.endWorker n w (.error e)
  | .idle, _ | .ended, _ => c

/-- Gives a worker or a task its turn. One that cannot go on stays as it is. -/
def turn (c : Crew) : Agent → Crew
  | .task i => { c with db := c.db.resume i }
  | .worker n =>
    match c.workers[n]? with
    | none => c
    | some w =>
      match w.stand, w.awaits.bind c.db.result? with
      | .idle, _ => c.tryNext n w
      | _, some result => c.receive n w result
      | _, none => c

/-- Puts in line the tasks that are ready and the workers whose wait is over. -/
def queueUp (c : Crew) : Crew :=
  let tasks := c.db.ready.map Agent.task
  let workers := (List.range c.workers.size).filterMap fun n =>
    if ((c.workers[n]?.bind Worker.awaits).bind c.db.result?).isSome then some (Agent.worker n)
    else none
  { c with line := c.line ++ (tasks ++ workers).filter fun a => a ∉ c.line }

/-- Lets whoever stands first take a turn, at most `fuel` times. -/
def work : (fuel : Nat) → Crew → Crew
  | 0, c => c
  | fuel + 1, c =>
    match c.line with
    | [] => c
    | a :: rest => work fuel ({ c with line := rest }.turn a).queueUp

/-- Opens the connections of the workers. -/
def launch (plan : CounterPlan) (db : Database Table) : Crew :=
  let start (c : Crew) (n : Nat) : Crew :=
    let (conn, db) := c.db.connect
    { c with
      db := db
      workers := c.workers.push ⟨conn, plan.iterations, 0, .idle⟩
      line := c.line ++ [.worker n] }
  (List.range plan.workers).foldl start ⟨plan, db, #[], [], []⟩

/-- The total of the increments, or the last error. -/
def total (ends : List (Except Error Nat)) : Except Error Nat :=
  ends.foldl (fun
    | .error e, .ok _ => .error e
    | _, .error e => .error e
    | .ok n, .ok m => .ok (n + m)) (.ok 0)

end Crew

/-- What a run of the workload has found. -/
structure CounterReport where
  /-- The increments that were committed. -/
  committed : Nat
  /-- The number in the row at the end. -/
  final : Int64
  deriving DecidableEq

namespace CounterPlan

/-- The number of increments that a run should commit. -/
def expected (p : CounterPlan) : Nat :=
  p.workers * p.iterations

/-- Makes the table if it is missing. -/
def makeTable (p : CounterPlan) (db : Database Table) : Except Error (Database Table) :=
  if p.table ∈ db.registry.names then .ok db
  else
    match MemoryTable.new p.table .integer .integer with
    | .error e => .error (.one (.table e))
    | .ok t =>
      match db.createTable (.memory t) with
      | (.error e, _) => .error (.one e)
      | (.ok _, db) => .ok db

/-- What a call has yielded; a call that never ends has failed. -/
def yielded (answer : Option Result) : Result :=
  answer.getD (.error (Cause.taskFailed "never ended"))

/-- Makes the table if it is missing, and sets the row to zero. -/
def prepare (p : CounterPlan) (db : Database Table) :
    Except Error (ConnectionId × Database Table) := do
  let (setup, db) := db.connect
  let db ← p.makeTable db
  let (answer, db) := db.call setup (.statement (.put p.table (.integer p.key) (.integer 0)))
  let _ ← yielded answer
  return (setup, db)

/-- Reads the row at the end and leaves. -/
def conclude (p : CounterPlan) (setup : ConnectionId) (committed : Nat) (db : Database Table) :
    Except Error CounterReport := do
  let (answer, db) := db.call setup (.statement (.get p.table (.integer p.key)))
  let read ← yielded answer
  let _ ← yielded (db.call setup .disconnect).1
  return ⟨committed, (read.bind Value.integer?).getD 0⟩

/-- A bound on the turns of a run: each try of an increment takes fewer than forty. -/
def turns (p : CounterPlan) : Nat :=
  40 * (p.workers + 1) * (p.iterations + 1) * (p.maxRetries + 1)

/-- Runs the workload and reads the row at the end. -/
def run (p : CounterPlan) (db : Database Table) : Except Error CounterReport := do
  let (setup, db) ← p.prepare db
  let crew := Crew.work p.turns (Crew.launch p db).queueUp
  p.conclude setup (← Crew.total crew.ends) crew.db

end CounterPlan

/-! ## Throughput -/

/-- The length of a span of whole seconds and nanoseconds, in seconds. Nanoseconds beyond a second
count as seconds before either is rounded. -/
def secondsOf (secs : UInt64) (nanos : UInt32) : Float :=
  let whole := secs.toNat + nanos.toNat / 1000000000
  (UInt64.ofNat whole).toFloat + (nanos % 1000000000).toFloat / 1000000000.0

/-- Commits per second. -/
def commitsPerSecond (committed : UInt64) (secs : UInt64) (nanos : UInt32) : Float :=
  let seconds := secondsOf secs nanos
  if seconds > 0.0 then committed.toFloat / seconds else 0.0

end TxStore
