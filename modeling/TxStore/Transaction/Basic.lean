import TxStore.Error
import TxStore.Transaction.WriteBuffer

/-!
# The life of a transaction

A transaction is active until it is committed or aborted, and ready when that is over. Operations
register with an active transaction and leave it when they end; whoever finishes the transaction
waits until none is in flight. A call that has to wait is parked, and the operation that leaves
last hands out all parked calls to be woken.
-/

namespace TxStore

/-- The phase of a transaction's life. -/
inductive Phase where
  /-- Operations may register. -/
  | active
  /-- A commit has begun. -/
  | committing
  /-- A rollback or an abort has begun. -/
  | aborting
  /-- The transaction is over. -/
  | ready
  deriving DecidableEq, Inhabited

/-- How a transaction came about. -/
inductive Origin where
  /-- It was begun by its connection. -/
  | explicit
  /-- It was made for one operation, which commits it. -/
  | implicit
  deriving DecidableEq, Inhabited

namespace Phase

/-- The name of a phase. -/
def name : Phase → String
  | active => "active"
  | committing => "committing"
  | aborting => "aborting"
  | ready => "ready"

/-- Whether the transaction is being finished. -/
def isClosing : Phase → Bool
  | committing | aborting => true
  | active | ready => false

end Phase

/-- The name of an origin. -/
def Origin.name : Origin → String
  | explicit => "explicit"
  | implicit => "implicit"

/-- A transaction of one connection. -/
structure Transaction where
  /-- Its identifier. -/
  id : TransactionId
  /-- Its connection. -/
  connection : ConnectionId
  /-- When it started. -/
  timestamp : Timestamp
  /-- How it came about. -/
  origin : Origin
  /-- Where it is in its life. -/
  phase : Phase
  /-- The number of operations in flight. -/
  inFlight : Nat
  /-- The calls that wait until no operation is in flight. -/
  parked : List Nat
  /-- The writes to be applied by a commit. -/
  log : WriteBuffer
  deriving DecidableEq, Inhabited

namespace Transaction

/-- A transaction at its start. -/
def new (id : TransactionId) (connection : ConnectionId) (timestamp : Timestamp)
    (origin : Origin) : Transaction where
  id := id
  connection := connection
  timestamp := timestamp
  origin := origin
  phase := .active
  inFlight := 0
  parked := []
  log := .empty

/-- The transaction as the lock manager knows it. -/
def holder (t : Transaction) : Lock.Holder := ⟨t.id, t.timestamp⟩

/-- Registers an operation, which only an active transaction accepts. -/
def register (t : Transaction) : Except Cause Transaction :=
  if t.phase = .active then .ok { t with inFlight := t.inFlight + 1 } else .error .terminalState

/-- Lets an operation leave. If it was the last in flight, all parked calls are handed out. -/
def deregister (t : Transaction) : Transaction × List Nat :=
  if t.inFlight = 1 then ({ t with inFlight := 0, parked := [] }, t.parked)
  else ({ t with inFlight := t.inFlight - 1 }, [])

/-- Moves an active transaction on; of several callers only the first succeeds. -/
def turnTo (t : Transaction) (target : Phase) : Except Cause Transaction :=
  if t.phase = .active then .ok { t with phase := target } else .error .terminalState

/-- Whether no operation is in flight; if one is, the call is parked. A parked call keeps its
place. -/
def awaitIdle (t : Transaction) (call : Nat) : Transaction × Bool :=
  if t.inFlight = 0 then (t, true)
  else if call ∈ t.parked then (t, false)
  else ({ t with parked := t.parked ++ [call] }, false)

/-- Ends the transaction's life. -/
def finish (t : Transaction) : Transaction :=
  { t with phase := .ready }

end Transaction

end TxStore
