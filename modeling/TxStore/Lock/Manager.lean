import TxStore.Dict
import TxStore.Duration
import TxStore.Lock.Queue
import TxStore.Value.Order

/-!
# The lock manager

The locks of all keys of all tables, with an index of the keys that each transaction has asked for,
so that releasing a transaction finds everything it holds or waits for. A transaction is marked as
released before its keys are visited, and from then on its requests are refused, until it is
forgotten. How each queued request ended is kept under its ticket.
-/

namespace TxStore.Lock

/-- What a lock stands for: a key of a table. -/
structure Key where
  /-- The table. -/
  table : TableId
  /-- The row key. -/
  row : Value
  deriving DecidableEq, Inhabited

/-- Why a request is not granted. -/
inductive Refusal where
  /-- It conflicts with a holder that is not younger. -/
  | conflict
  /-- Its transaction has released its locks. -/
  | released
  /-- Its deadline passed while it waited. -/
  | timeout
  deriving DecidableEq

/-- What a request is told at once. -/
inductive Reply where
  /-- It holds the key. -/
  | granted
  /-- It is turned away. -/
  | refused (why : Refusal)
  /-- It is queued under a ticket. -/
  | queued (ticket : Ticket)
  deriving DecidableEq

/-- What the end of a queued request means to its caller. -/
def Wake.answer : Wake → Except Refusal Unit
  | .granted => .ok ()
  | .conflict => .error .conflict
  | .timedOut => .error .timeout
  | .released | .abandoned => .error .released

/-- The locks of all keys. -/
structure Manager where
  /-- How long a request may stay queued. -/
  timeout : Option Duration
  /-- The lock of each key that was ever asked for. -/
  locks : Dict Key KeyLock
  /-- The keys each transaction has asked for, with the strongest mode. -/
  held : Dict TransactionId (Dict Key Mode)
  /-- The transactions that have released their locks and are not forgotten. -/
  released : List TransactionId
  /-- The next ticket. -/
  nextTicket : Ticket
  /-- How queued requests ended, in the order in which they did. -/
  resolved : List Resolution
  deriving DecidableEq

namespace Manager

/-- A manager without locks. -/
def new (timeout : Option Duration) : Manager where
  timeout := timeout
  locks := ∅
  held := ∅
  released := []
  nextTicket := 1
  resolved := []

/-- By default a manager has no locks and no limit to waiting. -/
instance : Inhabited Manager := ⟨new none⟩

/-- The lock of a key; one that was never asked for is free. -/
def lockOf (m : Manager) (k : Key) : KeyLock :=
  m.locks.getD k .free

/-- Whether `txn` has released its locks and is not forgotten. -/
def isReleased (m : Manager) (txn : TransactionId) : Bool :=
  txn ∈ m.released

/-- The number of keys that `txn` has asked for. -/
def keyCount (m : Manager) (txn : TransactionId) : Nat :=
  (m.held.getD txn ∅).size

/-- How the request with this ticket ended, if it has. -/
def resolution? (m : Manager) (ticket : Ticket) : Option Wake :=
  m.resolved.lookup ticket

/-- Notes that `txn` has asked for a key, and keeps the strongest mode. -/
def record (m : Manager) (txn : TransactionId) (k : Key) (mode : Mode) : Manager :=
  let asked := m.held.getD txn ∅
  { m with held := m.held.insert txn (asked.insert k ((asked.getD k mode).max mode)) }

/-- Sets the lock of a key, and keeps how requests ended on the way. -/
def update (m : Manager) (k : Key) (change : KeyLock × List Resolution) : Manager :=
  { m with locks := m.locks.insert k change.1, resolved := m.resolved ++ change.2 }

/-- A request for a key. It is granted, refused or queued by the rule of `Holders.judge`; a
request of a released transaction is refused. -/
def request (m : Manager) (mode : Mode) (me : Holder) (k : Key) : Manager × Reply :=
  if m.isReleased me.txn then (m, .refused .released)
  else
    let m := m.record me.txn k mode
    let lock := m.lockOf k
    match lock.holders.judge m.released me mode with
    | .grant =>
      (m.update k ({ lock with holders := lock.holders.enter me mode }, []), .granted)
    | .conflict => (m.update k (lock, []), .refused .conflict)
    | .wait =>
      let ticket := m.nextTicket
      let m := m.update k (lock.append ⟨me, mode, ticket, true⟩, [])
      ({ m with nextTicket := ticket + 1 }, .queued ticket)

/-- The requests that have ended since the manager was `before`, and whose callers are still to be
told. A request that timed out was ended by its own caller. -/
def endedSince (m before : Manager) : List Ticket :=
  ((m.resolved.drop before.resolved.length).filter fun r => r.2 ≠ .timedOut).map Prod.fst

/-- Changes the lock of a key, if it was ever asked for. -/
def visit (m : Manager) (k : Key) (change : KeyLock → KeyLock × List Resolution) : Manager :=
  match m.locks.get? k with
  | none => m
  | some lock => m.update k (change lock)

/-- Strikes `txn` from one key. -/
def releaseKey (txn : TransactionId) (m : Manager) (k : Key) : Manager :=
  m.visit k fun lock => lock.release txn m.released

/-- Strikes `txn` from the given keys, one after the other. Its requests are refused from now on,
and it is no longer in the index. -/
def releaseInOrder (m : Manager) (txn : TransactionId) (order : List Key) : Manager :=
  let marked :=
    { m with
      released := if txn ∈ m.released then m.released else m.released ++ [txn]
      held := m.held.erase txn }
  order.foldl (releaseKey txn) marked

/-- Strikes `txn` from every key it has asked for. -/
def release (m : Manager) (txn : TransactionId) : Manager :=
  m.releaseInOrder txn (m.held.getD txn ∅).keys

/-- Forgets that `txn` was released, so that it may ask for locks again. -/
def forget (m : Manager) (txn : TransactionId) : Manager :=
  { m with released := m.released.filter fun t => t ≠ txn }

/-- Ends a queued request whose deadline has passed. -/
def expire (m : Manager) (k : Key) (ticket : Ticket) : Manager :=
  m.visit k fun lock => lock.expire ticket m.released

/-- Notes that the caller of a queued request has gone. -/
def abandon (m : Manager) (k : Key) (ticket : Ticket) : Manager :=
  m.visit k fun lock => (lock.abandon ticket, [])

/-- The number of tables of which a key was ever asked for. -/
def tableCount (m : Manager) : Nat :=
  (m.locks.keys.map Key.table).eraseDups.length

/-- The text of a manager in structural listings. -/
def describe (m : Manager) : String :=
  "LockManager \x7b tables: " ++ toString m.tableCount ++ ", transactions: " ++
    toString m.held.size ++ ", timeout: " ++ Duration.describe? m.timeout ++ ", .. \x7d"

end Manager

end TxStore.Lock
