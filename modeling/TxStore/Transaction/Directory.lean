import TxStore.Dict
import TxStore.Transaction.Basic

/-!
# The transactions of all connections

The directory keeps every transaction that was ever started under its identifier, and knows for
each connection the transaction it has now. A transaction that has been replaced or ended is still
there, with its own write buffer, for those who hold its identifier.
-/

namespace TxStore

/-- The transactions ever started, and the present one of each connection. -/
structure Directory where
  /-- All transactions; the one with number `n` stands at place `n`. -/
  transactions : Array Transaction
  /-- The present transaction of each connection that has one. -/
  current : Dict ConnectionId TransactionId
  deriving DecidableEq

namespace Directory

/-- A directory without transactions. -/
def empty : Directory := ⟨#[], ∅⟩

/-- By default a directory knows no transaction. -/
instance : Inhabited Directory := ⟨empty⟩

/-- The transaction with an identifier. -/
def find? (d : Directory) (t : TransactionId) : Option Transaction :=
  d.transactions[t.number]?

/-- Replaces the transaction with an identifier. -/
def set (d : Directory) (t : TransactionId) (txn : Transaction) : Directory :=
  { d with transactions := d.transactions.setIfInBounds t.number txn }

/-- Changes the transaction with an identifier. -/
def modify (d : Directory) (t : TransactionId) (f : Transaction → Transaction) : Directory :=
  match d.find? t with
  | none => d
  | some txn => d.set t (f txn)

/-- The present transaction of a connection. -/
def get? (d : Directory) (c : ConnectionId) : Option Transaction :=
  (d.current.get? c).bind d.find?

/-- Makes a new transaction the present one of a connection. -/
def place (d : Directory) (c : ConnectionId) (ts : Timestamp) (origin : Origin) :
    TransactionId × Directory :=
  let id : TransactionId := ⟨d.transactions.size⟩
  (id, ⟨d.transactions.push (.new id c ts origin), d.current.insert c id⟩)

/-- Starts a transaction on a connection that has none. -/
def start (d : Directory) (c : ConnectionId) (ts : Timestamp) (origin : Origin) :
    Except Cause (TransactionId × Directory) :=
  if d.current.contains c then .error .inTransaction else .ok (d.place c ts origin)

/-- Replaces a connection's transaction by a fresh one of the same origin. -/
def restart (d : Directory) (c : ConnectionId) (ts : Timestamp) :
    Except Cause (TransactionId × Directory) :=
  match d.get? c with
  | none => .error .notInTransaction
  | some old => .ok (d.place c ts old.origin)

/-- Ends a connection's transaction and says which one it was. -/
def stop (d : Directory) (c : ConnectionId) : Except Cause (TransactionId × Directory) :=
  match d.current.get? c with
  | none => .error .notInTransaction
  | some id => .ok (id, { d with current := d.current.erase c })

/-- Changes the write buffer of a transaction. -/
def modifyLog (d : Directory) (t : TransactionId) (f : WriteBuffer → WriteBuffer) : Directory :=
  d.modify t fun txn => { txn with log := f txn.log }

/-- Empties the write buffer of a connection's transaction. -/
def clearLog (d : Directory) (c : ConnectionId) : Except Cause Directory :=
  match d.current.get? c with
  | none => .error .notInTransaction
  | some id => .ok (d.modifyLog id fun _ => .empty)

/-- The number of connections that have a transaction. -/
def activeCount (d : Directory) : Nat :=
  d.current.size

/-- The text of a directory in structural listings. -/
def describe (d : Directory) : String :=
  "TransactionManager \x7b active: " ++ toString d.activeCount ++ ", .. \x7d"

end Directory

end TxStore
