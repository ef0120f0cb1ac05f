import TxStore.Transaction.Directory

/-!
# Clients of the transactions

A session lets clients register operations with transactions and wait until none is in flight.
Every registration is a guard that can be given back once. A wait is a call that looks at its
transaction when it is first run and again whenever it is woken, and returns when it then finds no
operation in flight.
-/

namespace TxStore

namespace Transaction

/-- A registration of an operation with a transaction. -/
structure Guard where
  /-- The transaction. -/
  txn : TransactionId
  /-- Whether it has not been given back. -/
  held : Bool
  deriving DecidableEq

/-- A call that waits for the operations of a transaction. -/
structure DrainCall where
  /-- The transaction. -/
  txn : TransactionId
  /-- Whether it has returned. -/
  returned : Bool
  deriving DecidableEq

/-- Transactions, registrations and waiting calls. -/
structure Session where
  /-- The transactions. -/
  directory : Directory
  /-- All registrations ever made, in order. -/
  guards : Array Guard
  /-- All waiting calls ever made, in order. -/
  calls : Array DrainCall
  /-- The calls that can go on, first come first. -/
  ready : List Nat

namespace Session

/-- A session without transactions. -/
def new : Session := ⟨.empty, #[], #[], []⟩

/-- The new session serves as the default. -/
instance : Inhabited Session := ⟨new⟩

/-- Registers an operation with a transaction, and says under which guard. -/
def register (s : Session) (t : TransactionId) : Except Cause (Nat × Session) :=
  match s.directory.find? t with
  | none => .error .notInTransaction
  | some txn =>
    match txn.register with
    | .error e => .error e
    | .ok txn =>
      .ok (s.guards.size,
        { s with directory := s.directory.set t txn, guards := s.guards.push ⟨t, true⟩ })

/-- Gives a guard back, and wakes the waiting calls if it was the last of its transaction. Says
whether the guard was still held. -/
def deregister (s : Session) (g : Nat) : Bool × Session :=
  match s.guards[g]? with
  | none => (false, s)
  | some guard =>
    if guard.held then
      let s := { s with guards := s.guards.setIfInBounds g { guard with held := false } }
      match s.directory.find? guard.txn with
      | none => (true, s)
      | some txn =>
        let (txn, woken) := txn.deregister
        (true, { s with directory := s.directory.set guard.txn txn, ready := s.ready ++ woken })
    else (false, s)

/-- Moves an active transaction on. -/
def turnTo (s : Session) (t : TransactionId) (target : Phase) : Except Cause Session :=
  match s.directory.find? t with
  | none => .error .notInTransaction
  | some txn =>
    match txn.turnTo target with
    | .error e => .error e
    | .ok txn => .ok { s with directory := s.directory.set t txn }

/-- Ends a transaction's life. -/
def finish (s : Session) (t : TransactionId) : Session :=
  { s with directory := s.directory.modify t Transaction.finish }

/-- Issues a call that waits until no operation of a transaction is in flight. -/
def drain (s : Session) (t : TransactionId) : Session :=
  { s with calls := s.calls.push ⟨t, false⟩, ready := s.ready ++ [s.calls.size] }

/-- Lets one call look at its transaction. -/
def resume (s : Session) (i : Nat) : Session :=
  let s := { s with ready := s.ready.erase i }
  match s.calls[i]? with
  | none => s
  | some call =>
    if call.returned then s
    else
      match s.directory.find? call.txn with
      | none => s
      | some txn =>
        match txn.awaitIdle i with
        | (_, true) =>
          { s with calls := s.calls.setIfInBounds i { call with returned := true } }
        | (txn, false) => { s with directory := s.directory.set call.txn txn }

/-- Runs the line for at most `fuel` turns. -/
def settleWithin : (fuel : Nat) → Session → Session
  | 0, s => s
  | fuel + 1, s =>
    match s.ready with
    | [] => s
    | i :: _ => settleWithin fuel (s.resume i)

/-- Runs the line until it is empty. No turn puts a call in line. -/
def settle (s : Session) : Session :=
  s.settleWithin s.ready.length

end Session

end Transaction

end TxStore
