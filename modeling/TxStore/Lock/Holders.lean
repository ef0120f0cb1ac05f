import TxStore.Identifier

/-!
# Who holds a key, and who may have it

A key is held by at most one writer and any number of readers. `Holders.judge` settles a request
by age. A request that conflicts with no other holder is granted. One that is older than every
holder it conflicts with may wait, and any other is refused; so waiting goes from older to younger
transactions only.
-/

namespace TxStore.Lock

/-- How a key is held. -/
inductive Mode where
  /-- Shared with other readers. -/
  | read
  /-- Exclusive. -/
  | write
  deriving DecidableEq, Inhabited

namespace Mode

/-- The name of a mode. -/
def name : Mode → String
  | read => "read"
  | write => "write"

/-- The stronger of two modes; writing is stronger than reading. -/
def max : Mode → Mode → Mode
  | read, m => m
  | write, _ => write

end Mode

/-- A transaction that holds or requests a key, with its age. -/
structure Holder where
  /-- The transaction. -/
  txn : TransactionId
  /-- Its timestamp. -/
  timestamp : Timestamp
  deriving DecidableEq, Inhabited

/-- What becomes of a request. -/
inductive Decision where
  /-- It holds the key from now on. -/
  | grant
  /-- It waits for younger holders. -/
  | wait
  /-- It is refused. -/
  | conflict
  deriving DecidableEq

/-- The holders of one key. -/
structure Holders where
  /-- The writer. -/
  writer : Option Holder
  /-- The readers, in the order in which they were admitted. -/
  readers : List Holder
  deriving DecidableEq

namespace Holders

/-- Nobody holds the key. -/
def nobody : Holders := ⟨none, []⟩

/-- A key is held by nobody by default. -/
instance : Inhabited Holders := ⟨nobody⟩

/-- Whether `txn` is the writer. -/
def writes (s : Holders) (txn : TransactionId) : Bool :=
  s.writer.any fun w => w.txn = txn

/-- Whether `txn` is among the readers. -/
def reads (s : Holders) (txn : TransactionId) : Bool :=
  s.readers.any fun r => r.txn = txn

/-- Whether `txn` holds the key in `mode` or in a stronger one. -/
def holds (s : Holders) (txn : TransactionId) (mode : Mode) : Bool :=
  s.writes txn || (mode = .read && s.reads txn)

/-- The holders, other than the requester and those already released, that a request conflicts
with: the writer, and for writing, if there is no writer, the readers. -/
def blockers (s : Holders) (released : List TransactionId) (me : Holder) (mode : Mode) :
    List Holder :=
  match s.writer.filter fun w => w.txn ∉ released with
  | some w => [w]
  | none =>
    match mode with
    | .read => []
    | .write => s.readers.filter fun r => r.txn ≠ me.txn && r.txn ∉ released

/-- Settles a request. Whoever holds the key already is granted it again; otherwise a request
without blockers is granted, one older than all its blockers waits, and any other is refused. -/
def judge (s : Holders) (released : List TransactionId) (me : Holder) (mode : Mode) : Decision :=
  if s.holds me.txn mode then .grant
  else
    match s.blockers released me mode with
    | [] => .grant
    | blockers =>
      if blockers.all fun b => me.timestamp.isBefore b.timestamp then .wait else .conflict

/-- Enters `me` as a holder. The writer is never entered again, nor a reader twice. -/
def enter (s : Holders) (me : Holder) (mode : Mode) : Holders :=
  if s.writes me.txn then s
  else
    match mode with
    | .read => if s.reads me.txn then s else { s with readers := s.readers ++ [me] }
    | .write => { s with writer := some me }

/-- Takes back what entering `me` added to the holders `before`. -/
def takeBack (s before : Holders) (me : Holder) (mode : Mode) : Holders :=
  match mode with
  | .write => if before.writes me.txn then s else { s with writer := none }
  | .read =>
    if before.reads me.txn then s
    else { s with readers := s.readers.filter fun r => r.txn ≠ me.txn }

/-- Strikes `txn` out. -/
def drop (s : Holders) (txn : TransactionId) : Holders where
  writer := s.writer.filter fun w => w.txn ≠ txn
  readers := s.readers.filter fun r => r.txn ≠ txn

end Holders

end TxStore.Lock
