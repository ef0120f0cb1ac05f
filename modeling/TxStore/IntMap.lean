import TxStore.Value.Basic

/-!
# A map from integers to integers

What a table of integers does, as a map: the operations and what they report.
-/

namespace TxStore

/-- An operation on a map from integers to integers. -/
inductive MapOp where
  /-- Write a value. -/
  | put (key value : Int64)
  /-- Read a key. -/
  | get (key : Int64)
  /-- Remove a key. -/
  | delete (key : Int64)
  deriving DecidableEq

/-- What an operation reports. -/
inductive MapReply where
  /-- It succeeds. -/
  | done
  /-- It reads a value. -/
  | value (v : Int64)
  /-- The key is not there. -/
  | missing
  deriving DecidableEq

/-- A map from integers to integers, in ascending order of the keys. -/
structure IntMap where
  /-- The keys and values. -/
  entries : List (Int64 × Int64)
  deriving DecidableEq

namespace IntMap

/-- The map without keys. -/
def empty : IntMap := ⟨[]⟩

/-- The value under a key. -/
def get? (m : IntMap) (key : Int64) : Option Int64 :=
  m.entries.lookup key

/-- Places an entry before the first one with a greater key, over one with the same key. -/
def place (key value : Int64) : List (Int64 × Int64) → List (Int64 × Int64)
  | [] => [(key, value)]
  | e :: rest =>
    if key < e.1 then (key, value) :: e :: rest
    else if key = e.1 then (key, value) :: rest
    else e :: place key value rest

/-- Runs an operation. -/
def apply (m : IntMap) : MapOp → MapReply × IntMap
  | .put key value => (.done, ⟨place key value m.entries⟩)
  | .get key =>
    match m.get? key with
    | some v => (.value v, m)
    | none => (.missing, m)
  | .delete key =>
    match m.get? key with
    | some _ => (.done, ⟨m.entries.filter fun e => e.1 ≠ key⟩)
    | none => (.missing, m)

/-- The entries as rows of a table. -/
def rows (m : IntMap) : List (Value × Value) :=
  m.entries.map fun e => (.integer e.1, .integer e.2)

end IntMap

end TxStore
