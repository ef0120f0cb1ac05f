import TxStore.Value.Order

/-!
# Rows in the order of their keys

The rows of a table are a list of keys and values in ascending order of the keys, each key once.
Insertion keeps this order, so the list itself is the sorted listing of the rows.
-/

namespace TxStore

/-- The rows of a table, in ascending order of the keys. -/
structure Rows where
  /-- Keys and values. -/
  entries : List (Value × Value)
  deriving DecidableEq

namespace Rows

/-- No rows. -/
def empty : Rows := ⟨[]⟩

/-- By default there are no rows. -/
instance : Inhabited Rows := ⟨empty⟩

/-- The value under `key`. -/
def find? (key : Value) : List (Value × Value) → Option Value
  | [] => none
  | row :: rest => if row.1 = key then some row.2 else find? key rest

/-- Places a row before the first one with a greater key, over one with the same key. -/
def place (key value : Value) : List (Value × Value) → List (Value × Value)
  | [] => [(key, value)]
  | row :: rest =>
    match key.compare row.1 with
    | .lt => (key, value) :: row :: rest
    | .eq => (key, value) :: rest
    | .gt => row :: place key value rest

/-- The value under `key`, if there is a row. -/
def get? (r : Rows) (key : Value) : Option Value :=
  find? key r.entries

/-- Inserts or overwrites the row under `key`. -/
def insert (r : Rows) (key value : Value) : Rows :=
  ⟨place key value r.entries⟩

/-- Removes the row under `key`. -/
def erase (r : Rows) (key : Value) : Rows :=
  ⟨r.entries.filter fun row => row.1 ≠ key⟩

/-- The number of rows. -/
def size (r : Rows) : Nat :=
  r.entries.length

end Rows

end TxStore
