import TxStore.Table.Backend
import TxStore.Table.Rows

/-!
# Tables in memory

A memory table declares the kinds of its keys and values and holds the rows that fit them. Of a row
that fits neither way the key is reported. A call that fails leaves the rows as they were, except
`load`, which keeps the rows before the first one that does not fit.
-/

namespace TxStore

/-- A table in memory. -/
structure MemoryTable where
  /-- The name, never empty. -/
  name : String
  /-- The declared kind of the keys. -/
  keyKind : Kind
  /-- The declared kind of the values. -/
  valueKind : Kind
  /-- The rows. -/
  rows : Rows
  deriving DecidableEq

namespace MemoryTable

/-- A table without rows. It must have a name. -/
def new (name : String) (keyKind valueKind : Kind) : Except TableError MemoryTable :=
  if name.isEmpty then .error .emptyName else .ok ⟨name, keyKind, valueKind, .empty⟩

/-- Checks a key, and then a value if there is one, against the declared kinds. -/
def check (t : MemoryTable) (key : Value) (value : Option Value) : Except TableError Unit :=
  if t.keyKind.accepts key then
    match value with
    | none => .ok ()
    | some v =>
      if t.valueKind.accepts v then .ok ()
      else .error (.typeMismatch .value t.valueKind v.kind)
  else .error (.typeMismatch .key t.keyKind key.kind)

/-- The value under a key. -/
def get (t : MemoryTable) (key : Value) : Except TableError Value := do
  t.check key none
  match t.rows.get? key with
  | some v => .ok v
  | none => .error (.keyNotFound key)

/-- Inserts or overwrites a row. -/
def put (t : MemoryTable) (key value : Value) : Except TableError MemoryTable := do
  t.check key (some value)
  .ok { t with rows := t.rows.insert key value }

/-- Removes a row, which must be there. -/
def delete (t : MemoryTable) (key : Value) : Except TableError MemoryTable := do
  t.check key none
  match t.rows.get? key with
  | some _ => .ok { t with rows := t.rows.erase key }
  | none => .error (.keyNotFound key)

/-- Puts rows one after the other and stops at the first that does not fit; the rows before it
stay. -/
def load (t : MemoryTable) : List (Value × Value) → MemoryTable × Except TableError Unit
  | [] => (t, .ok ())
  | row :: rest =>
    match t.put row.1 row.2 with
    | .ok t' => t'.load rest
    | .error e => (t, .error e)

/-- All rows, in ascending order of the keys. -/
def listing (t : MemoryTable) : List (Value × Value) :=
  t.rows.entries

/-- The number of rows. -/
def size (t : MemoryTable) : Nat :=
  t.rows.size

/-- A memory table never breaks off. -/
instance : Backend MemoryTable where
  name := name
  get t key := .ofExcept (t.get key)
  put t key value := .ofExcept (t.put key value)
  delete t key := .ofExcept (t.delete key)
  validate t key value := .ofExcept (t.check key value)

end MemoryTable

end TxStore
