import TxStore.Identifier
import TxStore.Value.Order

/-!
# The write buffer of a transaction

Writes are kept until the transaction commits, grouped by table. The groups stand in ascending
order of their table identifiers, and within a group the writes stand in the order in which they
were made. The newest write of a key decides what the transaction sees under that key.
-/

namespace TxStore

/-- A buffered write of one row. -/
inductive Write where
  /-- Insert or overwrite the row. -/
  | put (value : Value)
  /-- Remove the row. -/
  | delete
  deriving DecidableEq

/-- A buffered write with its place. -/
structure WriteEntry where
  /-- The table. -/
  table : TableId
  /-- The row key. -/
  key : Value
  /-- The write. -/
  write : Write
  deriving DecidableEq

/-- The writes of one table, oldest first. -/
abbrev WriteGroup := TableId × List (Value × Write)

/-- The buffered writes, by table. -/
structure WriteBuffer where
  /-- The groups, in ascending order of the tables. -/
  groups : List WriteGroup
  deriving DecidableEq

namespace WriteBuffer

/-- Nothing is buffered. -/
def empty : WriteBuffer := ⟨[]⟩

/-- By default nothing is buffered. -/
instance : Inhabited WriteBuffer := ⟨empty⟩

/-- Adds a write at the end of its table's group, which is made in its place if need be. -/
def appendTo (table : TableId) (key : Value) (write : Write) :
    List WriteGroup → List WriteGroup
  | [] => [(table, [(key, write)])]
  | group :: rest =>
    match compare table group.1 with
    | .lt => (table, [(key, write)]) :: group :: rest
    | .eq => (group.1, group.2 ++ [(key, write)]) :: rest
    | .gt => group :: appendTo table key write rest

/-- Adds a write. -/
def append (b : WriteBuffer) (table : TableId) (key : Value) (write : Write) : WriteBuffer :=
  ⟨appendTo table key write b.groups⟩

/-- The newest write of a key. -/
def newest? (b : WriteBuffer) (table : TableId) (key : Value) : Option Write := do
  let writes ← b.groups.lookup table
  let newest ← writes.reverse.find? fun w => w.1 = key
  return newest.2

/-- All writes, table by table. -/
def entries (b : WriteBuffer) : List WriteEntry :=
  b.groups.flatMap fun group => group.2.map fun w => ⟨group.1, w.1, w.2⟩

/-- The number of writes. -/
def size (b : WriteBuffer) : Nat :=
  b.entries.length

/-- Whether nothing is buffered. -/
def isEmpty (b : WriteBuffer) : Bool :=
  b.size = 0

end WriteBuffer

end TxStore
