import TxStore.Dict
import TxStore.Error
import TxStore.Hash
import TxStore.Text

/-!
# The tables of a database by name

A registry keeps a handle of each table under the identifier of its name. Two names that share an
identifier cannot be registered at the same time.
-/

namespace TxStore

/-- A registered table. -/
structure Registered (τ : Type) where
  /-- The table's name. -/
  name : String
  /-- The handle. -/
  table : τ
  deriving DecidableEq

/-- Tables under the identifiers of their names. -/
structure Registry (τ : Type) where
  /-- How identifiers are derived from names. -/
  hasher : Hasher
  /-- The registered tables. -/
  tables : Dict TableId (Registered τ)

namespace Registry

variable {τ : Type}

/-- A registry without tables. -/
def empty (hasher : Hasher) : Registry τ := ⟨hasher, ∅⟩

/-- The identifier of a name. -/
def tableId (r : Registry τ) (name : String) : TableId :=
  r.hasher.tableId name

/-- Registers a table. It must have a name, and the name's identifier must be free. -/
def create (r : Registry τ) (name : String) (table : τ) :
    Except Cause (TableId × Registry τ) :=
  if name.isEmpty then .error .emptyTableName
  else if r.tables.contains (r.tableId name) then .error (.tableExists name)
  else
    let id := r.tableId name
    .ok (id, { r with tables := r.tables.insert id ⟨name, table⟩ })

/-- The table with an identifier. -/
def get? (r : Registry τ) (id : TableId) : Option (Registered τ) :=
  r.tables.get? id

/-- The table under the identifier of a name. -/
def lookUp (r : Registry τ) (name : String) : Except Cause (TableId × Registered τ) :=
  match r.get? (r.tableId name) with
  | none => .error (.tableNotFound name)
  | some t => .ok (r.tableId name, t)

/-- Removes the table under the identifier of a name and says which one it was. -/
def drop (r : Registry τ) (name : String) : Except Cause (Registered τ × Registry τ) :=
  match r.get? (r.tableId name) with
  | none => .error (.tableNotFound name)
  | some t => .ok (t, { r with tables := r.tables.erase (r.tableId name) })

/-- The names of the registered tables, sorted. -/
def names (r : Registry τ) : List String :=
  (r.tables.values.map Registered.name).mergeSort

/-- The number of registered tables. -/
def size (r : Registry τ) : Nat :=
  r.tables.size

/-- The text of a registry in structural listings. -/
def describe (r : Registry τ) : String :=
  "TableRegistry \x7b hasher: " ++ r.hasher.label ++ ", tables: [" ++
    ", ".intercalate (r.names.map Text.quoted) ++ "] \x7d"

end Registry

end TxStore
