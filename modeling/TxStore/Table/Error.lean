import TxStore.Value.Basic

/-!
# What can go wrong in a table
-/

namespace TxStore

/-- The half of a row that has the wrong kind. -/
inductive Slot where
  /-- The key. -/
  | key
  /-- The value. -/
  | value
  deriving DecidableEq

/-- Why a table refuses a call. -/
inductive TableError where
  /-- No row has this key. -/
  | keyNotFound (key : Value)
  /-- A key or a value is not of the declared kind. -/
  | typeMismatch (slot : Slot) (expected actual : Kind)
  /-- A table must have a name. -/
  | emptyName
  /-- The storage behind the table failed for reasons of its own. -/
  | backend (text : String)
  deriving DecidableEq

/-- The name of a half of a row. -/
def Slot.name : Slot → String
  | key => "key"
  | value => "value"

namespace TableError

/-- The text of an error. -/
def message : TableError → String
  | keyNotFound key => "key not found - " ++ key.display
  | typeMismatch slot expected actual =>
    "type mismatch: expected " ++ slot.name ++ " type - " ++ expected.name ++ ", got - " ++
      actual.name
  | emptyName => "table name cannot be empty"
  | backend text => "backend error: " ++ text

/-- Whether a row was missing. -/
def isKeyNotFound : TableError → Bool
  | keyNotFound _ => true
  | _ => false

end TableError

end TxStore
