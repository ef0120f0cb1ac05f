import TxStore.Table.Memory

/-!
# Tables with planted faults

A faulty table is a memory table that breaks off or fails on given keys, each call by a list of its
own. A key that is planted both ways breaks off.
-/

namespace TxStore

/-- The calls of a backend in which a fault can be planted. -/
inductive TableCall where
  /-- Reading a row. -/
  | get
  /-- Inserting or overwriting a row. -/
  | put
  /-- Removing a row. -/
  | delete
  /-- Checking the kinds of a row. -/
  | validate
  deriving DecidableEq

/-- The name of a call. -/
def TableCall.name : TableCall → String
  | get => "get"
  | put => "put"
  | delete => "delete"
  | validate => "validate"

/-- A memory table with planted faults. -/
structure FaultyTable where
  /-- The table behind the faults. -/
  table : MemoryTable
  /-- The calls and keys that fail. -/
  failing : List (TableCall × Value)
  /-- The calls and keys that break off. -/
  breaking : List (TableCall × Value)
  deriving DecidableEq

namespace FaultyTable

/-- Meets the fault planted for a call on a key, or goes on. -/
def guard (t : FaultyTable) (call : TableCall) (key : Value) : Outcome Unit :=
  let text := call.name ++ " " ++ key.display
  if (call, key) ∈ t.breaking then .broken text
  else if (call, key) ∈ t.failing then .failed (.backend text)
  else .done ()

/-- Each call meets its fault, if one is planted, before the memory table is asked. -/
instance : Backend FaultyTable where
  name t := t.table.name
  get t key := do
    t.guard .get key
    .ofExcept (t.table.get key)
  put t key value := do
    t.guard .put key
    .ofExcept ((t.table.put key value).map fun m => { t with table := m })
  delete t key := do
    t.guard .delete key
    .ofExcept ((t.table.delete key).map fun m => { t with table := m })
  validate t key value := do
    t.guard .validate key
    .ofExcept (t.table.check key value)

end FaultyTable

end TxStore
