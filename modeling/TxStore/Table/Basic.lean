import TxStore.Table.Faulty

/-!
# Tables of any sort

One database may hold memory tables, simulated tables and tables with planted faults side by side.
A simulated table takes every row and every name, forgets all rows at once, and reads the same text
under every key; what a caller sees of waiting is then due to locks alone. Only a table that keeps
its rows in memory can list them.
-/

namespace TxStore

/-- A table that stores nothing. -/
structure SimulatedTable where
  /-- The name. -/
  name : String
  deriving DecidableEq

namespace SimulatedTable

/-- What every read yields. -/
def stored : Value := .text "value"

/-- Every call is done, and none changes anything. -/
instance : Backend SimulatedTable where
  name := name
  get _ _ := .done stored
  put t _ _ := .done t
  delete t _ := .done t
  validate _ _ _ := .done ()

end SimulatedTable

/-- A table of any sort. -/
inductive Table where
  /-- A table in memory. -/
  | memory (t : MemoryTable)
  /-- A table that stores nothing. -/
  | simulated (t : SimulatedTable)
  /-- A table with planted faults. -/
  | faulty (t : FaultyTable)
  deriving DecidableEq

namespace Table

/-- Each sort of table answers as it does by itself. -/
instance : Backend Table where
  name
    | memory t => Backend.name t
    | simulated t => Backend.name t
    | faulty t => Backend.name t
  get
    | memory t, key => Backend.get t key
    | simulated t, key => Backend.get t key
    | faulty t, key => Backend.get t key
  put
    | memory t, key, value => return memory (← Backend.put t key value)
    | simulated t, key, value => return simulated (← Backend.put t key value)
    | faulty t, key, value => return faulty (← Backend.put t key value)
  delete
    | memory t, key => return memory (← Backend.delete t key)
    | simulated t, key => return simulated (← Backend.delete t key)
    | faulty t, key => return faulty (← Backend.delete t key)
  validate
    | memory t, key, value => Backend.validate t key value
    | simulated t, key, value => Backend.validate t key value
    | faulty t, key, value => Backend.validate t key value

/-- The table that keeps its rows in memory. -/
def memory? : Table → Option MemoryTable
  | memory t => some t
  | simulated _ => none
  | faulty t => some t.table

/-- Puts rows straight into a table that keeps them in memory. -/
def load (t : Table) (rows : List (Value × Value)) : Table × Except TableError Unit :=
  match t with
  | memory m =>
    let (m, result) := m.load rows
    (memory m, result)
  | faulty f =>
    let (m, result) := f.table.load rows
    (faulty { f with table := m }, result)
  | simulated s => (simulated s, .ok ())

end Table

end TxStore
