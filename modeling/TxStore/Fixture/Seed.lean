import TxStore.Database.Run
import TxStore.Fixture.Basic
import TxStore.Table.Memory

/-!
# Making the database of a fixture

The tables of a fixture are made, registered and filled one after the other; the first that cannot
be is the error. A table without a name is refused before a name that is taken, and a taken name
before a row that does not fit.
-/

namespace TxStore

/-- Why a fixture cannot be made. -/
inductive SeedError where
  /-- A table refused its name or a row. -/
  | table (e : TableError)
  /-- The database refused a table. -/
  | database (cause : Cause)
  deriving DecidableEq

/-- The text of an error. -/
def SeedError.message : SeedError → String
  | table e => "seed failed: " ++ e.message
  | database cause => "database error: " ++ cause.message

/-- A database with a connection, and the tables made for it by name. -/
structure Bench where
  /-- The database. -/
  db : Database MemoryTable
  /-- The connection. -/
  connection : ConnectionId
  /-- The tables, by name. -/
  tables : Dict String TableRef

namespace Bench

/-- A database without tables, whose clock reads one first. -/
def new (config : Config) : Bench :=
  let (c, db) := Database.connect (.new config default .fnv1a)
  ⟨db, c, ∅⟩

/-- Makes and registers a table. -/
def addTable (b : Bench) (name : String) (keyKind valueKind : Kind) : Except SeedError Bench :=
  match MemoryTable.new name keyKind valueKind with
  | .error e => .error (.table e)
  | .ok t =>
    let ref := b.db.store.size
    match b.db.createTable t with
    | (.error e, _) => .error (.database e)
    | (.ok _, db) => .ok { b with db := db, tables := b.tables.insert name ref }

/-- Makes and registers a table from integers to integers. -/
def addIntegerTable (b : Bench) (name : String) : Except SeedError Bench :=
  b.addTable name .integer .integer

/-- The table of a name. -/
def table? (b : Bench) (name : String) : Option MemoryTable :=
  (b.tables.get? name).bind fun ref => b.db.store[ref]?

/-- Puts rows into the table of a name. -/
def load (b : Bench) (name : String) (rows : List (Value × Value)) : Except SeedError Bench :=
  match b.tables.get? name with
  | none => .error (.database (.tableNotFound name))
  | some ref =>
    match b.db.store[ref]? with
    | none => .error (.database (.tableNotFound name))
    | some t =>
      match t.load rows with
      | (_, .error e) => .error (.table e)
      | (t, .ok ()) => .ok { b with db := { b.db with store := b.db.store.setIfInBounds ref t } }

/-- Makes and fills one table. -/
def seedTable (b : Bench) (spec : TableSpec) : Except SeedError Bench := do
  (← b.addTable spec.name spec.keyKind spec.valueKind).load spec.name spec.rows

/-- Makes and fills tables one after the other. -/
def seed (b : Bench) : List TableSpec → Except SeedError Bench
  | [] => .ok b
  | spec :: rest =>
    match b.seedTable spec with
    | .error e => .error e
    | .ok b => b.seed rest

/-- The value in a table under a key, past all transactions. -/
def committed (b : Bench) (name : String) (key : Value) : Option Value :=
  (b.table? name).bind fun t => t.rows.get? key

end Bench

/-- The database of a fixture. -/
def Fixture.build (f : Fixture) (config : Config) : Except SeedError Bench :=
  (Bench.new config).seed f.tables

end TxStore
