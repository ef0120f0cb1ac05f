import TxStore.Value.Json

/-!
# Descriptions of seeded databases

A fixture lists tables with their kinds and first rows. As JSON it is an object with the field
`tables`, and each table an object with the fields `name`, `key_kind`, `value_kind` and `rows`, of
which only the name is required; kinds default to any and rows to none. Other fields are ignored,
but none of these may be repeated. In place of an object, the fields may be listed in this order in
an array.
-/

namespace TxStore

/-- A table to be made and filled. -/
structure TableSpec where
  /-- The name. -/
  name : String
  /-- The declared kind of the keys. -/
  keyKind : Kind
  /-- The declared kind of the values. -/
  valueKind : Kind
  /-- The rows, in the order in which they are put. -/
  rows : List (Value × Value)
  deriving DecidableEq

/-- The tables of a database to be made. -/
structure Fixture where
  /-- The tables, in the order in which they are made. -/
  tables : List TableSpec
  deriving DecidableEq

/-! ## Reading fields -/

namespace Document

/-- What a document has under a field name. -/
inductive Field where
  /-- The field is not there. -/
  | absent
  /-- The field is there once. -/
  | present (j : Document)
  /-- The field is there more than once. -/
  | repeated

/-- The field of a name. -/
def field (name : String) (fields : List (Option String × Document)) : Field :=
  match fields.filter fun f => f.1 = some name with
  | [] => .absent
  | [f] => .present f.2
  | _ => .repeated

/-- The value of a field that must be there. -/
def Field.required {α : Type} (read : Document → Option α) : Field → Option α
  | present j => read j
  | absent | repeated => none

/-- The value of a field that has a default. -/
def Field.optional {α : Type} (fallback : α) (read : Document → Option α) : Field → Option α
  | present j => read j
  | absent => some fallback
  | repeated => none

/-- The item at a place of an array, as a field. -/
def itemField (items : List Document) (place : Nat) : Field :=
  match items[place]? with
  | some j => .present j
  | none => .absent

/-- The fields with the given names, from an object whose field names are all texts, or from an
array that is no longer than the names. -/
def named? (names : List String) : Document → Option (String → Field)
  | object fields =>
    if fields.all fun f => f.1.isSome then some fun name => field name fields else none
  | array items =>
    if items.length ≤ names.length then
      some fun name =>
        match names.idxOf? name with
        | some place => itemField items place
        | none => .absent
    else none
  | _ => none

/-- The items of an array, each read. -/
def listOf? {α : Type} (read : Document → Option α) : Document → Option (List α)
  | array items => items.mapM read
  | _ => none

/-- A text. -/
def text? : Document → Option String
  | string s => s
  | _ => none

end Document

namespace TableSpec

/-- How deep a value in a row may nest: the fixture, its tables, the table, its rows and the row
are levels of their own. -/
def valueDepth : Nat := Document.depthLimit - 5

/-- A row: an array of a key and a value. -/
def row? : Document → Option (Value × Value)
  | .array [k, v] => do
    return (← Value.ofDocumentWithin? valueDepth k, ← Value.ofDocumentWithin? valueDepth v)
  | _ => none

/-- The fields of a table. -/
def fieldNames : List String := ["name", "key_kind", "value_kind", "rows"]

/-- The table of a document. -/
def ofDocument? (j : Document) : Option TableSpec := do
  let fields ← j.named? fieldNames
  return {
    name := ← (fields "name").required Document.text?
    keyKind := ← (fields "key_kind").optional .any Kind.ofDocument?
    valueKind := ← (fields "value_kind").optional .any Kind.ofDocument?
    rows := ← (fields "rows").optional [] (Document.listOf? row?) }

/-- The document of a table, with all its fields. -/
def document (t : TableSpec) : Document :=
  .object [
    (some "name", .string (some t.name)),
    (some "key_kind", t.keyKind.document),
    (some "value_kind", t.valueKind.document),
    (some "rows", .array (t.rows.map fun r => .array [r.1.document, r.2.document]))]

end TableSpec

namespace Fixture

/-- The fields of a fixture. -/
def fieldNames : List String := ["tables"]

/-- The fixture of a document. -/
def ofDocument? (j : Document) : Option Fixture := do
  let fields ← j.named? fieldNames
  return { tables := ← (fields "tables").required (Document.listOf? TableSpec.ofDocument?) }

/-- The document of a fixture. -/
def document (f : Fixture) : Document :=
  .object [(some "tables", .array (f.tables.map TableSpec.document))]

/-- The text of a fixture, over several lines. -/
def print (f : Fixture) : String :=
  f.document.pretty

/-- The fixture that a text holds. -/
def parse? (s : String) : Option Fixture := do
  ofDocument? (← Document.parse? s)

end Fixture

end TxStore
