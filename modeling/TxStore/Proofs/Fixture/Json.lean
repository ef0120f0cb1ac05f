import TxStore.Fixture.Basic
import TxStore.Proofs.Value.Json

/-!
# Fixtures and their JSON text

The decoder of fixtures reads more than the encoder writes: fields in any order, other fields among
them (`Document.Alike`), kinds and rows left out, and tables or the whole fixture as arrays of their
fields (`TableSpec.ofDocument?_array`). Whatever it reads, the values in the rows nest no deeper
than it allows (`Fixture.Shallow`), and the text of a fixture is read back as this fixture exactly
if that is so. Hence a fixture that was read from any text is read again from its own.
-/

namespace TxStore

namespace Document

/-- The value of a field with a default is the default, or it was read. -/
theorem Field.optional_eq_some {α : Type} {fallback a : α} {read : Document → Option α} {f : Field}
    (h : f.optional fallback read = some a) : a = fallback ∨ ∃ j, read j = some a := by
  cases f with
  | absent => exact .inl (Option.some_inj.mp h).symm
  | present j => exact .inr ⟨j, h⟩
  | repeated => cases h

/-- The value of a field that must be there was read. -/
theorem Field.required_eq_some {α : Type} {a : α} {read : Document → Option α} {f : Field}
    (h : f.required read = some a) : ∃ j, read j = some a := by
  cases f with
  | present j => exact ⟨j, h⟩
  | absent | repeated => cases h

/-- Each item of a list that was read was read. -/
theorem exists_of_listOf? {α : Type} {read : Document → Option α} {j : Document} {as : List α}
    (h : listOf? read j = some as) : ∀ a ∈ as, ∃ i, read i = some a := by
  cases j with
  | array items =>
    intro a ha
    obtain ⟨i, -, hread⟩ := exists_of_mem_mapM h ha
    exact ⟨i, hread⟩
  | _ => cases h

end Document

/-! ## Forms of a fixture -/

namespace Document

/-- Whether objects with these fields are the same to a reader of fields with the given names. -/
structure Alike (names : List String) (fields fields' : List (Option String × Document)) : Prop where
  /-- All field names are texts in one if they are in the other. -/
  texts : (fields.all fun f => f.1.isSome) = fields'.all fun f => f.1.isSome
  /-- Each of the names has the same field in both. -/
  field : ∀ name ∈ names, field name fields = field name fields'

variable {names : List String} {fields fields' : List (Option String × Document)}

/-- A field of another name is not read. -/
theorem alike_of_not_mem {other : String} (h : other ∉ names) (j : Document)
    (before after : List (Option String × Document)) :
    Alike names (before ++ (some other, j) :: after) (before ++ after) where
  texts := by simp
  field name hname := by
    have hne : other ≠ name := fun heq => h (heq ▸ hname)
    unfold Document.field
    rw [List.filter_append, List.filter_append, List.filter_cons_of_neg (by simp [hne])]

/-- The order of the fields does not matter. -/
theorem alike_of_perm (h : fields.Perm fields') : Alike names fields fields' where
  texts := h.all_eq
  field name _ := by
    have hperm := h.filter fun f => decide (f.1 = some name)
    unfold Document.field
    -- There is one order only of a single field, and of several it does not matter which they are.
    generalize (fields.filter fun f => decide (f.1 = some name)) = found at hperm
    generalize (fields'.filter fun f => decide (f.1 = some name)) = found' at hperm
    match found, found' with
    | [], _ => rw [hperm.nil_eq]
    | [_], _ => rw [hperm.singleton_eq]
    | _ :: _ :: _, [] | _ :: _ :: _, [_] =>
      have hlength := hperm.length_eq
      simp at hlength
    | _ :: _ :: _, _ :: _ :: _ => rfl

end Document

/-- Objects that are alike in the fields of a table are read alike. -/
theorem TableSpec.ofDocument?_congr {fields fields' : List (Option String × Document)}
    (h : Document.Alike fieldNames fields fields') :
    ofDocument? (.object fields) = ofDocument? (.object fields') := by
  unfold ofDocument? Document.named?
  dsimp only
  rw [h.texts]
  split
  · dsimp only [Option.bind_eq_bind, Option.bind_some]
    rw [h.field "name" (by decide), h.field "key_kind" (by decide),
      h.field "value_kind" (by decide), h.field "rows" (by decide)]
  · rfl

/-- An array of the fields of a table, without some of the last ones, is read like the object that
has them under their names. -/
theorem TableSpec.ofDocument?_array {items : List Document}
    (h : items.length ≤ fieldNames.length) :
    ofDocument? (.array items) = ofDocument? (.object ((fieldNames.map some).zip items)) := by
  match items with
  | [] | [_] | [_, _] | [_, _, _] | [_, _, _, _] => rfl
  | _ :: _ :: _ :: _ :: _ :: _ => exact absurd h (by simp [fieldNames])

/-- Objects that are alike in the field of a fixture are read alike. -/
theorem Fixture.ofDocument?_congr {fields fields' : List (Option String × Document)}
    (h : Document.Alike fieldNames fields fields') :
    ofDocument? (.object fields) = ofDocument? (.object fields') := by
  unfold ofDocument? Document.named?
  dsimp only
  rw [h.texts]
  split
  · dsimp only [Option.bind_eq_bind, Option.bind_some]
    rw [h.field "tables" (by decide)]
  · rfl

/-! ## Documents that are read -/

/-- A kind is read from its document. -/
theorem Kind.ofDocument?_document (k : Kind) : Kind.ofDocument? k.document = some k := by
  cases k <;> decide

namespace TableSpec

/-- Whether the values in a row nest no deeper than they may in a fixture. -/
def ShallowRow (r : Value × Value) : Prop :=
  r.1.document.depth ≤ valueDepth ∧ r.2.document.depth ≤ valueDepth

/-- Whether this is so for all rows. -/
def Shallow (t : TableSpec) : Prop :=
  ∀ r ∈ t.rows, ShallowRow r

/-- A row is read from its document if it is shallow. -/
theorem row?_document {r : Value × Value} (h : ShallowRow r) :
    row? (.array [r.1.document, r.2.document]) = some r := by
  show ((Value.ofDocumentWithin? valueDepth r.1.document).bind fun k =>
    (Value.ofDocumentWithin? valueDepth r.2.document).bind fun v => some (k, v)) = _
  rw [Value.ofDocumentWithin?, if_pos h.1, Value.ofDocumentWithin?, if_pos h.2,
    Value.ofDocument?_document, Value.ofDocument?_document]
  rfl

/-- A row that was read is shallow. -/
theorem shallowRow_of_row? {j : Document} {r : Value × Value} (h : row? j = some r) :
    ShallowRow r := by
  unfold row? at h
  split at h
  · obtain ⟨k, hk, h⟩ := Option.bind_eq_some_iff.mp h
    obtain ⟨v, hv, h⟩ := Option.bind_eq_some_iff.mp h
    obtain rfl := Option.some_inj.mp h
    exact ⟨(Value.ofDocumentWithin?_eq_some_iff.mp hk).2,
      (Value.ofDocumentWithin?_eq_some_iff.mp hv).2⟩
  · cases h

/-- A table is read from its document if its rows are shallow. -/
theorem ofDocument?_document {t : TableSpec} (h : t.Shallow) : ofDocument? t.document = some t := by
  have hrows : Document.listOf? row?
      (.array (t.rows.map fun r => .array [r.1.document, r.2.document])) = some t.rows :=
    mapM_map_eq_some fun r hr => row?_document (h r hr)
  simp [ofDocument?, document, Document.named?, Document.field, Document.Field.required,
    Document.Field.optional, Document.text?, Kind.ofDocument?_document, hrows]

/-- A table that was read has shallow rows. -/
theorem shallow_of_ofDocument? {j : Document} {t : TableSpec} (h : ofDocument? j = some t) :
    t.Shallow := by
  obtain ⟨fields, -, h⟩ := Option.bind_eq_some_iff.mp h
  obtain ⟨name, -, h⟩ := Option.bind_eq_some_iff.mp h
  obtain ⟨keyKind, -, h⟩ := Option.bind_eq_some_iff.mp h
  obtain ⟨valueKind, -, h⟩ := Option.bind_eq_some_iff.mp h
  obtain ⟨rows, hrows, h⟩ := Option.bind_eq_some_iff.mp h
  obtain rfl := Option.some_inj.mp h
  intro r (hr : r ∈ rows)
  obtain rfl | ⟨i, hread⟩ := Document.Field.optional_eq_some hrows
  · cases hr
  · obtain ⟨k, hk⟩ := Document.exists_of_listOf? hread r hr
    exact shallowRow_of_row? hk

/-- The rows of a table are three levels below its document. -/
theorem depth_document {t : TableSpec} (h : t.Shallow) : t.document.depth ≤ valueDepth + 3 := by
  have hrow : ∀ j ∈ t.rows.map fun r => Document.array [r.1.document, r.2.document],
      j.depth ≤ valueDepth + 1 := by
    intro j hj
    obtain ⟨r, hr, rfl⟩ := List.mem_map.mp hj
    obtain ⟨hkey, hvalue⟩ := h r hr
    simp only [Document.depth, Document.depthItems]
    omega
  have hrows := Document.depthItems_le_iff.mpr hrow
  simp only [document, Kind.document, Document.depth, Document.depthFields]
  omega

end TableSpec

namespace Fixture

/-- Whether the values in the rows of all tables nest no deeper than they may. -/
def Shallow (f : Fixture) : Prop :=
  ∀ t ∈ f.tables, t.Shallow

/-- A fixture is read from its document if it is shallow. -/
theorem ofDocument?_document {f : Fixture} (h : f.Shallow) : ofDocument? f.document = some f := by
  have htables : Document.listOf? TableSpec.ofDocument?
      (.array (f.tables.map TableSpec.document)) = some f.tables :=
    mapM_map_eq_some fun t ht => TableSpec.ofDocument?_document (h t ht)
  simp [ofDocument?, document, Document.named?, Document.field, Document.Field.required, htables]

/-- A fixture that was read is shallow. -/
theorem shallow_of_ofDocument? {j : Document} {f : Fixture} (h : ofDocument? j = some f) :
    f.Shallow := by
  obtain ⟨fields, -, h⟩ := Option.bind_eq_some_iff.mp h
  obtain ⟨tables, htables, h⟩ := Option.bind_eq_some_iff.mp h
  obtain rfl := Option.some_inj.mp h
  intro t ht
  obtain ⟨i, hread⟩ := Document.Field.required_eq_some htables
  obtain ⟨k, hk⟩ := Document.exists_of_listOf? hread t ht
  exact TableSpec.shallow_of_ofDocument? hk

/-- The document of a shallow fixture nests within the limit. -/
theorem depth_document {f : Fixture} (h : f.Shallow) : f.document.depth ≤ Document.depthLimit := by
  have htable : ∀ j ∈ f.tables.map TableSpec.document, j.depth ≤ TableSpec.valueDepth + 3 := by
    intro j hj
    obtain ⟨t, ht, rfl⟩ := List.mem_map.mp hj
    exact TableSpec.depth_document (h t ht)
  have htables := Document.depthItems_le_iff.mpr htable
  have hlimit : TableSpec.valueDepth + 5 = Document.depthLimit := rfl
  simp only [document, Document.depth, Document.depthFields]
  omega

/-- A fixture is read back from its text exactly if it is shallow. -/
theorem parse?_print_iff {f : Fixture} : parse? f.print = some f ↔ f.Shallow := by
  show (Document.parse? f.document.pretty).bind ofDocument? = _ ↔ _
  rw [Document.parse?_pretty]
  exact ⟨shallow_of_ofDocument?, ofDocument?_document⟩

/-- A fixture whose values nest deep enough below the limit nests within it as a whole and is read
back from its text. A fixture that was read from any text, whatever form its tables have there, is
read again from its own text. -/
theorem print_and_parse_round_trip :
    (∀ f : Fixture, f.Shallow →
      f.document.depth ≤ Document.depthLimit ∧ parse? f.print = some f) ∧
    ∀ s f, parse? s = some f → f.Shallow ∧ parse? f.print = some f := by
  refine ⟨fun f h => ⟨depth_document h, parse?_print_iff.mpr h⟩, fun s f h => ?_⟩
  obtain ⟨j, -, hj⟩ := Option.bind_eq_some_iff.mp h
  have hshallow := shallow_of_ofDocument? hj
  exact ⟨hshallow, parse?_print_iff.mpr hshallow⟩

/-- Two tables, of which only the first has rows and a kind other than any. -/
def ledger : Fixture where
  tables := [
    ⟨"accounts", .text, .any,
      [(.text "alice", .array [.integer 100, .bytes [7]]), (.text "", .null)]⟩,
    ⟨"audit", .any, .any, []⟩]

/-- A text of theirs, with other fields, fields left out and one table in an array. -/
def ledgerText : String :=
  "\x7b\"version\": [1.5], \"tables\": [" ++
    "[\"accounts\", \x7b\"text\": null\x7d, \"any\", " ++
      "[[\"alice\", [100, \x7b\"bytes\": [7]\x7d]], [\"\", null]]], " ++
    "\x7b\"note\": \x7b\x7d, \"name\": \"audit\"\x7d]\x7d"

/-- They are read from this text, and again from the text that is printed of them. -/
theorem print_and_parse_round_trip_ledger :
    parse? ledgerText = some ledger ∧ ledger.document.depth ≤ Document.depthLimit ∧
      parse? ledger.print = some ledger := by
  have htext : parse? ledgerText = some ledger := by decide +kernel
  have hshallow : ledger.Shallow := (print_and_parse_round_trip.2 _ ledger htext).1
  exact ⟨htext, print_and_parse_round_trip.1 ledger hshallow⟩

end Fixture

end TxStore
