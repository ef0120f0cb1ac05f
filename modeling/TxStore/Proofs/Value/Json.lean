import Mathlib.Data.List.Forall2
import TxStore.Proofs.Json.Print
import TxStore.Proofs.Value.Order
import TxStore.Value.Json

/-!
# Values and their JSON text

The reader of values takes exactly the documents that the printer of values makes, each for the one
value that it is made of (`ofDocument?_eq_some_iff`), so that no two variants of a value claim one
document at any depth. Together with the printer and the parser of documents this gives the round
trips: a value is read back from its text if that nests within the limit and is refused otherwise,
and printing a value that was read does not change it.

Which documents are taken is also said without values (`Document.Fits`): strings are texts, numbers
are integers of 64 bits, and objects have the field `bytes` once and nothing else, with an array of
integers from 0 to 255 under it.
-/

namespace TxStore

/-! ## Reading lists -/

/-- The items of a list are read if each one is. -/
theorem mapM_eq_some_iff {α β : Type} {read : α → Option β} {xs : List α} {ys : List β} :
    xs.mapM read = some ys ↔ List.Forall₂ (fun x y => read x = some y) xs ys := by
  induction xs generalizing ys with
  | nil =>
    rw [List.mapM_nil, List.forall₂_nil_left_iff]
    exact ⟨fun h => (Option.some_inj.mp h).symm, fun h => congrArg some h.symm⟩
  | cons x xs ih =>
    rw [List.mapM_cons, List.forall₂_cons_left_iff]
    constructor
    · intro h
      obtain ⟨y, hy, h⟩ := Option.bind_eq_some_iff.mp h
      obtain ⟨ys', hys, h⟩ := Option.bind_eq_some_iff.mp h
      exact ⟨y, ys', hy, ih.mp hys, (Option.some_inj.mp h).symm⟩
    · rintro ⟨y, ys, hy, hys, rfl⟩
      rw [hy, ih.mpr hys]
      rfl

/-- A list is read if each of its items is. -/
theorem exists_mapM_iff {α β : Type} {read : α → Option β} {xs : List α} :
    (∃ ys, xs.mapM read = some ys) ↔ ∀ x ∈ xs, ∃ y, read x = some y := by
  induction xs with
  | nil => exact ⟨fun _ x hx => absurd hx List.not_mem_nil, fun _ => ⟨[], rfl⟩⟩
  | cons x xs ih =>
    rw [List.forall_mem_cons, ← ih]
    constructor
    · rintro ⟨ys, h⟩
      obtain ⟨y, ys', hy, hys, -⟩ := List.forall₂_cons_left_iff.mp (mapM_eq_some_iff.mp h)
      exact ⟨⟨y, hy⟩, ys', mapM_eq_some_iff.mpr hys⟩
    · rintro ⟨⟨y, hy⟩, ys, hys⟩
      exact ⟨y :: ys, mapM_eq_some_iff.mpr (.cons hy (mapM_eq_some_iff.mp hys))⟩

/-- What was read into a list was read from an item. -/
theorem exists_of_mem_mapM {α β : Type} {read : α → Option β} {xs : List α} {ys : List β}
    (hread : xs.mapM read = some ys) {y : β} (hy : y ∈ ys) : ∃ x ∈ xs, read x = some y := by
  obtain ⟨i, hi, rfl⟩ := List.mem_iff_getElem.mp hy
  have hitems := mapM_eq_some_iff.mp hread
  have hlength : i < xs.length := hitems.length_eq ▸ hi
  exact ⟨xs[i], List.getElem_mem hlength, hitems.get hlength hi⟩

/-- What was read is written if each item was. -/
theorem eq_map_of_mapM {α β : Type} {read : α → Option β} {write : β → α} {xs : List α}
    {ys : List β} (hread : xs.mapM read = some ys)
    (h : ∀ x ∈ xs, ∀ y, read x = some y → x = write y) : xs = ys.map write := by
  have hitems := mapM_eq_some_iff.mp hread
  clear hread
  induction hitems with
  | nil => rfl
  | cons hy _ ih =>
    rw [List.map_cons, ← h _ List.mem_cons_self _ hy,
      ← ih fun x hx => h x (List.mem_cons_of_mem _ hx)]

/-- What is written is read if each item is. -/
theorem mapM_map_eq_some {α β : Type} {read : α → Option β} {write : β → α} {ys : List β}
    (h : ∀ y ∈ ys, read (write y) = some y) : (ys.map write).mapM read = some ys := by
  induction ys with
  | nil => rfl
  | cons y ys ih =>
    rw [List.map_cons, List.mapM_cons, h y List.mem_cons_self,
      ih fun y hy => h y (List.mem_cons_of_mem _ hy)]
    rfl

namespace Document

/-- What holds of leaves, of an array if it holds of its items, and of an object if it holds of what
is under its fields, holds of every document. -/
@[elab_as_elim]
theorem induction {P : Document → Prop} (null : P .null) (bool : ∀ b, P (.bool b))
    (number : ∀ n, P (.number n)) (string : ∀ s, P (.string s))
    (array : ∀ items, (∀ j ∈ items, P j) → P (.array items))
    (object : ∀ fields, (∀ f ∈ fields, P f.2) → P (.object fields)) : ∀ j, P j
  | .null => null
  | .bool b => bool b
  | .number n => number n
  | .string s => string s
  | .array items => array items fun j _ => induction null bool number string array object j
  | .object fields => object fields fun f hf => by
    have hsize : sizeOf f.2 < 1 + sizeOf fields := by
      have hfield := List.sizeOf_lt_of_mem hf
      obtain ⟨name, j⟩ := f
      rw [Prod.mk.sizeOf_spec] at hfield
      show sizeOf j < _
      omega
    exact induction null bool number string array object f.2

/-- Items nest as deep as the deepest one. -/
theorem depthItems_le_iff {items : List Document} {limit : Nat} :
    depthItems items ≤ limit ↔ ∀ j ∈ items, j.depth ≤ limit := by
  induction items with
  | nil => exact iff_of_true (Nat.zero_le _) nofun
  | cons j items ih => rw [depthItems, Nat.max_le, ih, List.forall_mem_cons]

/-- Whether a document is a part of another one, or the whole of it. -/
inductive Within (j : Document) : Document → Prop where
  /-- A document is within itself. -/
  | self : Within j j
  /-- It is within an item of an array. -/
  | item {items : List Document} {k : Document} (h : k ∈ items) (within : Within j k) :
    Within j (.array items)
  /-- It is within what an object has under a field. -/
  | field {fields : List (Option String × Document)} {f : Option String × Document}
    (h : f ∈ fields) (within : Within j f.2) : Within j (.object fields)

/-- Whether a document has the shape of a value. -/
structure Fits (j : Document) : Prop where
  /-- Every string in it is a text, without half a surrogate pair. -/
  strings : ∀ s, Within (.string s) j → s.isSome
  /-- Every number in it is an integer of 64 bits, and neither minus zero nor written with a
  fraction or an exponent. -/
  numbers : ∀ n, Within (.number n) j → ∃ i : Int, n = some i ∧ -2 ^ 63 ≤ i ∧ i < 2 ^ 63
  /-- Every object in it has the field `bytes`, once and alone, with an array of integers from 0 to
  255. -/
  objects : ∀ fields, Within (.object fields) j → ∃ items, fields = [(some "bytes", .array items)] ∧
    ∀ item ∈ items, ∃ n : Nat, n < 256 ∧ item = .number (some n)

/-- A number has the shape of a value if it is an integer of 64 bits. -/
theorem fits_number_iff {n : Option Int} :
    Fits (.number n) ↔ ∃ i : Int, n = some i ∧ -2 ^ 63 ≤ i ∧ i < 2 ^ 63 := by
  refine ⟨fun h => h.numbers n .self, fun h => ⟨?_, ?_, ?_⟩⟩
  · rintro s ⟨⟩
  · rintro m ⟨⟩
    exact h
  · rintro fields ⟨⟩

/-- A string has the shape of a value if it is a text. -/
theorem fits_string_iff {s : Option String} : Fits (.string s) ↔ s.isSome := by
  refine ⟨fun h => h.strings s .self, fun h => ⟨?_, ?_, ?_⟩⟩
  · rintro t ⟨⟩
    exact h
  · rintro n ⟨⟩
  · rintro fields ⟨⟩

/-- An array has the shape of a value if its items have. -/
theorem fits_array_iff {items : List Document} : Fits (.array items) ↔ ∀ j ∈ items, j.Fits := by
  constructor
  · intro h j hj
    exact ⟨fun s hs => h.strings s (.item hj hs), fun n hn => h.numbers n (.item hj hn),
      fun fields hf => h.objects fields (.item hj hf)⟩
  · refine fun h => ⟨?_, ?_, ?_⟩
    · rintro s (_ | ⟨hj, hs⟩)
      exact (h _ hj).strings s hs
    · rintro n (_ | ⟨hj, hn⟩)
      exact (h _ hj).numbers n hn
    · rintro fields (_ | ⟨hj, hf⟩)
      exact (h _ hj).objects fields hf

/-- An object has the shape of a value if it has the field `bytes` alone, with bytes under it. -/
theorem fits_object_iff {fields : List (Option String × Document)} :
    Fits (.object fields) ↔ ∃ items, fields = [(some "bytes", .array items)] ∧
      ∀ item ∈ items, ∃ n : Nat, n < 256 ∧ item = .number (some n) := by
  refine ⟨fun h => h.objects fields .self, ?_⟩
  rintro ⟨items, rfl, hitems⟩
  have hfits : Fits (.array items) := by
    refine fits_array_iff.mpr fun j hj => ?_
    obtain ⟨n, hn, rfl⟩ := hitems j hj
    exact fits_number_iff.mpr ⟨n, rfl, by omega, by omega⟩
  -- Apart from the object itself, what is within it is within the array.
  refine ⟨?_, ?_, ?_⟩
  · rintro s (_ | _ | ⟨hf, hs⟩)
    obtain rfl := List.mem_singleton.mp hf
    exact hfits.strings s hs
  · rintro n (_ | _ | ⟨hf, hn⟩)
    obtain rfl := List.mem_singleton.mp hf
    exact hfits.numbers n hn
  · rintro fields (_ | _ | ⟨hf, hfields⟩)
    · exact ⟨items, rfl, hitems⟩
    · obtain rfl := List.mem_singleton.mp hf
      exact hfits.objects fields hfields

end Document

namespace Value

/-! ## Documents of values -/

/-- The documents of items are those of each. -/
theorem documents_eq_map (vs : List Value) : documents vs = vs.map document := by
  induction vs with
  | nil => rfl
  | cons v vs ih => rw [documents, ih, List.map_cons]

/-- Items are read one by one. -/
theorem ofDocuments?_eq_mapM (js : List Document) : ofDocuments? js = js.mapM ofDocument? := by
  induction js with
  | nil => rfl
  | cons j js ih => rw [ofDocuments?, ih, List.mapM_cons]

/-- An integer of 64 bits is read from its number and from nothing else. -/
theorem int64?_eq_some_iff {n : Int} {i : Int64} : int64? n = some i ↔ n = i.toInt := by
  unfold int64?
  constructor
  · intro h
    split_ifs at h with hrange
    rw [← Option.some_inj.mp h]
    exact (Int64.toInt_ofInt_of_le hrange.1 (Int.lt_add_one_iff.mpr hrange.2)).symm
  · rintro rfl
    rw [if_pos ⟨i.minValue_le_toInt, i.toInt_le⟩, Int64.ofInt_toInt]

/-- A number is read as an integer of 64 bits if it is one. -/
theorem exists_int64?_iff {n : Int} : (∃ i, int64? n = some i) ↔ -2 ^ 63 ≤ n ∧ n < 2 ^ 63 := by
  have hmin : Int64.minValue.toInt = -2 ^ 63 := by decide
  have hmax : Int64.maxValue.toInt = 2 ^ 63 - 1 := by decide
  unfold int64?
  rw [hmin, hmax]
  constructor
  · rintro ⟨i, h⟩
    split_ifs at h with hrange
    omega
  · rintro ⟨hlow, hhigh⟩
    exact ⟨_, if_pos ⟨hlow, by omega⟩⟩

/-- A byte is read from its number and from nothing else. -/
theorem byte?_eq_some_iff {j : Document} {b : UInt8} :
    byte? j = some b ↔ j = .number (some b.toNat) := by
  constructor
  · intro h
    unfold byte? at h
    split at h
    · rename_i n
      split_ifs at h with hrange
      have hlt : n.toNat < 256 := by omega
      have hb : (n.toNat.toUInt8).toNat = n.toNat := UInt8.toNat_ofNat_of_lt' hlt
      rw [← Option.some_inj.mp h, hb, Int.toNat_of_nonneg hrange.1]
    · cases h
  · rintro rfl
    have hlt : b.toNat < 256 := b.toNat_lt
    simp [byte?, hlt]

/-- An object is read as a byte string if it has the field `bytes` alone, with bytes under it. -/
theorem ofDocument?_object_iff {fields : List (Option String × Document)} {v : Value} :
    ofDocument? (.object fields) = some v ↔ ∃ items data,
      fields = [(some "bytes", .array items)] ∧ items.mapM byte? = some data ∧
        v = .bytes data := by
  constructor
  · intro h
    unfold ofDocument? at h
    split at h
    -- No other case of the reader takes an object.
    case h_6 items heq =>
      obtain ⟨data, hdata, rfl⟩ := Option.map_eq_some_iff.mp h
      exact ⟨items, data, Document.object.inj heq, hdata, rfl⟩
    all_goals first | (cases h; done) | (rename_i heq; cases heq)
  · rintro ⟨items, data, rfl, hdata, rfl⟩
    show (items.mapM byte?).map bytes = _
    rw [hdata]
    rfl

/-- A value is read from its document. -/
theorem ofDocument?_document (v : Value) : ofDocument? v.document = some v := by
  induction v using Value.induction with
  | null | bool _ | text _ => rfl
  | integer n =>
    show (int64? n.toInt).map integer = _
    rw [int64?_eq_some_iff.mpr rfl]
    rfl
  | array items ih =>
    show (ofDocuments? (documents items)).map array = _
    rw [documents_eq_map, ofDocuments?_eq_mapM, mapM_map_eq_some ih]
    rfl
  | bytes data =>
    show (List.mapM byte? (data.map fun b => .number (some b.toNat))).map bytes = _
    rw [mapM_map_eq_some fun b _ => byte?_eq_some_iff.mpr rfl]
    rfl

/-- A document that is read as a value is the document of that value. -/
theorem eq_document_of_ofDocument? {j : Document} {v : Value} (h : ofDocument? j = some v) :
    j = v.document := by
  induction j using Document.induction generalizing v with
  | null | bool b => cases h; rfl
  | number n =>
    cases n with
    | none => cases h
    | some n =>
      obtain ⟨i, hi, rfl⟩ := Option.map_eq_some_iff.mp h
      rw [document, int64?_eq_some_iff.mp hi]
  | string s =>
    cases s with
    | none => cases h
    | some s => cases h; rfl
  | array items ih =>
    obtain ⟨vs, hvs, rfl⟩ := Option.map_eq_some_iff.mp h
    rw [ofDocuments?_eq_mapM] at hvs
    rw [document, documents_eq_map, ← eq_map_of_mapM hvs fun j hj v => ih j hj]
  | object fields =>
    obtain ⟨items, data, rfl, hdata, rfl⟩ := ofDocument?_object_iff.mp h
    rw [document, ← eq_map_of_mapM hdata fun j _ b => byte?_eq_some_iff.mp]

/-- A value is read from its document and from nothing else. -/
theorem ofDocument?_eq_some_iff {j : Document} {v : Value} :
    ofDocument? j = some v ↔ j = v.document :=
  ⟨eq_document_of_ofDocument?, fun h => h ▸ ofDocument?_document v⟩

/-- With a limit, so it is for the documents that nest within it. -/
theorem ofDocumentWithin?_eq_some_iff {limit : Nat} {j : Document} {v : Value} :
    ofDocumentWithin? limit j = some v ↔ j = v.document ∧ v.document.depth ≤ limit := by
  unfold ofDocumentWithin?
  constructor
  · intro h
    split_ifs at h with hdepth
    obtain rfl := eq_document_of_ofDocument? h
    exact ⟨rfl, hdepth⟩
  · rintro ⟨rfl, hdepth⟩
    rw [if_pos hdepth, ofDocument?_document]

/-- An array is read if its items are. -/
theorem exists_ofDocument?_array_iff {items : List Document} :
    (∃ v, ofDocument? (.array items) = some v) ↔ ∀ j ∈ items, ∃ v, ofDocument? j = some v := by
  rw [← exists_mapM_iff, ← ofDocuments?_eq_mapM]
  constructor
  · rintro ⟨v, h⟩
    obtain ⟨vs, hvs, -⟩ := Option.map_eq_some_iff.mp h
    exact ⟨vs, hvs⟩
  · rintro ⟨vs, hvs⟩
    exact ⟨array vs, Option.map_eq_some_iff.mpr ⟨vs, hvs, rfl⟩⟩

/-- A byte is read from the integers from 0 to 255. -/
theorem exists_byte?_iff {j : Document} :
    (∃ b, byte? j = some b) ↔ ∃ n : Nat, n < 256 ∧ j = .number (some n) := by
  constructor
  · rintro ⟨b, h⟩
    exact ⟨b.toNat, b.toNat_lt, byte?_eq_some_iff.mp h⟩
  · rintro ⟨n, hn, rfl⟩
    refine ⟨n.toUInt8, byte?_eq_some_iff.mpr ?_⟩
    rw [show n.toUInt8.toNat = n from UInt8.toNat_ofNat_of_lt' hn]

/-- A document is read as a value exactly if it has the shape of one. -/
theorem exists_ofDocument?_iff (j : Document) : (∃ v, ofDocument? j = some v) ↔ j.Fits := by
  induction j using Document.induction with
  | null => exact iff_of_true ⟨null, rfl⟩ ⟨nofun, nofun, nofun⟩
  | bool b => exact iff_of_true ⟨bool b, rfl⟩ ⟨nofun, nofun, nofun⟩
  | number n =>
    rw [Document.fits_number_iff]
    cases n with
    | none => exact iff_of_false nofun nofun
    | some n =>
      have hread : (∃ v, ofDocument? (.number (some n)) = some v) ↔ ∃ i, int64? n = some i := by
        simp [ofDocument?]
      rw [hread, exists_int64?_iff]
      simp
  | string s =>
    rw [Document.fits_string_iff]
    cases s with
    | none => exact iff_of_false nofun nofun
    | some s => exact iff_of_true ⟨text s, rfl⟩ rfl
  | array items ih =>
    rw [exists_ofDocument?_array_iff, Document.fits_array_iff]
    exact forall₂_congr ih
  -- An object has to have exactly the one field of bytes, and in it a list of numbers below 256.
  | object fields ih =>
    rw [Document.fits_object_iff]
    simp only [← exists_byte?_iff, ← exists_mapM_iff, ofDocument?_object_iff]
    constructor
    · rintro ⟨v, items, data, hfields, hdata, -⟩
      exact ⟨items, hfields, data, hdata⟩
    · rintro ⟨items, hfields, data, hdata⟩
      exact ⟨bytes data, items, data, hfields, hdata, rfl⟩

/-- The document of a byte string is an array within an object. -/
theorem depth_bytes (data : List UInt8) : (bytes data).document.depth ≤ 2 := by
  have hitems : Document.depthItems (data.map fun b => .number (some b.toNat)) ≤ 0 := by
    refine Document.depthItems_le_iff.mpr fun j hj => ?_
    obtain ⟨b, -, rfl⟩ := List.mem_map.mp hj
    exact Nat.le_refl _
  simp only [document, Document.depth, Document.depthFields]
  omega

/-! ## Texts of values -/

/-- A value is read back from its text if that nests within the limit, and refused otherwise. -/
theorem parse?_print (v : Value) :
    parse? v.print = if v.document.depth ≤ Document.depthLimit then some v else none := by
  show (Document.parse? v.document.compress).bind (ofDocumentWithin? Document.depthLimit) = _
  rw [Document.parse?_compress]
  show ofDocumentWithin? Document.depthLimit v.document = _
  rw [ofDocumentWithin?, ofDocument?_document]

/-- A text is read as a value if it is that of the value's document and nests within the limit. -/
theorem parse?_eq_some_iff {s : String} {v : Value} :
    parse? s = some v ↔
      Document.parse? s = some v.document ∧ v.document.depth ≤ Document.depthLimit := by
  show (Document.parse? s).bind (ofDocumentWithin? Document.depthLimit) = _ ↔ _
  rw [Option.bind_eq_some_iff]
  constructor
  · rintro ⟨j, hj, h⟩
    obtain ⟨rfl, hdepth⟩ := ofDocumentWithin?_eq_some_iff.mp h
    exact ⟨hj, hdepth⟩
  · rintro ⟨hj, hdepth⟩
    exact ⟨_, hj, ofDocumentWithin?_eq_some_iff.mpr ⟨rfl, hdepth⟩⟩

/-- Values with the same text are the same. -/
theorem print_injective : Function.Injective print := by
  intro v w h
  -- The document is read back from the text however deep it is nested, other than the value.
  have hdocument : v.document = w.document := by
    have hparse : Document.parse? v.document.compress = Document.parse? w.document.compress :=
      congrArg Document.parse? h
    rwa [Document.parse?_compress, Document.parse?_compress, Option.some_inj] at hparse
  exact Option.some_inj.mp ((ofDocument?_document v).symm.trans
    (hdocument ▸ ofDocument?_document w))

/-- Printing and reading values are inverse to each other. A value is read back from its text if
that nests within the limit, which the text of a byte string always does, and otherwise nothing is;
no two values share a text. A value that was read is read again from its own text. A text that holds
a document is read exactly if the document has the shape of a value and nests within the limit. -/
theorem print_and_parse_agree :
    (∀ v : Value,
      parse? v.print = if v.document.depth ≤ Document.depthLimit then some v else none) ∧
    (∀ data, parse? (bytes data).print = some (bytes data)) ∧
    (∀ v w : Value, v.print = w.print → v = w) ∧
    (∀ s v, parse? s = some v → parse? v.print = some v) ∧
    ∀ s j, Document.parse? s = some j →
      ((∃ v, parse? s = some v) ↔ j.Fits ∧ j.depth ≤ Document.depthLimit) := by
  refine ⟨parse?_print, fun data => ?_, print_injective, fun s v h => ?_, fun s j hs => ?_⟩
  · have hdepth : (bytes data).document.depth ≤ Document.depthLimit :=
      (depth_bytes data).trans (by decide)
    rw [parse?_print, if_pos hdepth]
  · rw [parse?_print, if_pos (parse?_eq_some_iff.mp h).2]
  · constructor
    · rintro ⟨v, h⟩
      obtain ⟨hv, hdepth⟩ := parse?_eq_some_iff.mp h
      obtain rfl := Option.some_inj.mp (hs.symm.trans hv)
      exact ⟨(exists_ofDocument?_iff _).mp ⟨v, ofDocument?_document v⟩, hdepth⟩
    · rintro ⟨hfits, hdepth⟩
      obtain ⟨v, hv⟩ := (exists_ofDocument?_iff j).mpr hfits
      obtain rfl := eq_document_of_ofDocument? hv
      exact ⟨v, parse?_eq_some_iff.mpr ⟨hs, hdepth⟩⟩

/-- A byte string beside an array of the same integers, the least integer, and a text of characters
that are escaped or stand for a surrogate pair. -/
def mixed : Value :=
  .array [.bytes [0, 255], .array [.integer 0, .integer 255], .integer Int64.minValue,
    .text "\x00\"\\😀"]

/-- It is read from a text with blanks and other escapes, and again from its own text. A text with
an integer that is too small is not read. -/
theorem print_and_parse_agree_mixed :
    parse? mixed.print = some mixed ∧
      parse? ("[ \x7b\"bytes\": [0, 255]\x7d, [0,255], -9223372036854775808, " ++
        "\"\\u0000\\u0022\\\\\\ud83d\\ude00\"]") = some mixed ∧
      ¬ ∃ v, parse? "[-9223372036854775809]" = some v := by
  have htext : parse? ("[ \x7b\"bytes\": [0, 255]\x7d, [0,255], -9223372036854775808, " ++
      "\"\\u0000\\u0022\\\\\\ud83d\\ude00\"]") = some mixed := by decide +kernel
  have hsmall : Document.parse? "[-9223372036854775809]" =
      some (.array [.number (some (-9223372036854775809))]) := by
    have hprint : "[-9223372036854775809]" =
        Document.compress (.array [.number (some (-9223372036854775809))]) := by decide +kernel
    rw [hprint, Document.parse?_compress]
  refine ⟨print_and_parse_agree.2.2.2.1 _ mixed htext, htext, ?_⟩
  rw [print_and_parse_agree.2.2.2.2 _ _ hsmall]
  rintro ⟨hfits, -⟩
  obtain ⟨i, hi, hlow, -⟩ := hfits.numbers _ (.item List.mem_cons_self .self)
  obtain rfl := Option.some_inj.mp hi
  omega

end Value

end TxStore
