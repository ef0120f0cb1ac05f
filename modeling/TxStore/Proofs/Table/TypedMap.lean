import Mathlib.Data.List.Pairwise
import Mathlib.Data.List.Perm.Basic
import Mathlib.Logic.Function.Basic
import TxStore.Proofs.Table.Memory

/-!
# A memory table is a typed map with a canonical listing

A memory table is meant to be a map from keys to values with declared kinds: a `TypedMap`, which
says on its own what each call is told and what it changes. Along every history of calls the table
tells what the map tells and holds what the map holds. Its rows fit the declared kinds and stand in
strictly ascending order of their keys (`Rows.Ascending`), and since that order is total, the list
of the rows is determined by the map alone: histories that end in the same rows end in the same
listing (`performs_typed_map`).
-/

namespace TxStore

/-! ## Rows in ascending order -/

namespace Rows

variable {key value : Value} {rows : List (Value × Value)} {r r' : Rows}

/-- Whether rows stand in strictly ascending order of their keys. -/
def Ascending (rows : List (Value × Value)) : Prop :=
  rows.Pairwise fun a b => a.1.Before b.1

/-- Placing a row adds nothing else. -/
theorem mem_of_mem_place {row : Value × Value} (h : row ∈ place key value rows) :
    row = (key, value) ∨ row ∈ rows := by
  induction rows with
  | nil => exact .inl (List.mem_singleton.mp h)
  | cons first rest ih =>
    unfold place at h
    split at h
    · exact List.mem_cons.mp h
    · exact (List.mem_cons.mp h).imp_right (List.mem_cons_of_mem _)
    · rcases List.mem_cons.mp h with rfl | hrest
      · exact .inr List.mem_cons_self
      · exact (ih hrest).imp_right (List.mem_cons_of_mem _)

/-- Placing a row keeps the order. -/
theorem Ascending.place (h : Ascending rows) (key value : Value) :
    Ascending (place key value rows) := by
  induction rows with
  | nil => exact List.pairwise_singleton _ _
  | cons first rest ih =>
    obtain ⟨hfirst, hrest⟩ := List.pairwise_cons.mp h
    unfold Rows.place
    cases hcompare : key.compare first.1 with
    | lt =>
      have hkey : key.Before first.1 := (Value.compare_eq_lt_iff _ _).mp hcompare
      refine List.pairwise_cons.mpr ⟨fun row hrow => ?_, h⟩
      rcases List.mem_cons.mp hrow with rfl | hrow
      · exact hkey
      · exact hkey.trans (hfirst row hrow)
    -- The new value takes the place of the old one under the same key.
    | eq =>
      obtain rfl : key = first.1 := Value.eq_of_compare _ _ hcompare
      exact List.pairwise_cons.mpr ⟨hfirst, hrest⟩
    | gt =>
      -- What is placed further back is the new row or one that was there.
      refine List.pairwise_cons.mpr ⟨fun row hrow => ?_, ih hrest⟩
      rcases mem_of_mem_place hrow with rfl | hrow
      · exact (Value.compare_eq_gt_iff _ _).mp hcompare
      · exact hfirst row hrow

/-- In ascending order a row is found under its key, and what is found is a row. -/
theorem Ascending.mem_iff (h : Ascending rows) :
    (key, value) ∈ rows ↔ find? key rows = some value := by
  induction rows with
  | nil => exact ⟨nofun, nofun⟩
  | cons first rest ih =>
    obtain ⟨hfirst, hrest⟩ := List.pairwise_cons.mp h
    rw [find?_cons, List.mem_cons, ih hrest]
    split
    · rename_i heq
      constructor
      · rintro (rfl | hfound)
        · rfl
        · -- A row behind the first one has a key that comes later.
          have hbefore := hfirst _ ((ih hrest).mpr hfound)
          exact absurd (heq ▸ hbefore) (Value.not_before_self key)
      · intro hvalue
        cases hvalue
        exact .inl (Prod.ext heq.symm rfl)
    · rename_i hne
      refine ⟨fun hmem => hmem.resolve_left ?_, .inr⟩
      rintro rfl
      exact hne rfl

/-- In ascending order no row is there twice. -/
theorem Ascending.nodup (h : Ascending rows) : rows.Nodup := by
  unfold Ascending at h
  refine h.imp fun {a b} hbefore => ?_
  rintro rfl
  exact Value.not_before_self _ hbefore

/-- Rows in ascending order are determined by what is found under each key. -/
theorem Ascending.eq_of_find? {rows' : List (Value × Value)} (h : Ascending rows)
    (h' : Ascending rows') (hsame : ∀ key, find? key rows = find? key rows') : rows = rows' := by
  have hperm : rows.Perm rows' :=
    (List.perm_ext_iff_of_nodup h.nodup h'.nodup).mpr fun row => by
      rw [h.mem_iff, h'.mem_iff, hsame]
  refine hperm.eq_of_pairwise (fun a b _ _ hab hba => ?_) h h'
  exact absurd (hab.trans hba) (Value.not_before_self _)

end Rows

/-! ## Typed maps -/

/-- A map from keys to values with declared kinds. -/
structure TypedMap where
  /-- The declared kind of the keys. -/
  keyKind : Kind
  /-- The declared kind of the values. -/
  valueKind : Kind
  /-- The value under each key. -/
  find : Value → Option Value

/-- A call of a table. -/
inductive MemoryTable.Call where
  /-- Insert or overwrite a row. -/
  | put (key value : Value)
  /-- Read the row under a key. -/
  | get (key : Value)
  /-- Remove a row, which must be there. -/
  | delete (key : Value)
  /-- Check a key, and a value if there is one. -/
  | validate (key : Value) (value : Option Value)
  /-- Put rows one after the other, up to the first that does not fit. -/
  | load (rows : List (Value × Value))

/-- What a call is told: a value for a read, nothing for any other call, or an error. -/
abbrev MemoryTable.Reply := Except TableError (Option Value)

namespace TypedMap

open MemoryTable (Call Reply)

variable (m : TypedMap)

/-- What is wrong with a key, and with a value if there is one; the key is judged first. -/
def mismatch? (key : Value) (value : Option Value) : Option TableError :=
  if m.keyKind.accepts key = false then some (.typeMismatch .key m.keyKind key.kind)
  else (value.filter fun v => m.valueKind.accepts v = false).map fun v =>
    .typeMismatch .value m.valueKind v.kind

/-- Whether a row fits the declared kinds. -/
def Fits (row : Value × Value) : Prop :=
  m.keyKind.accepts row.1 ∧ m.valueKind.accepts row.2

/-- It can be found out from the kinds of the row. -/
instance (row : Value × Value) : Decidable (m.Fits row) :=
  inferInstanceAs (Decidable (_ ∧ _))

/-- The map with another value under a key, or with none. -/
def set (key : Value) (value : Option Value) : TypedMap :=
  { m with find := Function.update m.find key value }

/-- The map after rows have been set one after the other. -/
def setAll (rows : List (Value × Value)) : TypedMap :=
  rows.foldl (fun m row => m.set row.1 (some row.2)) m

/-- What a call is told, and the map after it. -/
def perform : Call → Reply × TypedMap
  | .put key value =>
    match m.mismatch? key (some value) with
    | some e => (.error e, m)
    | none => (.ok none, m.set key (some value))
  | .get key =>
    match m.mismatch? key none, m.find key with
    | some e, _ => (.error e, m)
    | none, some value => (.ok (some value), m)
    | none, none => (.error (.keyNotFound key), m)
  | .delete key =>
    match m.mismatch? key none, m.find key with
    | some e, _ => (.error e, m)
    | none, some _ => (.ok none, m.set key none)
    | none, none => (.error (.keyNotFound key), m)
  | .validate key value =>
    match m.mismatch? key value with
    | some e => (.error e, m)
    | none => (.ok none, m)
  | .load rows =>
    let fitting := m.setAll (rows.takeWhile m.Fits)
    match (rows.find? fun row => ¬ m.Fits row).bind fun row => m.mismatch? row.1 (some row.2) with
    | some e => (.error e, fitting)
    | none => (.ok none, fitting)

/-- What the calls of a history are told, one after the other, and the map after them. -/
def history (m : TypedMap) : List Call → List Reply × TypedMap
  | [] => ([], m)
  | call :: rest =>
    let (reply, m) := m.perform call
    let (replies, m) := m.history rest
    (reply :: replies, m)

/-- Nothing is wrong with a row exactly if it fits. -/
theorem mismatch?_eq_none_iff {row : Value × Value} :
    m.mismatch? row.1 (some row.2) = none ↔ m.Fits row := by
  unfold mismatch? Fits
  cases hkey : m.keyKind.accepts row.1 with
  | false => simp
  | true => cases hvalue : m.valueKind.accepts row.2 <;> simp [hvalue, Option.filter]

/-- A row fits, or something is wrong with it. -/
theorem fits_or_mismatch (row : Value × Value) :
    m.Fits row ∨ ∃ e, m.mismatch? row.1 (some row.2) = some e := by
  cases hwrong : m.mismatch? row.1 (some row.2) with
  | none => exact .inl (m.mismatch?_eq_none_iff.mp hwrong)
  | some e => exact .inr ⟨e, rfl⟩

/-- The kinds are those before a call. -/
theorem kinds_perform (call : Call) :
    (m.perform call).2.keyKind = m.keyKind ∧ (m.perform call).2.valueKind = m.valueKind := by
  cases call with
  | load rows =>
    have hset : ∀ (rows : List (Value × Value)) (m : TypedMap),
        (m.setAll rows).keyKind = m.keyKind ∧ (m.setAll rows).valueKind = m.valueKind := by
      intro rows
      induction rows with
      | nil => exact fun m => ⟨rfl, rfl⟩
      | cons row rest ih => exact fun m => ih (m.set row.1 (some row.2))
    unfold perform
    dsimp only
    split <;> exact hset _ m
  | _ =>
    unfold perform
    dsimp only
    split <;> exact ⟨rfl, rfl⟩

/-- They are those before a history. -/
theorem kinds_history (calls : List Call) :
    (m.history calls).2.keyKind = m.keyKind ∧ (m.history calls).2.valueKind = m.valueKind := by
  induction calls generalizing m with
  | nil => exact ⟨rfl, rfl⟩
  | cons call rest ih =>
    obtain ⟨hkey, hvalue⟩ := m.kinds_perform call
    obtain ⟨hkeys, hvalues⟩ := ih (m.perform call).2
    exact ⟨hkeys.trans hkey, hvalues.trans hvalue⟩

/-- A row that fits is set, and then the rest is loaded. -/
theorem perform_load_of_fits {row : Value × Value} (h : m.Fits row) (rest : List (Value × Value)) :
    m.perform (.load (row :: rest)) = (m.set row.1 (some row.2)).perform (.load rest) := by
  have hfind : (row :: rest).find? (fun row => ¬ m.Fits row) =
      rest.find? fun row => ¬ m.Fits row := List.find?_cons_of_neg (by simp [h])
  have htake : (row :: rest).takeWhile (m.Fits ·) = row :: rest.takeWhile (m.Fits ·) :=
    List.takeWhile_cons_of_pos (by simp [h])
  unfold perform
  dsimp only
  rw [hfind, htake]
  rfl

/-- Nothing is loaded from a row on that does not fit. -/
theorem perform_load_of_mismatch {row : Value × Value} {e : TableError}
    (h : m.mismatch? row.1 (some row.2) = some e) (rest : List (Value × Value)) :
    m.perform (.load (row :: rest)) = (.error e, m) := by
  have hfits : ¬ m.Fits row := fun hfits => by
    cases h.symm.trans (m.mismatch?_eq_none_iff.mpr hfits)
  have hfind : (row :: rest).find? (fun row => ¬ m.Fits row) = some row :=
    List.find?_cons_of_pos (by simp [hfits])
  have htake : (row :: rest).takeWhile (m.Fits ·) = [] :=
    List.takeWhile_cons_of_neg (by simp [hfits])
  unfold perform
  dsimp only
  rw [hfind, htake, Option.bind_some, h]
  rfl

end TypedMap

namespace MemoryTable

variable {t t' : MemoryTable} {key value : Value}

/-- What a call is told, and the table after it. -/
def perform (t : MemoryTable) : Call → Reply × MemoryTable
  | .put key value =>
    match t.put key value with
    | .ok t' => (.ok none, t')
    | .error e => (.error e, t)
  | .get key => ((t.get key).map some, t)
  | .delete key =>
    match t.delete key with
    | .ok t' => (.ok none, t')
    | .error e => (.error e, t)
  | .validate key value => ((t.check key value).map fun _ => none, t)
  | .load rows => ((t.load rows).2.map fun _ => none, (t.load rows).1)

/-- What the calls of a history are told, one after the other, and the table after them. -/
def history (t : MemoryTable) : List Call → List Reply × MemoryTable
  | [] => ([], t)
  | call :: rest =>
    let (reply, t) := t.perform call
    let (replies, t) := t.history rest
    (reply :: replies, t)

/-- The map that a table stands for. -/
def typedMap (t : MemoryTable) : TypedMap :=
  ⟨t.keyKind, t.valueKind, t.rows.get?⟩

/-- What holds of a table at any time. -/
structure Sound (t : MemoryTable) : Prop where
  /-- The rows stand in the order of their keys. -/
  ascending : Rows.Ascending t.listing
  /-- They fit the declared kinds. -/
  fits : ∀ row ∈ t.listing, t.typedMap.Fits row

/-! ## A table and the map that it stands for -/

/-- A check fails with what the map finds wrong. -/
theorem check_eq (t : MemoryTable) (key : Value) (value : Option Value) :
    t.check key value =
      match t.typedMap.mismatch? key value with
      | some e => .error e
      | none => .ok () := by
  unfold check TypedMap.mismatch?
  cases hkey : t.keyKind.accepts key with
  | false => simp [typedMap, hkey]
  | true =>
    cases value with
    | none => simp [typedMap, hkey]
    | some v =>
      cases hvalue : t.valueKind.accepts v <;> simp [typedMap, hkey, hvalue, Option.filter]

/-- A row that is inserted is set in the map. -/
theorem typedMap_insert (t : MemoryTable) (key value : Value) :
    { t with rows := t.rows.insert key value }.typedMap = t.typedMap.set key (some value) := by
  refine congrArg (TypedMap.mk t.keyKind t.valueKind) (funext fun j => ?_)
  rw [Rows.get?_insert, Function.update_apply]
  exact if_congr eq_comm rfl rfl

/-- A row that is erased has no value in the map. -/
theorem typedMap_erase (t : MemoryTable) (key : Value) :
    { t with rows := t.rows.erase key }.typedMap = t.typedMap.set key none := by
  refine congrArg (TypedMap.mk t.keyKind t.valueKind) (funext fun j => ?_)
  rw [Rows.get?_erase, Function.update_apply]
  exact if_congr eq_comm rfl rfl

/-- Where nothing is wrong the check succeeds. -/
theorem check_of_none {value : Option Value} (h : t.typedMap.mismatch? key value = none) :
    t.check key value = .ok () := by
  rw [check_eq, h]

/-- What is wrong is what the check reports. -/
theorem check_of_some {value : Option Value} {e : TableError}
    (h : t.typedMap.mismatch? key value = some e) : t.check key value = .error e := by
  rw [check_eq, h]

/-- A row that fits is inserted. -/
theorem put_of_fits {row : Value × Value} (h : t.typedMap.Fits row) :
    t.put row.1 row.2 = .ok { t with rows := t.rows.insert row.1 row.2 } :=
  put_eq (check_of_none (t.typedMap.mismatch?_eq_none_iff.mpr h))

/-- What is wrong with a row is why it is not written. -/
theorem put_of_mismatch {e : TableError} (h : t.typedMap.mismatch? key (some value) = some e) :
    t.put key value = .error e := by
  unfold put
  rw [check_of_some h]
  rfl

/-- What is wrong with a key is why nothing is read under it. -/
theorem get_of_mismatch {e : TableError} (h : t.typedMap.mismatch? key none = some e) :
    t.get key = .error e := by
  unfold get
  rw [check_of_some h]
  rfl

/-- What is wrong with a key is why nothing is removed under it. -/
theorem delete_of_mismatch {e : TableError} (h : t.typedMap.mismatch? key none = some e) :
    t.delete key = .error e := by
  unfold delete
  rw [check_of_some h]
  rfl

/-- What is removed is erased. -/
theorem eq_of_delete (h : t.delete key = .ok t') : t' = { t with rows := t.rows.erase key } := by
  cases hwrong : t.typedMap.mismatch? key none with
  | none =>
    rw [delete_eq (check_of_none hwrong)] at h
    split at h
    · cases h
      rfl
    · cases h
  | some e => cases (delete_of_mismatch hwrong).symm.trans h

/-- Loading puts a row that fits, and then loads the rest. -/
theorem load_cons_of_fits {row : Value × Value} (h : t.typedMap.Fits row)
    (rest : List (Value × Value)) :
    t.load (row :: rest) = { t with rows := t.rows.insert row.1 row.2 }.load rest := by
  rw [load, put_of_fits h]

/-- Loading ends at a row that does not fit. -/
theorem load_cons_of_mismatch {row : Value × Value} {e : TableError}
    (h : t.typedMap.mismatch? row.1 (some row.2) = some e) (rest : List (Value × Value)) :
    t.load (row :: rest) = (t, .error e) := by
  rw [load, put_of_mismatch h]

/-- Rows are put up to the first that does not fit. -/
theorem load_eq (t : MemoryTable) (rows : List (Value × Value)) :
    ((t.load rows).2.map fun _ => none, (t.load rows).1.typedMap) =
      t.typedMap.perform (.load rows) := by
  induction rows generalizing t with
  | nil => rfl
  | cons row rest ih =>
    rcases t.typedMap.fits_or_mismatch row with hfits | ⟨e, hwrong⟩
    · rw [load_cons_of_fits hfits, t.typedMap.perform_load_of_fits hfits, ← typedMap_insert]
      exact ih _
    · rw [load_cons_of_mismatch hwrong, t.typedMap.perform_load_of_mismatch hwrong]
      rfl

/-- A call is told what the map tells, and changes the map as the map says. -/
theorem perform_eq (t : MemoryTable) (call : Call) :
    ((t.perform call).1, (t.perform call).2.typedMap) = t.typedMap.perform call := by
  -- In each call the check comes first: what does not fit is refused by both in the same words.
  cases call with
  | put key value =>
    cases hwrong : t.typedMap.mismatch? key (some value) with
    | none =>
      have hfits : t.typedMap.Fits (key, value) := t.typedMap.mismatch?_eq_none_iff.mp hwrong
      simp only [perform, TypedMap.perform, hwrong, put_of_fits hfits, typedMap_insert]
    | some e => simp only [perform, TypedMap.perform, hwrong, put_of_mismatch hwrong]
  | get key =>
    cases hwrong : t.typedMap.mismatch? key none with
    | none =>
      have hget := get_eq (check_of_none hwrong)
      cases hfind : t.rows.get? key with
      | none =>
        have hmap : t.typedMap.find key = none := hfind
        simp only [perform, TypedMap.perform, hwrong, hmap, hget, hfind, Except.map]
      | some value =>
        have hmap : t.typedMap.find key = some value := hfind
        simp only [perform, TypedMap.perform, hwrong, hmap, hget, hfind, Except.map]
    | some e => simp only [perform, TypedMap.perform, hwrong, get_of_mismatch hwrong, Except.map]
  | delete key =>
    cases hwrong : t.typedMap.mismatch? key none with
    | none =>
      have hdelete := delete_eq (check_of_none hwrong)
      cases hfind : t.rows.get? key with
      | none =>
        have hmap : t.typedMap.find key = none := hfind
        simp only [perform, TypedMap.perform, hwrong, hmap, hdelete, hfind]
      | some value =>
        have hmap : t.typedMap.find key = some value := hfind
        simp only [perform, TypedMap.perform, hwrong, hmap, hdelete, hfind, typedMap_erase]
    | some e => simp only [perform, TypedMap.perform, hwrong, delete_of_mismatch hwrong]
  | validate key value =>
    cases hwrong : t.typedMap.mismatch? key value with
    | none => simp only [perform, TypedMap.perform, hwrong, check_of_none hwrong, Except.map]
    | some e => simp only [perform, TypedMap.perform, hwrong, check_of_some hwrong, Except.map]
  | load rows => exact t.load_eq rows

/-- So it is along a history. -/
theorem history_eq (t : MemoryTable) (calls : List Call) :
    ((t.history calls).1, (t.history calls).2.typedMap) = t.typedMap.history calls := by
  induction calls generalizing t with
  | nil => rfl
  | cons call rest ih =>
    unfold history TypedMap.history
    rw [← t.perform_eq call]
    dsimp only
    rw [← ih]

/-! ## Rows at any time -/

/-- A call that fails leaves the table as it was, unless it loads rows. -/
theorem perform_of_error {call : Call} {e : TableError} (h : (t.perform call).1 = .error e)
    (hload : ∀ rows, call ≠ .load rows) : (t.perform call).2 = t := by
  cases call with
  | put key value =>
    simp only [perform] at h ⊢
    cases hput : t.put key value with
    | ok t' => rw [hput] at h; cases h
    | error e => rfl
  | delete key =>
    simp only [perform] at h ⊢
    cases hdelete : t.delete key with
    | ok t' => rw [hdelete] at h; cases h
    | error e => rfl
  | get key => rfl
  | validate key value => rfl
  | load rows => exact absurd rfl (hload rows)

/-- Loading that fails has loaded the rows before the first that does not fit. -/
theorem load_of_error {rows : List (Value × Value)} {e : TableError}
    (h : (t.load rows).2 = .error e) :
    ∃ before row after, rows = before ++ row :: after ∧
      t.load before = ((t.load rows).1, .ok ()) ∧
      t.typedMap.mismatch? row.1 (some row.2) = some e := by
  induction rows generalizing t with
  | nil => cases h
  | cons row rest ih =>
    rcases t.typedMap.fits_or_mismatch row with hfits | ⟨e', hwrong⟩
    · rw [load_cons_of_fits hfits] at h ⊢
      obtain ⟨before, other, after, rfl, hbefore, hother⟩ := ih h
      refine ⟨row :: before, other, after, rfl, ?_, hother⟩
      rw [load_cons_of_fits hfits]
      exact hbefore
    · rw [load_cons_of_mismatch hwrong] at h ⊢
      cases h
      exact ⟨[], row, rest, rfl, rfl, hwrong⟩

/-- A new table has no rows. -/
theorem sound_new {name : String} {keyKind valueKind : Kind}
    (h : new name keyKind valueKind = .ok t) :
    t.Sound ∧ t.typedMap = ⟨keyKind, valueKind, fun _ => none⟩ := by
  unfold new at h
  split at h
  · cases h
  · cases h
    exact ⟨⟨List.Pairwise.nil, nofun⟩, rfl⟩

/-- A row that fits may be inserted. -/
theorem Sound.insert (h : t.Sound) {row : Value × Value} (hrow : t.typedMap.Fits row) :
    { t with rows := t.rows.insert row.1 row.2 }.Sound := by
  refine ⟨h.ascending.place row.1 row.2, fun other hother => ?_⟩
  rcases Rows.mem_of_mem_place hother with rfl | hmem
  · exact hrow
  · exact h.fits other hmem

/-- A row may be erased. -/
theorem Sound.erase (h : t.Sound) (key : Value) :
    { t with rows := t.rows.erase key }.Sound :=
  ⟨List.Pairwise.filter _ h.ascending, fun row hrow => h.fits row (List.mem_of_mem_filter hrow)⟩

/-- Rows may be put one after the other. -/
theorem Sound.load (h : t.Sound) (rows : List (Value × Value)) : (t.load rows).1.Sound := by
  induction rows generalizing t with
  | nil => exact h
  | cons row rest ih =>
    rcases t.typedMap.fits_or_mismatch row with hfits | ⟨e, hwrong⟩
    · rw [load_cons_of_fits hfits]
      exact ih (h.insert hfits)
    · rw [load_cons_of_mismatch hwrong]
      exact h

/-- Every call keeps the rows in order and of the declared kinds. -/
theorem Sound.perform (h : t.Sound) (call : Call) : (t.perform call).2.Sound := by
  cases call with
  | put key value =>
    simp only [MemoryTable.perform]
    rcases t.typedMap.fits_or_mismatch (key, value) with hfits | ⟨e, hwrong⟩
    · rw [put_of_fits hfits]
      exact h.insert hfits
    · rw [put_of_mismatch hwrong]
      exact h
  | delete key =>
    simp only [MemoryTable.perform]
    cases hdelete : t.delete key with
    | ok t' =>
      rw [eq_of_delete hdelete]
      exact h.erase key
    | error e => exact h
  | get key => exact h
  | validate key value => exact h
  | load rows => exact h.load rows

/-- So does every history. -/
theorem Sound.history (h : t.Sound) (calls : List Call) : (t.history calls).2.Sound := by
  induction calls generalizing t with
  | nil => exact h
  | cons call rest ih => exact ih (h.perform call)

/-- The listing has the rows that can be read. -/
theorem Sound.mem_listing_iff (h : t.Sound) :
    (key, value) ∈ t.listing ↔ t.get key = .ok value := by
  rw [show (key, value) ∈ t.listing ↔ t.rows.get? key = some value from h.ascending.mem_iff]
  cases hwrong : t.typedMap.mismatch? key none with
  | none =>
    rw [get_eq (check_of_none hwrong)]
    cases t.rows.get? key <;> simp
  | some e =>
    rw [get_of_mismatch hwrong]
    refine ⟨fun hvalue => ?_, nofun⟩
    -- A key that is refused is of no row.
    have hfits := h.fits _ (h.ascending.mem_iff.mpr hvalue)
    rw [TypedMap.mismatch?, if_neg (by rw [hfits.1]; exact Bool.noConfusion)] at hwrong
    cases hwrong

/-- Let a table be made with declared kinds and called any number of times, for whatever rows.

The calls are told, and the rows become, what a map from keys to values with these kinds says. Every
row is of the declared kinds. A call that fails leaves the rows as they are, except that loading
leaves the rows before the first that does not fit, and reports what is wrong with that one. The
listing stands in strictly ascending order of the keys, it has exactly the rows that can be read,
and every history that ends in the same rows, of whatever table, ends in the same listing. -/
theorem performs_typed_map {name : String} {keyKind valueKind : Kind} {first last : MemoryTable}
    {replies : List Reply} {calls : List Call} (hnew : new name keyKind valueKind = .ok first)
    (hhistory : first.history calls = (replies, last)) :
    TypedMap.history ⟨keyKind, valueKind, fun _ => none⟩ calls = (replies, last.typedMap) ∧
    (∀ row ∈ last.listing, keyKind.accepts row.1 ∧ valueKind.accepts row.2) ∧
    (∀ call e, (last.perform call).1 = .error e → (∀ rows, call ≠ .load rows) →
      (last.perform call).2 = last) ∧
    (∀ rows e, (last.load rows).2 = .error e → ∃ before row after, rows = before ++ row :: after ∧
      last.load before = ((last.load rows).1, .ok ()) ∧
      last.typedMap.mismatch? row.1 (some row.2) = some e) ∧
    last.listing.Pairwise (fun a b => a.1.Before b.1) ∧
    (∀ key value, (key, value) ∈ last.listing ↔ last.get key = .ok value) ∧
    ∀ {name' : String} {keyKind' valueKind' : Kind} {first' last' : MemoryTable}
      {replies' : List Reply} {calls' : List Call}, new name' keyKind' valueKind' = .ok first' →
      first'.history calls' = (replies', last') → last'.typedMap.find = last.typedMap.find →
      last'.listing = last.listing := by
  obtain ⟨hsound, hmap⟩ := sound_new hnew
  have hlast : last.Sound := by
    have hsound' := hsound.history calls
    rw [hhistory] at hsound'
    exact hsound'
  have hreplies := first.history_eq calls
  rw [hhistory, hmap] at hreplies
  have hkinds : last.typedMap.keyKind = keyKind ∧ last.typedMap.valueKind = valueKind := by
    rw [show last.typedMap = _ from congrArg Prod.snd hreplies]
    exact TypedMap.kinds_history _ calls
  refine ⟨hreplies.symm, ?_, fun call e => perform_of_error, fun rows e => load_of_error,
    hlast.ascending, fun key value => hlast.mem_listing_iff, ?_⟩
  · intro row hrow
    have hfits := hlast.fits row hrow
    rwa [TypedMap.Fits, hkinds.1, hkinds.2] at hfits
  · -- The listing is ascending in both histories, and an ascending listing is determined by what
    -- can be found in it.
    intro name' keyKind' valueKind' first' last' replies' calls' hnew' hhistory' hsame
    have hlast' : last'.Sound := by
      have hsound' := (sound_new hnew').1.history calls'
      rw [hhistory'] at hsound'
      exact hsound'
    exact hlast'.ascending.eq_of_find? hlast.ascending fun key => congrFun hsame key

/-- Calls on a table of composite keys: rows are loaded up to one of the wrong kind, a row is
overwritten, one is refused for its key and one for its value, and one is removed twice. -/
def restocking : List Call :=
  let key (n : Int64) : Value := .array [.integer n, .array [.text "w"]]
  [ .load [(key 2, .integer 20), (.array [], .integer 0), (key 1, .integer 10),
      (.integer 3, .null), (key 3, .integer 30)],
    .put (key 1) (.integer 11), .put (.text "w") .null, .put (key 1) .null, .get (key 1),
    .put (.array [.null, .bytes [7]]) (.integer 5), .delete (.array []), .delete (.array []),
    .validate (key 9) none ]

/-- The calls are told what is wrong, and the rows that are left are listed in order. -/
theorem performs_typed_map_restocking :
    ∃ first last replies, new "stock" .array .integer = .ok first ∧
      first.history restocking = (replies, last) ∧
      replies =
        [ .error (.typeMismatch .key .array .integer), .ok none,
          .error (.typeMismatch .key .array .text), .error (.typeMismatch .value .integer .null),
          .ok (some (.integer 11)), .ok none, .ok none, .error (.keyNotFound (.array [])),
          .ok none ] ∧
      last.listing =
        [ (.array [.null, .bytes [7]], .integer 5),
          (.array [.integer 1, .array [.text "w"]], .integer 11),
          (.array [.integer 2, .array [.text "w"]], .integer 20) ] ∧
      TypedMap.history ⟨.array, .integer, fun _ => none⟩ restocking = (replies, last.typedMap) ∧
      last.listing.Pairwise (fun a b => a.1.Before b.1) ∧
      ∀ key value, (key, value) ∈ last.listing ↔ last.get key = .ok value := by
  have hnew : new "stock" .array .integer = .ok ⟨"stock", .array, .integer, .empty⟩ := rfl
  obtain ⟨hmap, -, -, -, hascending, hlisting, -⟩ :=
    performs_typed_map hnew (Prod.mk.eta (p := history _ restocking)).symm
  refine ⟨_, _, _, hnew, Prod.mk.eta.symm, ?_, ?_, hmap, hascending, hlisting⟩
  · decide +kernel
  · decide +kernel

end MemoryTable

end TxStore
