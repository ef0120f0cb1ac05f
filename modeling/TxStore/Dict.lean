/-!
# Finite maps in order of first insertion

A `Dict κ α` is a list of entries in which no key occurs twice. An overwritten key keeps its place
and a new key goes to the end, so the order of the entries is the order in which the keys first
came. The view of a dictionary is the partial function `get?`; each operation has one lemma that
says what it does to that view.
-/

namespace TxStore

variable {κ α : Type} [DecidableEq κ]

namespace Entries

/-- The value of the first entry under `k`. -/
def find? (k : κ) : List (κ × α) → Option α
  | [] => none
  | e :: rest => if e.1 = k then some e.2 else find? k rest

/-- Overwrites the entry under `k` in its place, or appends one. -/
def insert (k : κ) (a : α) : List (κ × α) → List (κ × α)
  | [] => [(k, a)]
  | e :: rest => if e.1 = k then (k, a) :: rest else e :: insert k a rest

/-- Drops the entries under `k`. -/
def erase (k : κ) (l : List (κ × α)) : List (κ × α) :=
  l.filter fun e => e.1 ≠ k

/-- Inserting under a present key keeps the keys; a new key goes to their end. -/
theorem keys_insert (k : κ) (a : α) (l : List (κ × α)) :
    (insert k a l).map Prod.fst =
      if k ∈ l.map Prod.fst then l.map Prod.fst else l.map Prod.fst ++ [k] := by
  induction l with
  | nil => simp [insert]
  | cons e rest ih =>
    by_cases h : e.1 = k
    · simp [insert, h]
    · have hk : ¬ k = e.1 := fun h' => h h'.symm
      by_cases hm : k ∈ rest.map Prod.fst
      · rw [if_pos hm] at ih
        rw [if_pos (by simp only [List.map_cons, List.mem_cons]; exact Or.inr hm)]
        simp only [insert, if_neg h, List.map_cons, ih]
      · rw [if_neg hm] at ih
        rw [if_neg (by simp only [List.map_cons, List.mem_cons]; exact fun o => o.elim hk hm)]
        simp only [insert, if_neg h, List.map_cons, ih, List.cons_append]

/-- Inserting keeps the keys distinct. -/
theorem nodup_insert (k : κ) (a : α) {l : List (κ × α)} (h : (l.map Prod.fst).Nodup) :
    ((insert k a l).map Prod.fst).Nodup := by
  rw [keys_insert]
  split
  · exact h
  · rename_i hk
    refine List.nodup_append.2 ⟨h, List.pairwise_singleton _ _, fun x hx y hy => ?_⟩
    rw [List.mem_singleton.1 hy]
    exact fun e => hk (e ▸ hx)

/-- Erasing keeps the keys distinct. -/
theorem nodup_erase (k : κ) {l : List (κ × α)} (h : (l.map Prod.fst).Nodup) :
    ((erase k l).map Prod.fst).Nodup :=
  h.sublist (List.filter_sublist.map _)

/-- After inserting under `k`, `k` has the new value and every other key its old one. -/
theorem find?_insert (k j : κ) (a : α) (l : List (κ × α)) :
    find? j (insert k a l) = if k = j then some a else find? j l := by
  induction l with
  | nil => rfl
  | cons e rest ih => grind [insert, find?]

/-- After erasing `k`, `k` has no value and every other key its old one. -/
theorem find?_erase (k j : κ) (l : List (κ × α)) :
    find? j (erase k l) = if k = j then none else find? j l := by
  induction l with
  | nil => simp [erase, find?]
  | cons e rest ih =>
    simp only [erase, List.filter_cons] at ih ⊢
    grind [find?]

/-- A key has a value exactly if it is among the keys. -/
theorem isSome_find? (k : κ) (l : List (κ × α)) :
    (find? k l).isSome ↔ k ∈ l.map Prod.fst := by
  induction l with
  | nil => simp [find?]
  | cons e rest ih => grind [find?]

/-- Inserting what is there already changes nothing. -/
theorem insert_of_find? {k : κ} {a : α} {l : List (κ × α)} (h : find? k l = some a) :
    insert k a l = l := by
  induction l with
  | nil => cases h
  | cons e rest ih => grind [insert, find?]

/-- A value that is found is in an entry. -/
theorem mem_of_find? {k : κ} {a : α} {l : List (κ × α)} (h : find? k l = some a) : (k, a) ∈ l := by
  induction l with
  | nil => cases h
  | cons e rest ih => grind [find?]

/-- An entry is found under its key if no other entry has that key. -/
theorem find?_of_mem {k : κ} {a : α} {l : List (κ × α)} (hnodup : (l.map Prod.fst).Nodup)
    (h : (k, a) ∈ l) : find? k l = some a := by
  induction l with
  | nil => cases h
  | cons e rest ih =>
    obtain ⟨hnew, hrest⟩ := List.nodup_cons.mp hnodup
    rcases List.mem_cons.mp h with rfl | hmem
    · exact if_pos rfl
    · have hne : e.1 ≠ k := fun heq => hnew (heq ▸ List.mem_map_of_mem hmem)
      rw [find?, if_neg hne, ih hrest hmem]

end Entries

/-- A finite map: entries with distinct keys, in the order in which the keys first came. -/
structure Dict (κ α : Type) where
  /-- The entries, oldest key first. -/
  entries : List (κ × α)
  /-- No key occurs twice. -/
  nodup_keys : (entries.map Prod.fst).Nodup
  deriving DecidableEq

namespace Dict

/-- The map without entries. -/
def empty : Dict κ α := ⟨[], List.nodup_nil⟩

/-- The map without entries is written `∅`. -/
instance : EmptyCollection (Dict κ α) := ⟨empty⟩

/-- The map without entries serves as the default. -/
instance : Inhabited (Dict κ α) := ⟨empty⟩

/-- The value under `k`, if there is one. -/
def get? (d : Dict κ α) (k : κ) : Option α :=
  Entries.find? k d.entries

/-- The value under `k`, or `fallback`. -/
def getD (d : Dict κ α) (k : κ) (fallback : α) : α :=
  (d.get? k).getD fallback

/-- Whether `k` has a value. -/
def contains (d : Dict κ α) (k : κ) : Bool :=
  (d.get? k).isSome

/-- Sets the value under `k`. -/
def insert (d : Dict κ α) (k : κ) (a : α) : Dict κ α :=
  ⟨Entries.insert k a d.entries, Entries.nodup_insert k a d.nodup_keys⟩

/-- Removes the entry under `k`. -/
def erase (d : Dict κ α) (k : κ) : Dict κ α :=
  ⟨Entries.erase k d.entries, Entries.nodup_erase k d.nodup_keys⟩

/-- The keys, in the order in which they first came. -/
def keys (d : Dict κ α) : List κ :=
  d.entries.map Prod.fst

/-- The values, in the order of their keys. -/
def values (d : Dict κ α) : List α :=
  d.entries.map Prod.snd

/-- The number of keys. -/
def size (d : Dict κ α) : Nat :=
  d.entries.length

/-- Nothing is found in the map without entries. -/
@[simp, grind =] theorem get?_empty (k : κ) : (∅ : Dict κ α).get? k = none := rfl

/-- After an insertion its key has the new value, and all others have theirs. -/
@[grind =] theorem get?_insert (d : Dict κ α) (k j : κ) (a : α) :
    (d.insert k a).get? j = if k = j then some a else d.get? j :=
  Entries.find?_insert k j a d.entries

/-- After a removal its key has no value, and all others have theirs. -/
@[grind =] theorem get?_erase (d : Dict κ α) (k j : κ) :
    (d.erase k).get? j = if k = j then none else d.get? j :=
  Entries.find?_erase k j d.entries

/-- Inserting what is there already changes nothing. -/
theorem insert_of_get? {d : Dict κ α} {k : κ} {a : α} (h : d.get? k = some a) :
    d.insert k a = d := by
  have hentries : Entries.insert k a d.entries = d.entries := Entries.insert_of_find? h
  cases d
  simpa [insert] using hentries

/-- What has been inserted is found. -/
@[simp] theorem get?_insert_self (d : Dict κ α) (k : κ) (a : α) :
    (d.insert k a).get? k = some a := by
  simp [get?_insert]

/-- What has been removed is not found. -/
@[simp] theorem get?_erase_self (d : Dict κ α) (k : κ) : (d.erase k).get? k = none := by
  simp [get?_erase]

/-- A key has a value exactly if there is an entry with both. -/
theorem get?_eq_some_iff {d : Dict κ α} {k : κ} {a : α} :
    d.get? k = some a ↔ (k, a) ∈ d.entries :=
  ⟨Entries.mem_of_find?, Entries.find?_of_mem d.nodup_keys⟩

/-- A key is listed exactly if it has a value. -/
theorem mem_keys (d : Dict κ α) (k : κ) : k ∈ d.keys ↔ (d.get? k).isSome :=
  (Entries.isSome_find? k d.entries).symm

end Dict

end TxStore
