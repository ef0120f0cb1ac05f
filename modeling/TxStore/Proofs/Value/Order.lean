import Mathlib.Data.String.Basic
import Mathlib.Order.RelClasses
import TxStore.Value.Order

/-!
# Values are totally ordered

The comparison of values decides a relation that can be said without it (`Before`): values of
different kinds stand in the order of their kinds, and values of one kind in the order of their
contents, where texts, arrays and byte strings are ordered as words are in a dictionary, arrays by
this very relation between their items (`compare_eq_lt_iff`). Values that compare equal are the same
(`eq_of_compare`), and the relation is a strict total order, however deep arrays are nested.
-/

namespace TxStore.Value

mutual

/-- Values that compare equal are the same. -/
theorem eq_of_compare : (v w : Value) → v.compare w = .eq → v = w
  | .null, .null, _ => rfl
  | .bool a, .bool b, h => congrArg bool (Std.compare_eq_iff_eq.mp h)
  | .integer a, .integer b, h => congrArg integer (Std.compare_eq_iff_eq.mp h)
  | .text a, .text b, h => congrArg text (Std.compare_eq_iff_eq.mp h)
  | .array a, .array b, h => congrArg array (eq_of_compareItems a b h)
  | .bytes a, .bytes b, h => congrArg bytes (Std.compare_eq_iff_eq.mp h)
  | .null, .bool _, h | .null, .integer _, h | .null, .text _, h | .null, .array _, h
  | .null, .bytes _, h | .bool _, .null, h | .bool _, .integer _, h | .bool _, .text _, h
  | .bool _, .array _, h | .bool _, .bytes _, h | .integer _, .null, h | .integer _, .bool _, h
  | .integer _, .text _, h | .integer _, .array _, h | .integer _, .bytes _, h
  | .text _, .null, h | .text _, .bool _, h | .text _, .integer _, h | .text _, .array _, h
  | .text _, .bytes _, h | .array _, .null, h | .array _, .bool _, h | .array _, .integer _, h
  | .array _, .text _, h | .array _, .bytes _, h | .bytes _, .null, h | .bytes _, .bool _, h
  | .bytes _, .integer _, h | .bytes _, .text _, h | .bytes _, .array _, h => by
    -- Values of different kinds compare as the places of their kinds.
    unfold compare at h
    cases h

/-- Item lists that compare equal are the same. -/
theorem eq_of_compareItems : (vs ws : List Value) → compareItems vs ws = .eq → vs = ws
  | [], [], _ => rfl
  | v :: vs, w :: ws, h => by
    unfold compareItems at h
    obtain ⟨hhead, htail⟩ := Ordering.then_eq_eq.mp h
    rw [eq_of_compare v w hhead, eq_of_compareItems vs ws htail]
  | [], _ :: _, h => by cases h
  | _ :: _, [], h => by cases h

end

mutual

/-- A value compares equal with itself. -/
theorem compare_self : (v : Value) → v.compare v = .eq
  | .null => rfl
  | .bool _ | .integer _ | .text _ | .bytes _ => Std.compare_eq_iff_eq.mpr rfl
  | .array items => compareItems_self items

/-- An item list compares equal with itself. -/
theorem compareItems_self : (vs : List Value) → compareItems vs vs = .eq
  | [] => rfl
  | v :: vs => Ordering.then_eq_eq.mpr ⟨compare_self v, compareItems_self vs⟩

end

/-! ## Inductions -/

/-- What holds of the values without items, and of an array if it holds of its items, holds of
every value. -/
@[elab_as_elim]
theorem induction {P : Value → Prop} (null : P .null) (bool : ∀ b, P (.bool b))
    (integer : ∀ n, P (.integer n)) (text : ∀ s, P (.text s))
    (array : ∀ items, (∀ v ∈ items, P v) → P (.array items)) (bytes : ∀ data, P (.bytes data)) :
    ∀ v, P v
  | .null => null
  | .bool b => bool b
  | .integer n => integer n
  | .text s => text s
  | .array items => array items fun v _ => induction null bool integer text array bytes v
  | .bytes data => bytes data

/-- What holds of two values of different kinds, of two of one kind without items, and of two arrays
if it holds of the items of both, holds of any two values. -/
@[elab_as_elim]
theorem pairInduction {P : Value → Value → Prop} (apart : ∀ v w, v.rank ≠ w.rank → P v w)
    (null : P .null .null) (bool : ∀ a b, P (.bool a) (.bool b))
    (integer : ∀ a b, P (.integer a) (.integer b)) (text : ∀ a b, P (.text a) (.text b))
    (array : ∀ a b, (∀ v ∈ a, ∀ w ∈ b, P v w) → P (.array a) (.array b))
    (bytes : ∀ a b, P (.bytes a) (.bytes b)) (v w : Value) : P v w := by
  induction v using Value.induction generalizing w with
  | null =>
    cases w with
    | null => exact null
    | _ => exact apart _ _ (by simp [rank])
  | bool a =>
    cases w with
    | bool b => exact bool a b
    | _ => exact apart _ _ (by simp [rank])
  | integer a =>
    cases w with
    | integer b => exact integer a b
    | _ => exact apart _ _ (by simp [rank])
  | text a =>
    cases w with
    | text b => exact text a b
    | _ => exact apart _ _ (by simp [rank])
  | array a ih =>
    cases w with
    | array b => exact array a b fun v hv w _ => ih v hv w
    | _ => exact apart _ _ (by simp [rank])
  | bytes a =>
    cases w with
    | bytes b => exact bytes a b
    | _ => exact apart _ _ (by simp [rank])

/-! ## The order -/

/-- Whether a value comes before another one. -/
inductive Before : Value → Value → Prop where
  /-- Its kind does. -/
  | kind {v w : Value} (h : v.rank < w.rank) : Before v w
  /-- `false` comes before `true`. -/
  | bool : Before (.bool false) (.bool true)
  /-- It is the smaller integer. -/
  | integer {a b : Int64} (h : a.toInt < b.toInt) : Before (.integer a) (.integer b)
  /-- Its code points come first in lexicographic order. -/
  | text {a b : String} (h : List.Lex (· < ·) a.toList b.toList) : Before (.text a) (.text b)
  /-- Its items do. -/
  | array {a b : List Value} (h : List.Lex Before a b) : Before (.array a) (.array b)
  /-- Its bytes do. -/
  | bytes {a b : List UInt8} (h : List.Lex (fun x y => x.toNat < y.toNat) a b) :
    Before (.bytes a) (.bytes b)

/-- Values of different kinds compare as the places of their kinds. -/
theorem compare_of_apart {v w : Value} (h : v.rank ≠ w.rank) :
    v.compare w = Ord.compare v.rank w.rank := by
  cases v <;> cases w <;> first | rfl | exact absurd rfl h

/-- Values of different kinds stand in the order of their kinds. -/
theorem before_iff_of_apart {v w : Value} (h : v.rank ≠ w.rank) :
    v.Before w ↔ v.rank < w.rank := by
  refine ⟨fun hbefore => ?_, .kind⟩
  cases hbefore with
  | kind hkind => exact hkind
  | _ => exact absurd rfl h

/-- A value that comes before another is not of a later kind. -/
theorem Before.rank_le {v w : Value} (h : v.Before w) : v.rank ≤ w.rank := by
  cases h with
  | kind hkind => exact hkind.le
  | _ => exact le_rfl

/-- Integers stand in the order of their sizes. -/
theorem before_integer_iff {a b : Int64} :
    Before (.integer a) (.integer b) ↔ a.toInt < b.toInt := by
  refine ⟨fun h => ?_, .integer⟩
  cases h with
  | kind h => exact absurd h (lt_irrefl _)
  | integer h => exact h

/-- Texts stand in the order of their code points. -/
theorem before_text_iff {a b : String} :
    Before (.text a) (.text b) ↔ List.Lex (· < ·) a.toList b.toList := by
  refine ⟨fun h => ?_, .text⟩
  cases h with
  | kind h => exact absurd h (lt_irrefl _)
  | text h => exact h

/-- Arrays stand in the order of their items. -/
theorem before_array_iff {a b : List Value} :
    Before (.array a) (.array b) ↔ List.Lex Before a b := by
  refine ⟨fun h => ?_, .array⟩
  cases h with
  | kind h => exact absurd h (lt_irrefl _)
  | array h => exact h

/-- Byte strings stand in the order of their bytes. -/
theorem before_bytes_iff {a b : List UInt8} :
    Before (.bytes a) (.bytes b) ↔ List.Lex (fun x y => x.toNat < y.toNat) a b := by
  refine ⟨fun h => ?_, .bytes⟩
  cases h with
  | kind h => exact absurd h (lt_irrefl _)
  | bytes h => exact h

/-! ## Lists at their first difference -/

section Lex

variable {α : Type} {cmp : α → α → Ordering} {r : α → α → Prop}

/-- If a comparison decides a relation, then the comparison of lists at their first difference
decides its lexicographic extension. -/
theorem compareLex_eq_lt_iff (a b : List α) (hlt : ∀ x ∈ a, ∀ y ∈ b, cmp x y = .lt ↔ r x y)
    (heq : ∀ x y, cmp x y = .eq ↔ x = y) :
    List.compareLex cmp a b = .lt ↔ List.Lex r a b := by
  induction a generalizing b with
  | nil =>
    cases b with
    | nil => exact ⟨nofun, nofun⟩
    | cons y b => exact ⟨fun _ => .nil, fun _ => rfl⟩
  | cons x a ih =>
    cases b with
    | nil => exact ⟨nofun, nofun⟩
    | cons y b =>
      have hhead : cmp x y = .lt ↔ r x y := hlt x List.mem_cons_self y List.mem_cons_self
      have htail : List.compareLex cmp a b = .lt ↔ List.Lex r a b := ih b fun x hx y hy =>
        hlt x (List.mem_cons_of_mem _ hx) y (List.mem_cons_of_mem _ hy)
      rw [List.compareLex_cons_cons, Ordering.then_eq_lt, hhead, htail, heq]
      constructor
      · rintro (hrel | ⟨rfl, hlex⟩)
        · exact .rel hrel
        · exact .cons hlex
      · intro hlex
        cases hlex with
        | rel hrel => exact .inl hrel
        | cons hlex => exact .inr ⟨rfl, hlex⟩

/-- The lexicographic order of two lists is transitive if the relation is on their items. -/
theorem lex_trans_of_mem {a b c : List α}
    (htrans : ∀ x ∈ a, ∀ y ∈ b, ∀ z, r x y → r y z → r x z) (hab : List.Lex r a b)
    (hbc : List.Lex r b c) : List.Lex r a c := by
  -- The outer two differ where the first two do or where the last two do, whichever comes first.
  induction hab generalizing c with
  | nil => cases hbc <;> exact .nil
  | @rel x a y b hxy =>
    cases hbc with
    | rel hyz => exact .rel (htrans x List.mem_cons_self y List.mem_cons_self _ hxy hyz)
    | cons hbc => exact .rel hxy
  | cons hab ih =>
    cases hbc with
    | rel hyz => exact .rel hyz
    | cons hbc =>
      refine .cons (ih (fun x hx y hy => ?_) hbc)
      exact htrans x (List.mem_cons_of_mem _ hx) y (List.mem_cons_of_mem _ hy)

/-- Of two different lists one comes before the other if that is so of their items. -/
theorem lex_trichotomy_of_mem (a b : List α) (h : ∀ x ∈ a, ∀ y ∈ b, r x y ∨ x = y ∨ r y x) :
    List.Lex r a b ∨ a = b ∨ List.Lex r b a := by
  induction a generalizing b with
  | nil =>
    cases b with
    | nil => exact .inr (.inl rfl)
    | cons y b => exact .inl .nil
  | cons x a ih =>
    cases b with
    | nil => exact .inr (.inr .nil)
    | cons y b =>
      rcases h x List.mem_cons_self y List.mem_cons_self with hxy | rfl | hyx
      · exact .inl (.rel hxy)
      · rcases ih b fun x hx y hy => h x (List.mem_cons_of_mem _ hx) y (List.mem_cons_of_mem _ hy)
          with hab | rfl | hba
        · exact .inl (.cons hab)
        · exact .inr (.inl rfl)
        · exact .inr (.inr (.cons hba))
      · exact .inr (.inr (.rel hyx))

end Lex

/-- Item lists are compared at their first difference. -/
theorem compareItems_eq_compareLex (a b : List Value) :
    compareItems a b = List.compareLex compare a b := by
  induction a generalizing b with
  | nil => cases b <;> rfl
  | cons v a ih =>
    cases b with
    | nil => rfl
    | cons w b =>
      rw [List.compareLex_cons_cons, ← ih]
      rfl

/-! ## The comparison and the order -/

/-- The comparison of values decides which one comes before the other. -/
theorem compare_eq_lt_iff (v w : Value) : v.compare w = .lt ↔ v.Before w := by
  induction v, w using pairInduction with
  | apart v w h => rw [compare_of_apart h, before_iff_of_apart h, Nat.compare_eq_lt]
  | null =>
    refine ⟨nofun, fun h => ?_⟩
    cases h with
    | kind h => exact absurd h (lt_irrefl _)
  | bool a b =>
    constructor
    · intro h
      cases a <;> cases b <;> first | exact .bool | cases h
    · intro h
      cases h with
      | kind h => exact absurd h (lt_irrefl _)
      | bool => rfl
  | integer a b =>
    rw [before_integer_iff, ← Int64.lt_iff_toInt_lt]
    exact Std.compare_eq_lt
  | text a b =>
    rw [before_text_iff]
    show compareOfLessAndEq a b = .lt ↔ _
    rw [compareOfLessAndEq_eq_lt]
    rfl
  -- Arrays and bytes are compared by one function, which is lexicographic if its items are.
  | array a b ih =>
    rw [before_array_iff]
    show compareItems a b = .lt ↔ _
    rw [compareItems_eq_compareLex]
    exact compareLex_eq_lt_iff a b ih fun v w => ⟨eq_of_compare v w, fun h => h ▸ compare_self v⟩
  | bytes a b =>
    rw [before_bytes_iff]
    exact compareLex_eq_lt_iff a b
      (fun _ _ _ _ => Std.compare_eq_lt.trans UInt8.lt_iff_toNat_lt) fun _ _ => Std.compare_eq_iff_eq

/-- No value comes before itself. -/
theorem not_before_self (v : Value) : ¬ v.Before v := by
  rw [← compare_eq_lt_iff, compare_self]
  exact nofun

/-- What comes before a value comes before all that the value comes before. -/
theorem Before.trans {u v w : Value} (huv : u.Before v) (hvw : v.Before w) : u.Before w := by
  induction u, v using pairInduction generalizing w with
  | apart u v h => exact .kind (((before_iff_of_apart h).mp huv).trans_le hvw.rank_le)
  | null => exact hvw
  | bool a b =>
    cases hvw with
    | kind h => exact .kind h
    | bool => exact absurd huv (by cases a <;> simp [← compare_eq_lt_iff, compare])
  | integer a b =>
    cases hvw with
    | kind h => exact .kind h
    | integer h => exact .integer ((before_integer_iff.mp huv).trans h)
  | text a b =>
    cases hvw with
    | kind h => exact .kind h
    | text h => exact .text (List.lex_trans lt_trans (before_text_iff.mp huv) h)
  | array a b ih =>
    cases hvw with
    | kind h => exact .kind h
    | array h =>
      have htrans : ∀ x ∈ a, ∀ y ∈ b, ∀ z, Before x y → Before y z → Before x z :=
        fun x hx y hy z hxy hyz => ih x hx y hy hxy hyz
      exact .array (lex_trans_of_mem htrans (before_array_iff.mp huv) h)
  | bytes a b =>
    cases hvw with
    | kind h => exact .kind h
    | bytes h => exact .bytes (List.lex_trans Nat.lt_trans (before_bytes_iff.mp huv) h)

/-- Of two different values one comes before the other. -/
theorem before_trichotomy (v w : Value) : v.Before w ∨ v = w ∨ w.Before v := by
  -- The induction is on both values at once; values of different kinds are one case.
  induction v, w using pairInduction with
  | apart v w h =>
    rcases Nat.lt_or_gt_of_ne h with hlt | hgt
    · exact .inl (.kind hlt)
    · exact .inr (.inr (.kind hgt))
  | null => exact .inr (.inl rfl)
  | bool a b =>
    cases a <;> cases b
    · exact .inr (.inl rfl)
    · exact .inl .bool
    · exact .inr (.inr .bool)
    · exact .inr (.inl rfl)
  | integer a b =>
    rcases lt_trichotomy a.toInt b.toInt with hlt | heq | hgt
    · exact .inl (.integer hlt)
    · exact .inr (.inl (congrArg _ (Int64.toInt_inj.mp heq)))
    · exact .inr (.inr (.integer hgt))
  | text a b =>
    rcases lex_trichotomy_of_mem a.toList b.toList fun x _ y _ => lt_trichotomy x y
      with hlt | heq | hgt
    · exact .inl (.text hlt)
    · exact .inr (.inl (congrArg _ (String.toList_inj.mp heq)))
    · exact .inr (.inr (.text hgt))
  | array a b ih =>
    rcases lex_trichotomy_of_mem a b ih with hlt | rfl | hgt
    · exact .inl (.array hlt)
    · exact .inr (.inl rfl)
    · exact .inr (.inr (.array hgt))
  | bytes a b =>
    have hbytes : ∀ x ∈ a, ∀ y ∈ b, x.toNat < y.toNat ∨ x = y ∨ y.toNat < x.toNat :=
      fun x _ y _ => (lt_trichotomy x.toNat y.toNat).imp_right (Or.imp_left UInt8.toNat_inj.mp)
    rcases lex_trichotomy_of_mem a b hbytes with hlt | rfl | hgt
    · exact .inl (.bytes hlt)
    · exact .inr (.inl rfl)
    · exact .inr (.inr (.bytes hgt))

/-- Values are totally ordered. -/
instance : IsStrictTotalOrder Value Before where
  irrefl := not_before_self
  trans _ _ _ := Before.trans
  trichotomous v w hvw hwv := ((before_trichotomy v w).resolve_left hvw).resolve_right hwv

/-- The comparison of values decides also which one comes after the other. -/
theorem compare_eq_gt_iff (v w : Value) : v.compare w = .gt ↔ w.Before v := by
  constructor
  · intro hgt
    rcases before_trichotomy v w with hvw | rfl | hwv
    · cases hgt.symm.trans ((compare_eq_lt_iff v w).mpr hvw)
    · cases hgt.symm.trans (compare_self v)
    · exact hwv
  · intro hwv
    cases hcompare : v.compare w with
    | lt => exact absurd (((compare_eq_lt_iff v w).mp hcompare).trans hwv) (not_before_self v)
    | eq => exact absurd hwv (eq_of_compare v w hcompare ▸ not_before_self v)
    | gt => rfl

end TxStore.Value
