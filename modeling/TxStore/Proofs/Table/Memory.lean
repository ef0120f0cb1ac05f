import TxStore.Proofs.Value.Order
import TxStore.Table.Memory

/-!
# A memory table is a finite map

Seen from outside, the rows of a memory table are the partial function `Rows.get?`. Inserting and
erasing rows change it in one place (`get?_insert`, `get?_erase`), whatever the order of the rows,
and a call of the table that passes the check of its kinds does just that.
-/

namespace TxStore

namespace Rows

/-- The first row is found under its key; under another key the rest is searched. -/
theorem find?_cons (j : Value) (row : Value × Value) (rest : List (Value × Value)) :
    find? j (row :: rest) = if row.1 = j then some row.2 else find? j rest := rfl

/-- After inserting a row it has the new value, and every other row its old one. -/
theorem get?_insert (r : Rows) (key j value : Value) :
    (r.insert key value).get? j = if key = j then some value else r.get? j := by
  have hplace : ∀ rows : List (Value × Value),
      find? j (place key value rows) = if key = j then some value else find? j rows := by
    intro rows
    induction rows with
    | nil => rfl
    | cons row rest ih =>
      unfold place
      cases hcompare : key.compare row.1 with
      | lt => rfl
      | eq =>
        have hkey : key = row.1 := Value.eq_of_compare key row.1 hcompare
        dsimp only
        rw [find?_cons, find?_cons, ← hkey]
        split <;> rfl
      | gt =>
        have hne : row.1 ≠ key := by
          intro heq
          rw [heq, Value.compare_self] at hcompare
          cases hcompare
        dsimp only
        rw [find?_cons, find?_cons, ih]
        by_cases hrow : row.1 = j
        · have hkj : key ≠ j := fun heq => hne (hrow.trans heq.symm)
          rw [if_pos hrow, if_neg hkj, if_pos hrow]
        · rw [if_neg hrow, if_neg hrow]
  exact hplace r.entries

/-- After erasing a row it has no value, and every other row its old one. -/
theorem get?_erase (r : Rows) (key j : Value) :
    (r.erase key).get? j = if key = j then none else r.get? j := by
  have hfilter : ∀ rows : List (Value × Value),
      find? j (rows.filter fun row => row.1 ≠ key) = if key = j then none else find? j rows := by
    intro rows
    induction rows with
    | nil =>
      show none = if key = j then none else none
      split <;> rfl
    | cons row rest ih =>
      rw [List.filter_cons]
      by_cases hrow : row.1 = key
      · rw [if_neg (by simpa using hrow), ih, find?_cons]
        by_cases hkj : key = j
        · rw [if_pos hkj, if_pos hkj]
        · rw [if_neg hkj, if_neg hkj, if_neg (fun heq => hkj (hrow.symm.trans heq))]
      · rw [if_pos (by simpa using hrow), find?_cons, find?_cons, ih]
        by_cases hj : row.1 = j
        · rw [if_pos hj, if_pos hj, if_neg (fun heq => hrow (hj.trans heq.symm))]
        · rw [if_neg hj, if_neg hj]
  exact hfilter r.entries

end Rows

namespace MemoryTable

variable {table : MemoryTable} {key value : Value}

/-- A read that passes the check yields the value of the row. -/
theorem get_eq (h : table.check key none = .ok ()) :
    table.get key =
      match table.rows.get? key with
      | some v => .ok v
      | none => .error (.keyNotFound key) := by
  unfold get
  rw [h]
  rfl

/-- A write that passes the check inserts the row. -/
theorem put_eq (h : table.check key (some value) = .ok ()) :
    table.put key value = .ok { table with rows := table.rows.insert key value } := by
  unfold put
  rw [h]
  rfl

/-- A removal that passes the check erases a row that is there. -/
theorem delete_eq (h : table.check key none = .ok ()) :
    table.delete key =
      match table.rows.get? key with
      | some _ => .ok { table with rows := table.rows.erase key }
      | none => .error (.keyNotFound key) := by
  unfold delete
  rw [h]
  rfl

end MemoryTable

end TxStore
