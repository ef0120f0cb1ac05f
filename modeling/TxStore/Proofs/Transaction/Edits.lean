import Mathlib.Data.List.Induction
import TxStore.Proofs.Transaction.WriteBuffer

/-!
# What a write buffer holds after it has been edited

A buffer is edited by adding writes and by clearing it, and all that counts of its history are the
writes since it was last cleared (`pending`). These determine the buffer (`foldl_edit`): its entries
are the pending writes, sorted by their tables so that the writes of one table keep their order
(`entries_edits`), and the newest write of a row is the last pending one (`newest?_edits`).
-/

namespace TxStore.WriteBuffer

variable {b : WriteBuffer} {table : TableId} {key : Value} {writes : List WriteEntry} {e : WriteEntry}

/-- A change of a buffer. -/
inductive Edit where
  /-- A write is added. -/
  | append (e : WriteEntry)
  /-- All writes are dropped. -/
  | clear
  deriving DecidableEq

/-- The buffer after a change. -/
def edit (b : WriteBuffer) : Edit → WriteBuffer
  | .append e => b.append e.table e.key e.write
  | .clear => .empty

/-- What is left of the added writes after one more change. -/
def keep (writes : List WriteEntry) : Edit → List WriteEntry
  | .append e => writes ++ [e]
  | .clear => []

/-- The writes that were added since the last time that all were dropped. -/
def pending (edits : List Edit) : List WriteEntry :=
  edits.foldl keep []

/-- One more change keeps the pending writes or drops them. -/
theorem pending_concat (edits : List Edit) (d : Edit) :
    pending (edits ++ [d]) = keep (pending edits) d :=
  List.foldl_append

/-- A buffer to which writes were added changes as these writes do. -/
theorem edit_appendAll (writes : List WriteEntry) (d : Edit) :
    (empty.appendAll writes).edit d = empty.appendAll (keep writes d) := by
  cases d with
  | append e => exact (appendAll_append empty writes [e]).symm
  | clear => rfl

/-- A buffer holds the writes that were added since it was last cleared. -/
theorem foldl_edit (edits : List Edit) : edits.foldl edit empty = empty.appendAll (pending edits) := by
  have hfold : ∀ writes, edits.foldl edit (empty.appendAll writes) =
      empty.appendAll (edits.foldl keep writes) := by
    induction edits with
    | nil => exact fun _ => rfl
    | cons d rest ih =>
      intro writes
      rw [List.foldl_cons, List.foldl_cons, edit_appendAll]
      exact ih (keep writes d)
  exact hfold []

/-! ## The writes of each table keep their order -/

/-- Whether the table of a write comes before that of another or is the same. -/
def byTable (e f : WriteEntry) : Bool := e.table.code ≤ f.table.code

/-- The order of the tables is transitive. -/
theorem byTable_trans (e f g : WriteEntry) (h : byTable e f) (h' : byTable f g) : byTable e g :=
  decide_eq_true (UInt64.le_trans (of_decide_eq_true h) (of_decide_eq_true h'))

/-- Of two tables one comes first. -/
theorem byTable_total (e f : WriteEntry) : byTable e f || byTable f e := by
  rw [Bool.or_eq_true]
  exact (UInt64.le_total e.table.code f.table.code).imp decide_eq_true decide_eq_true

/-- Sorting by the tables keeps the order of the writes of each table. -/
theorem filter_mergeSort (writes : List WriteEntry) (table : TableId) :
    ((writes.mergeSort byTable).filter fun e => e.table = table) =
      writes.filter fun e => e.table = table := by
  -- The writes of the table stand in order, and so sorting finds them in this order too.
  have hsorted : (writes.filter fun e => e.table = table).Pairwise fun e f => byTable e f := by
    refine List.Pairwise.imp_of_mem ?_ (List.pairwise_of_forall fun _ _ => trivial)
    intro e f he hf _
    have heq : e.table = f.table :=
      (of_decide_eq_true (List.mem_filter.mp he).2).trans
        (of_decide_eq_true (List.mem_filter.mp hf).2).symm
    exact decide_eq_true (heq ▸ UInt64.le_refl _)
  have hsublist :=
    (List.sublist_mergeSort byTable_trans byTable_total hsorted List.filter_sublist).filter
      fun e => e.table = table
  rw [List.filter_filter] at hsublist
  simp only [Bool.and_self] at hsublist
  exact (hsublist.eq_of_length ((List.mergeSort_perm writes byTable).filter _).length_eq.symm).symm

/-- A list with the same writes of each table has the same writes. -/
theorem mem_of_filter_table {l l' : List WriteEntry}
    (hsame : ∀ table, (l.filter fun e => e.table = table) = l'.filter fun e => e.table = table)
    (he : e ∈ l) : e ∈ l' := by
  have hfilter : e ∈ l.filter fun f => f.table = e.table :=
    List.mem_filter.mpr ⟨he, decide_eq_true rfl⟩
  exact (List.mem_filter.mp (hsame e.table ▸ hfilter)).1

/-- The first of the sorted writes has the least table. -/
theorem le_of_mem_cons {f : WriteEntry} {l : List WriteEntry}
    (hl : (e :: l).Pairwise fun e f => byTable e f) (hf : f ∈ e :: l) :
    e.table.code ≤ f.table.code := by
  rcases List.mem_cons.mp hf with rfl | hf
  · exact UInt64.le_refl _
  · exact of_decide_eq_true ((List.pairwise_cons.mp hl).1 f hf)

/-- A list in the order of the tables is determined by the writes of each table. -/
theorem eq_of_filter_table {l l' : List WriteEntry} (hl : l.Pairwise fun e f => byTable e f)
    (hl' : l'.Pairwise fun e f => byTable e f)
    (hsame : ∀ table, (l.filter fun e => e.table = table) = l'.filter fun e => e.table = table) :
    l = l' := by
  induction l generalizing l' with
  | nil =>
    cases l' with
    | nil => rfl
    | cons f rest => cases mem_of_filter_table (fun table => (hsame table).symm) List.mem_cons_self
  | cons e rest ih =>
    cases l' with
    | nil => cases mem_of_filter_table hsame List.mem_cons_self
    | cons f rest' =>
      -- Both lists begin with the least table, and with the first of its writes.
      have hle := le_of_mem_cons hl
        (mem_of_filter_table (fun table => (hsame table).symm) List.mem_cons_self)
      have hge := le_of_mem_cons hl' (mem_of_filter_table hsame List.mem_cons_self)
      have htable : f.table = e.table := by
        have hcode := UInt64.le_antisymm hge hle
        cases hf : f.table
        cases he : e.table
        rw [hf, he] at hcode
        exact congrArg TableId.mk hcode
      have hheads := hsame e.table
      rw [List.filter_cons, List.filter_cons, if_pos (decide_eq_true rfl),
        if_pos (decide_eq_true htable)] at hheads
      obtain ⟨rfl, -⟩ := List.cons.inj hheads
      refine congrArg (e :: ·) (ih (List.pairwise_cons.mp hl).2 (List.pairwise_cons.mp hl').2 ?_)
      intro table
      have hcons := hsame table
      rw [List.filter_cons, List.filter_cons] at hcons
      split at hcons
      · exact (List.cons.inj hcons).2
      · exact hcons

/-- The entries of an edited buffer are the pending writes in the order of their tables. -/
theorem entries_edits (edits : List Edit) :
    (edits.foldl edit empty).entries = (pending edits).mergeSort byTable := by
  rw [foldl_edit]
  have hempty : Ascending empty.groups := List.Pairwise.nil
  have hascending : Ascending (empty.appendAll (pending edits)).groups := ascending_appendAll hempty
  refine eq_of_filter_table ((pairwise_entries hascending).imp fun h => decide_eq_true h)
    (List.pairwise_mergeSort byTable_trans byTable_total _) fun table => ?_
  rw [filter_mergeSort, filter_entries_appendAll hempty]
  rfl

/-! ## The newest write of a row -/

/-- The last of several writes that concerns a row. -/
def last? (writes : List WriteEntry) (table : TableId) (key : Value) : Option Write :=
  ((writes.filter fun e => e.table = table ∧ e.key = key).getLast?).map WriteEntry.write

/-- The last write of a row is found from the end. -/
theorem last?_append (before after : List WriteEntry) (table : TableId) (key : Value) :
    last? (before ++ after) table key = (last? after table key).or (last? before table key) := by
  unfold last?
  rw [List.filter_append, List.getLast?_append, Option.map_or]

/-- A single write is the last one of its row. -/
theorem last?_singleton (e : WriteEntry) (table : TableId) (key : Value) :
    last? [e] table key = if e.table = table ∧ e.key = key then some e.write else none := by
  unfold last?
  rw [List.filter_cons, List.filter_nil]
  by_cases h : e.table = table ∧ e.key = key
  · rw [if_pos h, decide_eq_true h]
    rfl
  · rw [if_neg h, decide_eq_false h]
    rfl

/-- The newest write of a row in an edited buffer is the last pending one. -/
theorem newest?_edits (edits : List Edit) (table : TableId) (key : Value) :
    (edits.foldl edit empty).newest? table key = last? (pending edits) table key := by
  rw [foldl_edit]
  induction pending edits using List.reverseRecOn with
  | nil => rfl
  | append_singleton before e ih =>
    have hascending : Ascending (empty.appendAll before).groups :=
      ascending_appendAll List.Pairwise.nil
    rw [appendAll_append, last?_append, last?_singleton, ← ih]
    show ((empty.appendAll before).append e.table e.key e.write).newest? table key = _
    rw [newest?_append hascending]
    split <;> rfl

end TxStore.WriteBuffer
