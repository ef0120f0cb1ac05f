import TxStore.IntMap
import TxStore.Proofs.Table.TypedMap

/-!
# A table of integers is a map from integers to integers

`IntMap` is what a client may expect of a table whose keys and values are declared as integers. The
table of a map (`IntMap.table`) has the entries of the map for its rows. An operation on the map is
the call on the table (`perform_table`), so a table that was made with these kinds, called with
integers only, tells what the empty map tells, and its listing is that of the map
(`performs_intMap`).
-/

namespace TxStore

/-- The call on a table that an operation on a map stands for. -/
def MapOp.call : MapOp → MemoryTable.Call
  | put key value => .put (.integer key) (.integer value)
  | get key => .get (.integer key)
  | delete key => .delete (.integer key)

/-- The key of an operation. -/
def MapOp.key : MapOp → Int64
  | put key _ | get key | delete key => key

/-- What a table tells where the map reports this of an operation. -/
def MapOp.told (op : MapOp) : MapReply → MemoryTable.Reply
  | .done => .ok none
  | .value v => .ok (some (.integer v))
  | .missing => .error (.keyNotFound (.integer op.key))

namespace IntMap

variable {m : IntMap} {key value : Int64}

/-- What the operations of a history report, one after the other, and the map after them. -/
def history (m : IntMap) : List MapOp → List MapReply × IntMap
  | [] => ([], m)
  | op :: rest =>
    let (reply, m) := m.apply op
    let (replies, m) := m.history rest
    (reply :: replies, m)

/-- The table of integers with the entries of a map. -/
def table (name : String) (m : IntMap) : MemoryTable :=
  ⟨name, .integer, .integer, ⟨m.rows⟩⟩

/-- The value under a key is the value of the row. -/
theorem get?_rows (m : IntMap) (key : Int64) :
    Rows.get? ⟨m.rows⟩ (.integer key) = (m.get? key).map Value.integer := by
  unfold Rows.get? rows get?
  induction m.entries with
  | nil => rfl
  | cons e rest ih =>
    rw [List.map_cons, Rows.find?_cons, List.lookup_cons, ih]
    by_cases hkey : e.1 = key
    · simp [hkey]
    · have hne : (key == e.1) = false := beq_eq_false_iff_ne.mpr (Ne.symm hkey)
      simp [hkey, hne]

/-- Integers are compared alike as keys of a map and as keys of rows. -/
theorem rows_place (key value : Int64) (entries : List (Int64 × Int64)) :
    rows ⟨place key value entries⟩ =
      Rows.place (.integer key) (.integer value) (rows ⟨entries⟩) := by
  induction entries with
  | nil => rfl
  | cons e rest ih =>
    have hcompare : (Value.integer key).compare (.integer e.1) =
        if key < e.1 then .lt else if key = e.1 then .eq else .gt := by
      unfold Value.compare
      rfl
    unfold place
    show _ = Rows.place _ _ ((Value.integer e.1, Value.integer e.2) :: rows ⟨rest⟩)
    unfold Rows.place
    rw [hcompare]
    split
    · rfl
    · split
      · rfl
      · exact congrArg ((Value.integer e.1, Value.integer e.2) :: ·) ih

/-- Removing a key removes its row. -/
theorem rows_filter (key : Int64) (entries : List (Int64 × Int64)) :
    rows ⟨entries.filter fun e => e.1 ≠ key⟩ =
      (rows ⟨entries⟩).filter fun row => row.1 ≠ .integer key := by
  show (entries.filter _).map _ = (entries.map _).filter _
  rw [List.filter_map]
  congr 1
  exact List.filter_congr fun e _ => by simp

/-- An operation on the map is the call on its table. -/
theorem perform_table (name : String) (m : IntMap) (op : MapOp) :
    (m.table name).perform op.call = (op.told (m.apply op).1, (m.apply op).2.table name) := by
  have hrow : ∀ key, (m.table name).rows.get? (.integer key) = (m.get? key).map .integer :=
    m.get?_rows
  -- The rows are all that changes of a table.
  have hrows : ∀ {entries : List (Int64 × Int64)} {changed : Rows},
      changed.entries = rows ⟨entries⟩ →
        { m.table name with rows := changed } = IntMap.table name ⟨entries⟩ :=
    fun heq => congrArg (fun r : List (Value × Value) => MemoryTable.mk name _ _ ⟨r⟩) heq
  cases op with
  | put key value =>
    have hput : (m.table name).put (.integer key) (.integer value) = _ := MemoryTable.put_eq rfl
    unfold MapOp.call MemoryTable.perform
    dsimp only
    rw [hput]
    exact Prod.ext rfl (hrows (rows_place key value m.entries).symm)
  | get key =>
    have hget : (m.table name).get (.integer key) = _ := MemoryTable.get_eq rfl
    unfold MapOp.call MemoryTable.perform apply
    dsimp only
    rw [hget, hrow]
    cases m.get? key with
    | none => rfl
    | some v => rfl
  | delete key =>
    have hdelete : (m.table name).delete (.integer key) = _ := MemoryTable.delete_eq rfl
    unfold MapOp.call MemoryTable.perform apply
    dsimp only
    rw [hdelete, hrow]
    cases m.get? key with
    | none => rfl
    | some v => exact Prod.ext rfl (hrows (rows_filter key m.entries).symm)

/-- So a history of operations is the history of the calls. -/
theorem history_table (name : String) (m : IntMap) (ops : List MapOp) :
    (m.table name).history (ops.map MapOp.call) =
      (List.zipWith MapOp.told ops (m.history ops).1, (m.history ops).2.table name) := by
  induction ops generalizing m with
  | nil => rfl
  | cons op rest ih =>
    rw [List.map_cons]
    unfold MemoryTable.history IntMap.history
    rw [perform_table]
    dsimp only
    rw [ih]
    rfl

end IntMap

/-- A table that is made for integers and called with integers only performs the map that has them
for its keys and values: the calls are told what the operations report, and the listing of the table
is that of the map. -/
theorem MemoryTable.performs_intMap {name : String} {first last : MemoryTable}
    {replies : List MemoryTable.Reply} {ops : List MapOp}
    (hnew : MemoryTable.new name .integer .integer = .ok first)
    (hhistory : first.history (ops.map MapOp.call) = (replies, last)) :
    replies = List.zipWith MapOp.told ops (IntMap.empty.history ops).1 ∧
      last.listing = (IntMap.empty.history ops).2.rows := by
  have hfirst : first = IntMap.empty.table name := by
    unfold MemoryTable.new at hnew
    split at hnew
    · cases hnew
    · exact (Except.ok.inj hnew).symm
  rw [hfirst, IntMap.history_table] at hhistory
  cases hhistory
  exact ⟨rfl, rfl⟩

end TxStore
