import TxStore.Value.Basic

/-!
# The order of values

Values are ordered first by kind (null, truth values, integers, texts, arrays, byte strings) and
then by content: `false` before `true`, integers by size, texts by code points, arrays and byte
strings lexicographically, a shorter one before its extensions. Snapshots and listings of rows are
sorted by this order.
-/

namespace TxStore.Value

/-- The place of a value's kind in the order. -/
def rank : Value → Nat
  | null => 0
  | bool _ => 1
  | integer _ => 2
  | text _ => 3
  | array _ => 4
  | bytes _ => 5

mutual

/-- Compares two values: by kind, then by content. -/
def compare : Value → Value → Ordering
  | .bool a, .bool b => Ord.compare a b
  | .integer a, .integer b => Ord.compare a b
  | .text a, .text b => Ord.compare a b
  | .array a, .array b => compareItems a b
  | .bytes a, .bytes b => Ord.compare a b
  | v, w => Ord.compare v.rank w.rank

/-- Compares two item lists at their first difference; the shorter one comes first if there is
none. -/
def compareItems : List Value → List Value → Ordering
  | [], [] => .eq
  | [], _ :: _ => .lt
  | _ :: _, [] => .gt
  | v :: vs, w :: ws => (compare v w).then (compareItems vs ws)

end

/-- Values are in this order. -/
instance : Ord Value := ⟨compare⟩

/-- Whether a value comes before or stands level with another. -/
def le (v w : Value) : Bool :=
  (compare v w).isLE

/-- The values in ascending order; equal ones stay side by side. -/
def sort (vs : List Value) : List Value :=
  vs.mergeSort le

/-- The values without repetitions. -/
def distinct (vs : List Value) : List Value :=
  vs.eraseDups

end TxStore.Value
