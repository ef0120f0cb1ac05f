import TxStore.Text

/-!
# Values and kinds

A row key or a row value is a `Value`: null, a boolean, a 64-bit integer, a text, an array of
values or a byte string. There are no floating-point numbers, since keys need an equality that is
reflexive. A `Kind` is what a table declares about its keys or its values; `any` accepts all.
-/

namespace TxStore

/-- A key or a value of a row. -/
inductive Value where
  /-- The absent value. -/
  | null
  /-- A truth value. -/
  | bool (b : Bool)
  /-- A signed 64-bit integer. -/
  | integer (n : Int64)
  /-- A text. -/
  | text (s : String)
  /-- A sequence of values, such as a composite key. -/
  | array (items : List Value)
  /-- A byte string. -/
  | bytes (data : List UInt8)

/-- What a table declares about its keys or its values. -/
inductive Kind where
  /-- Every value. -/
  | any
  /-- Only null. -/
  | null
  /-- Only truth values. -/
  | bool
  /-- Only integers. -/
  | integer
  /-- Only texts. -/
  | text
  /-- Only arrays. -/
  | array
  /-- Only byte strings. -/
  | bytes
  deriving DecidableEq, Inhabited

namespace Value

/-- The absent value serves as the default. -/
instance : Inhabited Value := ⟨null⟩

mutual

/-- Equality of values is decided by descent into arrays. -/
def decEq : (v w : Value) → Decidable (v = w)
  | .null, .null => isTrue rfl
  | .bool a, .bool b =>
    if h : a = b then isTrue (h ▸ rfl) else isFalse fun e => h (Value.bool.inj e)
  | .integer a, .integer b =>
    if h : a = b then isTrue (h ▸ rfl) else isFalse fun e => h (Value.integer.inj e)
  | .text a, .text b =>
    if h : a = b then isTrue (h ▸ rfl) else isFalse fun e => h (Value.text.inj e)
  | .array a, .array b =>
    match decEqItems a b with
    | isTrue h => isTrue (h ▸ rfl)
    | isFalse h => isFalse fun e => h (Value.array.inj e)
  | .bytes a, .bytes b =>
    if h : a = b then isTrue (h ▸ rfl) else isFalse fun e => h (Value.bytes.inj e)
  | .null, .bool _ | .null, .integer _ | .null, .text _ | .null, .array _ | .null, .bytes _
  | .bool _, .null | .bool _, .integer _ | .bool _, .text _ | .bool _, .array _
  | .bool _, .bytes _ | .integer _, .null | .integer _, .bool _ | .integer _, .text _
  | .integer _, .array _ | .integer _, .bytes _ | .text _, .null | .text _, .bool _
  | .text _, .integer _ | .text _, .array _ | .text _, .bytes _ | .array _, .null
  | .array _, .bool _ | .array _, .integer _ | .array _, .text _ | .array _, .bytes _
  | .bytes _, .null | .bytes _, .bool _ | .bytes _, .integer _ | .bytes _, .text _
  | .bytes _, .array _ => isFalse nofun

/-- Equality of item lists is decided item by item. -/
def decEqItems : (vs ws : List Value) → Decidable (vs = ws)
  | [], [] => isTrue rfl
  | v :: vs, w :: ws =>
    match decEq v w with
    | isFalse h => isFalse fun e => h (List.cons.inj e).1
    | isTrue h =>
      match decEqItems vs ws with
      | isFalse h' => isFalse fun e => h' (List.cons.inj e).2
      | isTrue h' => isTrue (h ▸ h' ▸ rfl)
  | [], _ :: _ | _ :: _, [] => isFalse nofun

end

/-- Values can be compared, though arrays are nested. -/
instance : DecidableEq Value := decEq

/-- The kind of a value; never `any`. -/
def kind : Value → Kind
  | null => .null
  | bool _ => .bool
  | integer _ => .integer
  | text _ => .text
  | array _ => .array
  | bytes _ => .bytes

/-- The number of an integer. -/
def integer? : Value → Option Int64
  | integer n => some n
  | _ => none

/-- The text of a text. -/
def text? : Value → Option String
  | text s => some s
  | _ => none

/-- Whether a value is null. -/
def isNull : Value → Bool
  | null => true
  | _ => false

mutual

/-- The text of a value as it stands in messages: texts unquoted, arrays in brackets with `, `
between the items, byte strings in hexadecimal after `0x`. -/
def display : Value → String
  | .null => "null"
  | .bool b => if b then "true" else "false"
  | .integer n => toString n.toInt
  | .text s => s
  | .array items => "[" ++ displayItems items ++ "]"
  | .bytes data => "0x" ++ String.join (data.map fun b => Text.hex 2 b.toNat)

/-- The texts of the items, separated by a comma and a blank. -/
def displayItems : List Value → String
  | [] => ""
  | [v] => display v
  | v :: w :: rest => display v ++ ", " ++ displayItems (w :: rest)

end

end Value

namespace Kind

/-- The name of a kind. -/
def name : Kind → String
  | any => "any"
  | null => "null"
  | bool => "bool"
  | integer => "integer"
  | text => "text"
  | array => "array"
  | bytes => "bytes"

/-- All kinds. -/
def all : List Kind := [any, null, bool, integer, text, array, bytes]

/-- The kind with a given name. -/
def ofName? (s : String) : Option Kind :=
  all.find? fun k => k.name = s

/-- A kind accepts the values of that kind, and `any` accepts all. -/
def accepts (k : Kind) (v : Value) : Bool :=
  k = any || k = v.kind

end Kind

end TxStore
