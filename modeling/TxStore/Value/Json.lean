import TxStore.Json.Printer
import TxStore.Value.Basic

/-!
# Values and kinds as JSON

Null, truth values, integers, texts and arrays are written as JSON has them. A byte string is an
object with the single field `bytes`, so that it is not taken for an array of integers. Reading
accepts what writing produces and nothing else: integers of 64 bits, and objects of this one shape.
-/

namespace TxStore

namespace Value

mutual

/-- The document of a value. -/
def document : Value → Document
  | .null => .null
  | .bool b => .bool b
  | .integer n => .number (some n.toInt)
  | .text s => .string (some s)
  | .array items => .array (documents items)
  | .bytes data => .object [(some "bytes", .array (data.map fun b => .number (some b.toNat)))]

/-- The documents of the items. -/
def documents : List Value → List Document
  | [] => []
  | v :: rest => document v :: documents rest

end

/-- A byte, which must be an integer from 0 to 255. -/
def byte? : Document → Option UInt8
  | .number (some n) => if 0 ≤ n ∧ n < 256 then some n.toNat.toUInt8 else none
  | _ => none

/-- An integer of 64 bits. -/
def int64? (n : Int) : Option Int64 :=
  if Int64.minValue.toInt ≤ n ∧ n ≤ Int64.maxValue.toInt then some (Int64.ofInt n) else none

mutual

/-- The value of a document. -/
def ofDocument? : Document → Option Value
  | .null => some .null
  | .bool b => some (.bool b)
  | .number (some n) => (int64? n).map .integer
  | .string (some s) => some (.text s)
  | .array items => (ofDocuments? items).map .array
  | .object [(some "bytes", .array items)] => (items.mapM byte?).map .bytes
  | .number none | .string none | .object _ => none

/-- The values of the items. -/
def ofDocuments? : List Document → Option (List Value)
  | [] => some []
  | j :: rest => do return (← ofDocument? j) :: (← ofDocuments? rest)

end

/-- The value of a document that nests within the limit. -/
def ofDocumentWithin? (limit : Nat) (j : Document) : Option Value :=
  if j.depth ≤ limit then ofDocument? j else none

/-- The text of a value's document. -/
def print (v : Value) : String :=
  v.document.compress

/-- The value that a text holds. -/
def parse? (s : String) : Option Value := do
  ofDocumentWithin? Document.depthLimit (← Document.parse? s)

end Value

namespace Kind

/-- The document of a kind: its name. -/
def document (k : Kind) : Document :=
  .string (some k.name)

/-- The kind of a document: a name, or an object with the name as its only field and null under
it. -/
def ofDocument? : Document → Option Kind
  | .string (some s) => ofName? s
  | .object [(some s, .null)] => ofName? s
  | _ => none

/-- The text of a kind's document. -/
def print (k : Kind) : String :=
  k.document.compress

/-- The kind that a text holds. -/
def parse? (s : String) : Option Kind := do
  ofDocument? (← Document.parse? s)

end Kind

end TxStore
