import TxStore.Json.Token

/-!
# JSON documents

A document is a tree. The fields of an object stay in the order of the text and may repeat, since it
is up to the reader of a document what a repeated field means. Numbers and strings are as their
tokens have them.

This is the grammar of the strict JSON that is assumed of the library by which documents are read:
there is exactly one document in a text, commas stand between items only, and fields have names in
quotes. The library refuses documents whose arrays and objects are nested deeper than `depthLimit`;
the readers that are specified on top of it ask for the `depth`.
-/

namespace TxStore

/-- A JSON document. -/
inductive Document where
  /-- Nothing. -/
  | null
  /-- A truth value. -/
  | bool (b : Bool)
  /-- An integer, or none for any other number. -/
  | number (n : Option Int)
  /-- A text, or none if it has an unpaired surrogate. -/
  | string (s : Option String)
  /-- Items in a row. -/
  | array (items : List Document)
  /-- What stands under each of several names. -/
  | object (fields : List (Option String × Document))

namespace Document

open Json (Token)

/-- The document `null` serves as the default. -/
instance : Inhabited Document := ⟨null⟩

mutual

/-- The document at the front of a list of tokens, and what follows. -/
def ofTokens? : (fuel : Nat) → List Token → Option (Document × List Token)
  | 0, _ => none
  | _ + 1, .null :: rest => some (.null, rest)
  | _ + 1, .bool b :: rest => some (.bool b, rest)
  | _ + 1, .number n :: rest => some (.number n, rest)
  | _ + 1, .string s :: rest => some (.string s, rest)
  | _ + 1, .openArray :: .closeArray :: rest => some (.array [], rest)
  | _ + 1, .openObject :: .closeObject :: rest => some (.object [], rest)
  | fuel + 1, .openArray :: rest => (items? fuel rest).map fun r => (.array r.1, r.2)
  | fuel + 1, .openObject :: rest => (fields? fuel rest).map fun r => (.object r.1, r.2)
  | _ + 1, _ => none

/-- One item or more, separated by commas, up to the end of the array. -/
def items? : (fuel : Nat) → List Token → Option (List Document × List Token)
  | 0, _ => none
  | fuel + 1, ts =>
    match ofTokens? fuel ts with
    | some (item, .comma :: rest) => (items? fuel rest).map fun r => (item :: r.1, r.2)
    | some (item, .closeArray :: rest) => some ([item], rest)
    | _ => none

/-- One field or more, separated by commas, up to the end of the object. -/
def fields? : (fuel : Nat) → List Token → Option (List (Option String × Document) × List Token)
  | 0, _ => none
  | fuel + 1, .string name :: .colon :: ts =>
    match ofTokens? fuel ts with
    | some (item, .comma :: rest) => (fields? fuel rest).map fun r => ((name, item) :: r.1, r.2)
    | some (item, .closeObject :: rest) => some ([(name, item)], rest)
    | _ => none
  | _ + 1, _ => none

end

/-- The document that a text holds, if it holds exactly one. Each level of nesting and each item
costs at most two turns, and has a token of its own. -/
def parse? (s : String) : Option Document := do
  let ts ← Json.tokens s
  match ← ofTokens? (2 * ts.length + 1) ts with
  | (j, []) => some j
  | _ => none

/-- How deep the arrays and objects of a document may be nested for the library to read it. -/
def depthLimit : Nat := 127

mutual

/-- How deep arrays and objects are nested; nothing is nested in a leaf. -/
def depth : Document → Nat
  | .array items => depthItems items + 1
  | .object fields => depthFields fields + 1
  | .null | .bool _ | .number _ | .string _ => 0

/-- The greatest depth of the items. -/
def depthItems : List Document → Nat
  | [] => 0
  | j :: rest => max (depth j) (depthItems rest)

/-- The greatest depth of the fields. -/
def depthFields : List (Option String × Document) → Nat
  | [] => 0
  | (_, j) :: rest => max (depth j) (depthFields rest)

end

end Document

end TxStore
