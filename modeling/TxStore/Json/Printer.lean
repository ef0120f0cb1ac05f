import TxStore.Json.Document
import TxStore.Text

/-!
# Printing JSON documents

A document is printed compactly, or over several lines with two blanks for each level. Quotes,
backslashes and control characters are escaped, by a letter where there is one, and all other
characters stand for themselves. Numbers that are no integers are all printed as minus zero, and
strings that are no texts as an unpaired surrogate, so that they are read as what they are.

This is how the library by which documents are written is assumed to print: the letters it escapes
by are `b`, `t`, `n`, `f` and `r`, the other control characters have four digits in lower case, the
slash and all characters from the space on stand for themselves, and the fields of an object keep
their order.
-/

namespace TxStore.Document

/-- One character of a string. -/
def escapeChar (c : Char) : List Char :=
  if c = '"' then ['\\', '"']
  else if c = '\\' then ['\\', '\\']
  else if c = '\x08' then ['\\', 'b']
  else if c = '\t' then ['\\', 't']
  else if c = '\n' then ['\\', 'n']
  else if c = '\x0c' then ['\\', 'f']
  else if c = '\r' then ['\\', 'r']
  else if c.toNat < 0x20 then ['\\', 'u'] ++ Text.hexDigits 4 c.toNat
  else [c]

/-- A string with its quotes. -/
def printString : Option String → List Char
  | none => "\"\\ud800\"".toList
  | some s => '"' :: s.toList.flatMap escapeChar ++ ['"']

/-- A number. -/
def printNumber : Option Int → List Char
  | none => ['-', '0']
  | some n => (toString n).toList

/-- A leaf. -/
def printBool (b : Bool) : List Char :=
  (if b then "true" else "false").toList

mutual

/-- A document without blanks. -/
def compact : Document → List Char
  | .null => "null".toList
  | .bool b => printBool b
  | .number n => printNumber n
  | .string s => printString s
  | .array items => '[' :: compactItems items ++ [']']
  | .object fields => '\x7b' :: compactFields fields ++ ['\x7d']

/-- Items with commas between them. -/
def compactItems : List Document → List Char
  | [] => []
  | [j] => compact j
  | j :: k :: rest => compact j ++ ',' :: compactItems (k :: rest)

/-- Fields with commas between them. -/
def compactFields : List (Option String × Document) → List Char
  | [] => []
  | [(name, j)] => printString name ++ ':' :: compact j
  | (name, j) :: f :: rest =>
    printString name ++ ':' :: compact j ++ ',' :: compactFields (f :: rest)

end

/-- A new line at a level. -/
def newLine (level : Nat) : List Char :=
  '\n' :: List.replicate (2 * level) ' '

mutual

/-- A document over several lines, beginning at a level. -/
def prettyAt (level : Nat) : Document → List Char
  | .null => "null".toList
  | .bool b => printBool b
  | .number n => printNumber n
  | .string s => printString s
  | .array [] => ['[', ']']
  | .array (j :: rest) =>
    '[' :: newLine (level + 1) ++ prettyItems (level + 1) (j :: rest) ++ newLine level ++ [']']
  | .object [] => ['\x7b', '\x7d']
  | .object (f :: rest) =>
    '\x7b' :: newLine (level + 1) ++ prettyFields (level + 1) (f :: rest) ++ newLine level ++
      ['\x7d']

/-- Items, each on a line of its own. -/
def prettyItems (level : Nat) : List Document → List Char
  | [] => []
  | [j] => prettyAt level j
  | j :: k :: rest => prettyAt level j ++ ',' :: newLine level ++ prettyItems level (k :: rest)

/-- Fields, each on a line of its own. -/
def prettyFields (level : Nat) : List (Option String × Document) → List Char
  | [] => []
  | [(name, j)] => printString name ++ ':' :: ' ' :: prettyAt level j
  | (name, j) :: f :: rest =>
    printString name ++ ':' :: ' ' :: prettyAt level j ++ ',' :: newLine level ++
      prettyFields level (f :: rest)

end

/-- The compact text of a document. -/
def compress (j : Document) : String :=
  String.ofList j.compact

/-- The text of a document over several lines. -/
def pretty (j : Document) : String :=
  String.ofList (prettyAt 0 j)

end TxStore.Document
