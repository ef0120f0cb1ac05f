/-!
# The tokens of JSON text

A text is cut into tokens, with blanks between them. An integer token carries its number; all other
numbers (with a fraction or an exponent, and minus zero) are alike. A string token carries its text,
unless an escape in it stands for half a surrogate pair without the other half.

Documents are read and printed by a library outside this development. What is specified here and in
the two modules that follow is the strict JSON that is assumed of it. For tokens that is: blanks are
the space, the tab and the two line breaks; there are no comments; a number has no sign but a minus
and no leading zero; a string escapes its quotes, backslashes and control characters, by one of the
eight letters and signs of `escaped?` or by four hexadecimal digits of either case, and a character
outside the basic plane by two such escapes.
-/

namespace TxStore.Json

/-- A token of JSON text. -/
inductive Token where
  /-- The word `null`. -/
  | null
  /-- The word `true` or `false`. -/
  | bool (b : Bool)
  /-- An integer, or none for any other number. -/
  | number (n : Option Int)
  /-- A text, or none if it has an unpaired surrogate. -/
  | string (s : Option String)
  /-- The sign between items. -/
  | comma
  /-- The sign between the name of a field and what it holds. -/
  | colon
  /-- The bracket before the items of an array. -/
  | openArray
  /-- The bracket after them. -/
  | closeArray
  /-- The brace before the fields of an object. -/
  | openObject
  /-- The brace after them. -/
  | closeObject
  deriving DecidableEq

/-- Whether a character may stand between tokens. -/
def isBlank (c : Char) : Bool :=
  c = ' ' || c = '\t' || c = '\n' || c = '\r'

/-! ## Strings -/

/-- The value of a hexadecimal digit of either case. -/
def hexValue? (c : Char) : Option Nat :=
  if '0' ≤ c ∧ c ≤ '9' then some (c.toNat - '0'.toNat)
  else if 'a' ≤ c ∧ c ≤ 'f' then some (c.toNat - 'a'.toNat + 10)
  else if 'A' ≤ c ∧ c ≤ 'F' then some (c.toNat - 'A'.toNat + 10)
  else none

/-- The value of four hexadecimal digits. -/
def hexValue4? (a b c d : Char) : Option Nat := do
  let high := (← hexValue? a) * 16 + (← hexValue? b)
  let low := (← hexValue? c) * 16 + (← hexValue? d)
  return high * 256 + low

/-- The character of an escape by one letter. -/
def escaped? : Char → Option Char
  | '"' => some '"'
  | '\\' => some '\\'
  | '/' => some '/'
  | 'b' => some '\x08'
  | 'f' => some '\x0c'
  | 'n' => some '\n'
  | 'r' => some '\r'
  | 't' => some '\t'
  | _ => none

/-- The code points of a string up to its closing quote, and what follows. Control characters must
be escaped. -/
def scanString : List Char → Option (List Nat × List Char)
  | [] => none
  | '"' :: rest => some ([], rest)
  | '\\' :: 'u' :: a :: b :: c :: d :: rest => do
    let n ← hexValue4? a b c d
    let (units, after) ← scanString rest
    return (n :: units, after)
  | '\\' :: c :: rest => do
    let e ← escaped? c
    let (units, after) ← scanString rest
    return (e.toNat :: units, after)
  | c :: rest =>
    if c.toNat < 0x20 then none
    else do
      let (units, after) ← scanString rest
      return (c.toNat :: units, after)

/-- Whether a code point opens a surrogate pair. -/
def isHighSurrogate (n : Nat) : Bool := 0xd800 ≤ n && n < 0xdc00

/-- Whether a code point closes a surrogate pair. -/
def isLowSurrogate (n : Nat) : Bool := 0xdc00 ≤ n && n < 0xe000

/-- The characters of code points, with surrogate pairs joined. -/
def pairSurrogates : List Nat → Option (List Char)
  | [] => some []
  | [n] => if isHighSurrogate n || isLowSurrogate n then none else some [Char.ofNat n]
  | n :: m :: rest =>
    if isHighSurrogate n then
      if isLowSurrogate m then
        (Char.ofNat (0x10000 + (n - 0xd800) * 0x400 + (m - 0xdc00)) :: ·) <$> pairSurrogates rest
      else none
    else if isLowSurrogate n then none
    else (Char.ofNat n :: ·) <$> pairSurrogates (m :: rest)

/-! ## Numbers -/

/-- The digits at the front of a text, and what follows. -/
def spanDigits (cs : List Char) : List Char × List Char :=
  (cs.takeWhile Char.isDigit, cs.dropWhile Char.isDigit)

/-- The number that decimal digits stand for. -/
def digitsValue (digits : List Char) : Nat :=
  digits.foldl (fun n c => n * 10 + (c.toNat - '0'.toNat)) 0

/-- The whole part of a number: a zero alone, or digits that do not begin with a zero. -/
def scanWhole : List Char → Option (Nat × List Char)
  | '0' :: rest => some (0, rest)
  | cs =>
    match spanDigits cs with
    | ([], _) => none
    | (digits, rest) => some (digitsValue digits, rest)

/-- Skips a fraction if there is one, and says whether there was. -/
def skipFraction : List Char → Option (Bool × List Char)
  | '.' :: cs =>
    match spanDigits cs with
    | ([], _) => none
    | (_, rest) => some (true, rest)
  | cs => some (false, cs)

/-- Skips the digits of an exponent, of which there must be some. -/
def skipExponentDigits (cs : List Char) : Option (Bool × List Char) :=
  match spanDigits cs with
  | ([], _) => none
  | (_, rest) => some (true, rest)

/-- Skips an exponent if there is one, and says whether there was. -/
def skipExponent : List Char → Option (Bool × List Char)
  | 'e' :: '+' :: cs | 'e' :: '-' :: cs | 'E' :: '+' :: cs | 'E' :: '-' :: cs
  | 'e' :: cs | 'E' :: cs => skipExponentDigits cs
  | cs => some (false, cs)

/-- A number after its sign. -/
def scanUnsigned (negative : Bool) (cs : List Char) : Option (Option Int × List Char) := do
  let (whole, cs) ← scanWhole cs
  let (fraction, cs) ← skipFraction cs
  let (exponent, cs) ← skipExponent cs
  let n : Option Int :=
    if fraction || exponent then none
    else if negative then if whole = 0 then none else some (-whole)
    else some whole
  return (n, cs)

/-- A number. -/
def scanNumber : List Char → Option (Option Int × List Char)
  | '-' :: cs => scanUnsigned true cs
  | cs => scanUnsigned false cs

/-! ## Texts -/

/-- The token at the front of a text that does not begin with a blank, and what follows. -/
def scanToken : List Char → Option (Token × List Char)
  | ',' :: rest => some (.comma, rest)
  | ':' :: rest => some (.colon, rest)
  | '[' :: rest => some (.openArray, rest)
  | ']' :: rest => some (.closeArray, rest)
  | '\x7b' :: rest => some (.openObject, rest)
  | '\x7d' :: rest => some (.closeObject, rest)
  | 'n' :: 'u' :: 'l' :: 'l' :: rest => some (.null, rest)
  | 't' :: 'r' :: 'u' :: 'e' :: rest => some (.bool true, rest)
  | 'f' :: 'a' :: 'l' :: 's' :: 'e' :: rest => some (.bool false, rest)
  | '"' :: rest =>
    (scanString rest).map fun s => (.string ((pairSurrogates s.1).map String.ofList), s.2)
  | cs => (scanNumber cs).map fun n => (.number n.1, n.2)

/-- The tokens of a text, if there are fewer than `fuel`. -/
def scanTokens : (fuel : Nat) → List Char → Option (List Token)
  | 0, _ => none
  | fuel + 1, cs =>
    match cs.dropWhile isBlank with
    | [] => some []
    | c :: rest => do
      let (token, after) ← scanToken (c :: rest)
      return token :: (← scanTokens fuel after)

/-- The tokens of a text. Every token takes up a character. -/
def tokens (s : String) : Option (List Token) :=
  scanTokens (s.toList.length + 1) s.toList

end TxStore.Json
