import Mathlib.Data.Nat.Digits.Defs
import TxStore.Json.Printer

/-!
# Texts that spell tokens

A text spells a list of tokens if it is their texts one after the other, with any blanks between
them; after a number there must be something that cannot belong to it (`Spells`). The scanner reads
every such text as the tokens that it spells (`tokens_of_spells`): whatever blanks there are, for
every integer, and for every string whatever characters it has.
-/

namespace TxStore.Json

open Document (printNumber printString printBool escapeChar)

/-! ## Numbers -/

/-- Whether what follows a number cannot belong to it. -/
def EndsNumber (cs : List Char) : Prop :=
  ∀ c ∈ cs.head?, c.isDigit = false ∧ c ≠ '.' ∧ c ≠ 'e' ∧ c ≠ 'E'

/-- The digits of a number are cut off where it ends. -/
theorem spanDigits_append {digits cs : List Char} (hdigits : ∀ c ∈ digits, c.isDigit = true)
    (h : EndsNumber cs) : spanDigits (digits ++ cs) = (digits, cs) := by
  have hcs : cs.takeWhile Char.isDigit = [] ∧ cs.dropWhile Char.isDigit = cs := by
    cases cs with
    | nil => exact ⟨rfl, rfl⟩
    | cons c cs =>
      have hc : ¬ c.isDigit = true := by simp [(h c rfl).1]
      exact ⟨List.takeWhile_cons_of_neg hc, List.dropWhile_cons_of_neg hc⟩
  unfold spanDigits
  rw [List.takeWhile_append_of_pos hdigits, List.dropWhile_append_of_pos hdigits, hcs.1, hcs.2,
    List.append_nil]

/-- Decimal digits stand for their number. -/
theorem digitsValue_toDigits (n : Nat) : digitsValue (Nat.toDigits 10 n) = n := by
  have hstep : (fun m (c : Char) => m * 10 + (c.toNat - '0'.toNat)) =
      fun m c => 10 * m + (c.toNat - '0'.toNat) := by
    funext m c
    rw [Nat.mul_comm]
  calc digitsValue (Nat.toDigits 10 n) = Nat.ofDigitChars 10 (Nat.toDigits 10 n) 0 := by
        unfold digitsValue Nat.ofDigitChars
        rw [hstep]
    _ = n := Nat.ofDigitChars_toDigits (by decide) (by decide)

/-- The digits of a number are digits. -/
theorem isDigit_of_mem_toDigits {n : Nat} {c : Char} (h : c ∈ Nat.toDigits 10 n) :
    c.isDigit = true :=
  Nat.isDigit_of_mem_toDigits (by decide) (by decide) h

/-- There is at least one of them. -/
theorem exists_toDigits_eq_cons (n : Nat) :
    ∃ c digits, Nat.toDigits 10 n = c :: digits ∧ c.isDigit = true := by
  obtain ⟨c, digits, hdigits⟩ : ∃ c digits, Nat.toDigits 10 n = c :: digits :=
    List.exists_cons_of_ne_nil Nat.toDigits_ne_nil
  exact ⟨c, digits, hdigits, isDigit_of_mem_toDigits (n := n) (hdigits ▸ List.mem_cons_self)⟩

/-- Only the digits of zero begin with a zero. -/
theorem toDigits_cases (n : Nat) :
    n = 0 ∨ ∃ c digits, Nat.toDigits 10 n = c :: digits ∧ c ≠ '0' := by
  induction n using Nat.strong_induction_on with
  | _ n ih =>
    rcases Nat.lt_or_ge n 10 with hlt | hge
    · rw [Nat.toDigits_of_lt_base hlt]
      rcases Nat.eq_zero_or_pos n with rfl | hpos
      · exact .inl rfl
      · -- The digits from 1 to 9 are behind that of zero.
        refine .inr ⟨_, _, rfl, fun hzero => ?_⟩
        have hvalue := Nat.toNat_digitChar_of_lt_ten hlt
        rw [hzero] at hvalue
        have hfirst : '0'.toNat = 48 := rfl
        omega
    · -- The last digit is put behind the digits of the tenth part, which begin with none.
      obtain hzero | ⟨c, digits, hdigits, hc⟩ := ih (n / 10) (by omega)
      · omega
      · refine .inr ⟨c, digits ++ [(n % 10).digitChar], ?_, hc⟩
        rw [Nat.toDigits_eq_if (by decide), if_neg (by omega), hdigits, List.cons_append]

/-- The whole part of a number is read up to its end. -/
theorem scanWhole_toDigits (n : Nat) {cs : List Char} (h : EndsNumber cs) :
    scanWhole (Nat.toDigits 10 n ++ cs) = some (n, cs) := by
  rcases toDigits_cases n with rfl | ⟨c, digits, hdigits, hc⟩
  · rfl
  · have hspan : spanDigits (Nat.toDigits 10 n ++ cs) = (Nat.toDigits 10 n, cs) :=
      spanDigits_append (fun _ => isDigit_of_mem_toDigits) h
    have hvalue := digitsValue_toDigits n
    rw [hdigits] at hspan hvalue ⊢
    rw [List.cons_append] at hspan ⊢
    -- A zero in front would be read as the whole number.
    unfold scanWhole
    split
    · rename_i heq
      injection heq with hzero
      exact absurd hzero hc
    · rw [hspan]
      dsimp only
      rw [hvalue]

/-- Where a number ends there is no fraction. -/
theorem EndsNumber.skipFraction {cs : List Char} (h : EndsNumber cs) :
    skipFraction cs = some (false, cs) := by
  unfold Json.skipFraction
  split
  · exact absurd rfl (h _ rfl).2.1
  · rfl

/-- Where a number ends there is no exponent. -/
theorem EndsNumber.skipExponent {cs : List Char} (h : EndsNumber cs) :
    skipExponent cs = some (false, cs) := by
  unfold Json.skipExponent
  split
  case h_7 => rfl
  all_goals first | exact absurd rfl (h _ rfl).2.2.1 | exact absurd rfl (h _ rfl).2.2.2

/-- An unsigned number is read up to its end. -/
theorem scanUnsigned_toDigits (negative : Bool) (n : Nat) {cs : List Char} (h : EndsNumber cs) :
    scanUnsigned negative (Nat.toDigits 10 n ++ cs) =
      some (if negative then if n = 0 then none else some (-n : Int) else some (n : Int), cs) := by
  unfold scanUnsigned
  rw [scanWhole_toDigits n h]
  simp [h.skipFraction, h.skipExponent]

/-- The digits of a number do not begin with a sign. -/
theorem scanNumber_toDigits (n : Nat) {cs : List Char} (h : EndsNumber cs) :
    scanNumber (Nat.toDigits 10 n ++ cs) = some (some (n : Int), cs) := by
  have hunsigned := scanUnsigned_toDigits false n h
  obtain ⟨c, digits, hdigits, hc⟩ := exists_toDigits_eq_cons n
  rw [hdigits, List.cons_append] at hunsigned ⊢
  unfold scanNumber
  split
  · rename_i heq
    injection heq with hsign
    rw [hsign] at hc
    cases hc
  · exact hunsigned

/-- A number that is not negative is printed as its digits. -/
theorem printNumber_ofNat (n : Nat) : printNumber (some (.ofNat n)) = Nat.toDigits 10 n :=
  Nat.toList_repr

/-- A negative number is printed with a sign before its digits. -/
theorem printNumber_negSucc (n : Nat) :
    printNumber (some (.negSucc n)) = '-' :: Nat.toDigits 10 (n + 1) := by
  show ("-" ++ (n + 1).repr).toList = _
  rw [String.toList_append, Nat.toList_repr]
  rfl

/-- A printed number is read up to its end. -/
theorem scanNumber_print (n : Option Int) {cs : List Char} (h : EndsNumber cs) :
    scanNumber (printNumber n ++ cs) = some (n, cs) := by
  match n with
  | none =>
    -- What is no integer is printed as minus zero.
    exact scanUnsigned_toDigits true 0 h
  | some (.ofNat n) =>
    rw [printNumber_ofNat]
    exact scanNumber_toDigits n h
  | some (.negSucc n) =>
    rw [printNumber_negSucc]
    exact scanUnsigned_toDigits true (n + 1) h

/-! ## Strings -/

/-- The four digits of a control character stand for it. -/
theorem hexDigits_of_control : ∀ n < 0x20,
    Text.hexDigits 4 n = ['0', '0', (n / 16).digitChar, (n % 16).digitChar] ∧
      hexValue4? '0' '0' (n / 16).digitChar (n % 16).digitChar = some n := by
  decide

/-- A printed character is read as its code point. -/
theorem scanString_escapeChar (c : Char) (cs : List Char) :
    scanString (escapeChar c ++ cs) = (scanString cs).map fun r => (c.toNat :: r.1, r.2) := by
  have hread : ∀ n : Nat, ((scanString cs).bind fun r => some (n :: r.1, r.2)) =
      (scanString cs).map fun r => (n :: r.1, r.2) := fun n => by
    cases scanString cs <;> rfl
  unfold escapeChar
  split_ifs with hquote hbackslash hback htab hline hfeed hreturn hcontrol
  -- The characters with an escape of their own.
  · subst hquote; exact hread _
  · subst hbackslash; exact hread _
  · subst hback; exact hread _
  · subst htab; exact hread _
  · subst hline; exact hread _
  · subst hfeed; exact hread _
  · subst hreturn; exact hread _
  -- The other control characters are written in four digits.
  · obtain ⟨hdigits, hvalue⟩ := hexDigits_of_control c.toNat hcontrol
    rw [hdigits]
    simp only [List.cons_append, List.nil_append]
    rw [scanString, hvalue]
    exact hread _
  -- All others stand for themselves: they are not the quote, nor do they begin an escape.
  · rw [List.singleton_append, scanString.eq_def (c :: cs)]
    split
    · rename_i heq; cases heq
    · rename_i heq; injection heq with h; exact absurd h hquote
    · rename_i heq; injection heq with h; exact absurd h hbackslash
    · rename_i heq; injection heq with h; exact absurd h hbackslash
    · rename_i heq
      injection heq with hc hcs
      subst hc hcs
      rw [if_neg hcontrol]
      exact hread _

/-- Printed characters are read up to the closing quote. -/
theorem scanString_escape (s cs : List Char) :
    scanString (s.flatMap escapeChar ++ '"' :: cs) = some (s.map Char.toNat, cs) := by
  induction s with
  | nil => rfl
  | cons c s ih =>
    rw [List.flatMap_cons, List.append_assoc, scanString_escapeChar, ih]
    rfl

/-- A code point of a character is no surrogate. -/
theorem pairSurrogates_cons (c : Char) (units : List Nat) :
    pairSurrogates (c.toNat :: units) = (pairSurrogates units).map (c :: ·) := by
  have hvalid : c.toNat < 0xd800 ∨ 0xdfff < c.toNat ∧ c.toNat < 0x110000 := c.valid
  have hhigh : isHighSurrogate c.toNat = false := by
    simp only [isHighSurrogate, Bool.and_eq_false_iff, decide_eq_false_iff_not]
    omega
  have hlow : isLowSurrogate c.toNat = false := by
    simp only [isLowSurrogate, Bool.and_eq_false_iff, decide_eq_false_iff_not]
    omega
  cases units with
  | nil => simp [pairSurrogates, hhigh, hlow]
  | cons m rest => simp [pairSurrogates, hhigh, hlow]

/-- The code points of characters are read as these characters. -/
theorem pairSurrogates_toNat (s : List Char) : pairSurrogates (s.map Char.toNat) = some s := by
  induction s with
  | nil => rfl
  | cons c s ih =>
    rw [List.map_cons, pairSurrogates_cons, ih]
    rfl

/-- A printed string is read up to its end. -/
theorem scanString_print (s : Option String) (cs : List Char) :
    ∃ units, scanString ((printString s).tail ++ cs) = some (units, cs) ∧
      (pairSurrogates units).map String.ofList = s := by
  cases s with
  | none => exact ⟨[0xd800], rfl, rfl⟩
  | some s =>
    refine ⟨s.toList.map Char.toNat, ?_, ?_⟩
    · show scanString ((s.toList.flatMap escapeChar ++ ['"']) ++ cs) = _
      rw [List.append_assoc, List.singleton_append, scanString_escape]
    · rw [pairSurrogates_toNat]
      exact congrArg some String.ofList_toList

/-! ## Tokens -/

/-- The text of a token. -/
def Token.text : Token → List Char
  | .null => "null".toList
  | .bool b => printBool b
  | .number n => printNumber n
  | .string s => printString s
  | .comma => [',']
  | .colon => [':']
  | .openArray => ['[']
  | .closeArray => [']']
  | .openObject => ['\x7b']
  | .closeObject => ['\x7d']

/-- Whether a text spells tokens. -/
inductive Spells : List Token → List Char → Prop where
  /-- Nothing spells no tokens. -/
  | nil : Spells [] []
  /-- A blank may stand before any token and at the end. -/
  | blank {ts : List Token} {c : Char} {cs : List Char} (blank : isBlank c = true)
      (rest : Spells ts cs) : Spells ts (c :: cs)
  /-- The text of a token stands before what spells the others. -/
  | token {t : Token} {ts : List Token} {cs : List Char}
      (ends : ∀ n, t = .number n → EndsNumber cs) (rest : Spells ts cs) :
      Spells (t :: ts) (t.text ++ cs)

/-- A number begins with a sign or a digit. -/
theorem printNumber_cases (n : Option Int) :
    ∃ c cs, printNumber n = c :: cs ∧ (c = '-' ∨ c.isDigit = true) := by
  match n with
  | none => exact ⟨_, _, rfl, .inl rfl⟩
  | some (.ofNat n) =>
    obtain ⟨c, digits, hdigits, hc⟩ := exists_toDigits_eq_cons n
    exact ⟨c, digits, (printNumber_ofNat n).trans hdigits, .inr hc⟩
  | some (.negSucc n) => exact ⟨_, _, printNumber_negSucc n, .inl rfl⟩

/-- What begins like a number begins with no blank, and is read as a number. -/
theorem scanToken_of_number {c : Char} (h : c = '-' ∨ c.isDigit = true) (cs : List Char) :
    isBlank c = false ∧
      scanToken (c :: cs) = (scanNumber (c :: cs)).map fun n => (.number n.1, n.2) := by
  have hc : ∀ d, d ≠ '-' → d.isDigit = false → c ≠ d := by
    rintro d hsign hdigit rfl
    rcases h with h | h
    · exact hsign h
    · rw [hdigit] at h
      cases h
  constructor
  · simp [isBlank, hc]
  · unfold scanToken
    split
    case h_11 => rfl
    all_goals rename_i heq; injection heq with hhead; exact absurd hhead (hc _ (by decide) rfl)

/-- The text of a token does not begin with a blank. -/
theorem Token.text_cases (t : Token) : ∃ c cs, t.text = c :: cs ∧ isBlank c = false := by
  cases t with
  | number n =>
    obtain ⟨c, cs, hprint, hc⟩ := printNumber_cases n
    exact ⟨c, cs, hprint, (scanToken_of_number hc []).1⟩
  | string s =>
    cases s with
    | none => exact ⟨_, _, rfl, rfl⟩
    | some s => exact ⟨_, _, rfl, rfl⟩
  | bool b => cases b <;> exact ⟨_, _, rfl, rfl⟩
  | _ => exact ⟨_, _, rfl, rfl⟩

/-- A token is read from its text. -/
theorem scanToken_text (t : Token) {cs : List Char} (h : ∀ n, t = .number n → EndsNumber cs) :
    scanToken (t.text ++ cs) = some (t, cs) := by
  cases t with
  | number n =>
    obtain ⟨c, digits, hprint, hc⟩ := printNumber_cases n
    have hnumber := scanNumber_print n (h n rfl)
    rw [hprint, List.cons_append] at hnumber
    show scanToken (printNumber n ++ cs) = _
    rw [hprint, List.cons_append, (scanToken_of_number hc _).2, hnumber]
    rfl
  | string s =>
    obtain ⟨units, hstring, hunits⟩ := scanString_print s cs
    have hprint : printString s = '"' :: (printString s).tail := by cases s <;> rfl
    show scanToken (printString s ++ cs) = _
    rw [hprint, List.cons_append, scanToken, hstring, Option.map_some, hunits]
  | bool b => cases b <;> rfl
  | _ => rfl

/-- What spells tokens is read as them. -/
theorem Spells.scanTokens {ts : List Token} {cs : List Char} (h : Spells ts cs) {fuel : Nat}
    (hfuel : cs.length < fuel) : scanTokens fuel cs = some ts := by
  induction h generalizing fuel with
  | nil =>
    cases fuel with
    | zero => cases hfuel
    | succ fuel => rfl
  | @blank ts c cs blank rest ih =>
    cases fuel with
    | zero => cases hfuel
    | succ fuel =>
      -- The scanner drops the blank before it looks for a token, without a step of its own.
      have hrest : Json.scanTokens (fuel + 1) cs = some ts :=
        ih (Nat.lt_of_succ_lt hfuel)
      unfold Json.scanTokens at hrest ⊢
      rw [List.dropWhile_cons_of_pos blank]
      exact hrest
  | @token t ts cs ends rest ih =>
    cases fuel with
    | zero => cases hfuel
    | succ fuel =>
      obtain ⟨c, word, htext, hblank⟩ := t.text_cases
      have hscan := scanToken_text t ends
      rw [htext, List.cons_append] at hscan hfuel ⊢
      -- The first character of the token pays for this step.
      have hrest : Json.scanTokens fuel cs = some ts := by
        refine ih ?_
        simp only [List.length_cons, List.length_append] at hfuel
        omega
      unfold Json.scanTokens
      rw [List.dropWhile_cons_of_neg (by simp [hblank])]
      dsimp only
      rw [hscan]
      simp [hrest]

/-- The tokens of a text are those that it spells. -/
theorem tokens_of_spells {ts : List Token} {cs : List Char} (h : Spells ts cs) :
    tokens (String.ofList cs) = some ts := by
  unfold tokens
  rw [String.toList_ofList]
  exact h.scanTokens (Nat.lt_succ_self _)

end TxStore.Json
