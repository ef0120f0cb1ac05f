/-!
# Spans of time

A `Duration` counts nanoseconds. Its text uses the largest unit of which there is at least one, and
writes the rest as a decimal fraction without trailing zeros: `3s`, `1.5s`, `250ms`, `0ns`.
-/

namespace TxStore

/-- A span of time. -/
structure Duration where
  /-- Its length in nanoseconds. -/
  nanos : Nat
  deriving DecidableEq, Inhabited

namespace Duration

/-- A number of whole seconds. -/
def ofSeconds (n : Nat) : Duration := ⟨n * 1000000000⟩

/-- A number of whole milliseconds. -/
def ofMillis (n : Nat) : Duration := ⟨n * 1000000⟩

/-- The whole milliseconds in a span. -/
def toMillis (d : Duration) : Nat := d.nanos / 1000000

/-- The decimal digits of `n < 10 ^ places` after the point, without trailing zeros. -/
def fractionDigits : (places : Nat) → (n : Nat) → List Char
  | 0, _ => []
  | places + 1, n =>
    if n = 0 then []
    else Nat.digitChar (n / Nat.pow 10 places) :: fractionDigits places (n % Nat.pow 10 places)

/-- The text of `n` parts of which `10 ^ places` make one unit. -/
def inUnit (places : Nat) (unit : String) (n : Nat) : String :=
  let whole := toString (n / Nat.pow 10 places)
  match fractionDigits places (n % Nat.pow 10 places) with
  | [] => whole ++ unit
  | digits => whole ++ "." ++ String.ofList digits ++ unit

/-- The text of a span in the largest unit that it reaches. -/
def describe (d : Duration) : String :=
  if 1000000000 ≤ d.nanos then inUnit 9 "s" d.nanos
  else if 1000000 ≤ d.nanos then inUnit 6 "ms" d.nanos
  else if 1000 ≤ d.nanos then inUnit 3 "µs" d.nanos
  else inUnit 0 "ns" d.nanos

/-- The text of an optional span in structural listings. -/
def describe? : Option Duration → String
  | none => "None"
  | some d => "Some(" ++ d.describe ++ ")"

end Duration

end TxStore
