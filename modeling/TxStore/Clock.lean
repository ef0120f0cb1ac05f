import TxStore.Identifier

/-!
# Clocks

Transactions take their timestamps from a clock. A database works with any `Clock`; one that is fit
for it never reads the same or less than it did before, so that its readings are
`Timestamp.increasing`. A counting clock counts up by one at each reading, modulo `2^64`. A strict
clock follows outside readings of the time, but never stands still, as long as there are greater
timestamps.
-/

namespace TxStore

/-- Whether each timestamp is strictly older than the next. -/
def Timestamp.increasing : List Timestamp → Bool
  | [] | [_] => true
  | a :: b :: rest => a.isBefore b && increasing (b :: rest)

/-- A clock: what it is going to read, and how far it has been read. -/
structure Clock where
  /-- What each reading yields; they are numbered from zero. -/
  reading : (n : Nat) → Timestamp
  /-- Its text in structural listings after `n` readings. -/
  listing : (n : Nat) → String
  /-- How many readings have been taken. -/
  taken : Nat

namespace Clock

/-- Reads the clock. -/
def read (c : Clock) : Timestamp × Clock :=
  (c.reading c.taken, { c with taken := c.taken + 1 })

/-- The next `n` readings. -/
def readings : (n : Nat) → Clock → List Timestamp
  | 0, _ => []
  | n + 1, c =>
    let (ts, c) := c.read
    ts :: readings n c

/-- The text of a clock in structural listings. -/
def describe (c : Clock) : String :=
  c.listing c.taken

/-- The state before reading `n`, if each reading steps from one state to the next. -/
def stateAt {κ : Type} (step : (n : Nat) → κ → Timestamp × κ) (start : κ) : (n : Nat) → κ
  | 0 => start
  | n + 1 => (step n (stateAt step start n)).2

/-- A clock that goes from state to state. -/
def ofSteps {κ : Type} (step : (n : Nat) → κ → Timestamp × κ) (describe : κ → String)
    (start : κ) : Clock where
  reading n := (step n (stateAt step start n)).1
  listing n := describe (stateAt step start n)
  taken := 0

end Clock

/-- The state of a clock that counts its readings. -/
structure CountingClock where
  /-- What it reads next. -/
  next : UInt64
  deriving DecidableEq

namespace CountingClock

/-- A clock that reads one first. -/
instance : Inhabited CountingClock := ⟨⟨1⟩⟩

/-- Reads the clock. -/
def read (c : CountingClock) : Timestamp × CountingClock :=
  (⟨c.next⟩, ⟨c.next + 1⟩)

/-- The next `n` readings. -/
def readings : (n : Nat) → CountingClock → List Timestamp
  | 0, _ => []
  | n + 1, c =>
    let (ts, c) := c.read
    ts :: readings n c

/-- The text of a clock in structural listings. -/
def describe (c : CountingClock) : String :=
  "LogicalClock \x7b next: " ++ toString c.next.toNat ++ " \x7d"

/-- The clock that counts on from a state. -/
def clock (c : CountingClock) : Clock :=
  .ofSteps (fun _ => read) describe c

end CountingClock

/-- Unless said otherwise a clock counts from one. -/
instance : Inhabited Clock := ⟨(default : CountingClock).clock⟩

/-- The state of a clock that follows outside readings and never stands still. -/
structure StrictClock where
  /-- What it read last. -/
  last : UInt64
  deriving DecidableEq

namespace StrictClock

/-- A clock that has not been read. -/
instance : Inhabited StrictClock := ⟨⟨0⟩⟩

/-- Reads the clock when the time outside is `wall`. -/
def read (c : StrictClock) (wall : UInt64) : Timestamp × StrictClock :=
  let least := if c.last = UInt64.ofNat (UInt64.size - 1) then c.last else c.last + 1
  let next := if wall < least then least else wall
  (⟨next⟩, ⟨next⟩)

/-- The readings at the given outside times. -/
def readings (c : StrictClock) : List UInt64 → List Timestamp
  | [] => []
  | wall :: rest =>
    let (ts, c) := c.read wall
    ts :: readings c rest

/-- The text of a clock in structural listings. -/
def describe (c : StrictClock) : String :=
  "SystemClock \x7b last: " ++ toString c.last.toNat ++ " \x7d"

/-- The clock that goes on from a state if `wall n` is the time outside at reading `n`. -/
def clock (c : StrictClock) (wall : (n : Nat) → UInt64) : Clock :=
  .ofSteps (fun n c => c.read (wall n)) describe c

end StrictClock

end TxStore
