import TxStore.Text

/-!
# Identifiers and timestamps

Tables are named by 64-bit hashes, connections and transactions by numbers. A transaction also has
a timestamp, its logical start time; the older of two transactions is the one with the smaller
timestamp, and has priority when both want a lock.
-/

namespace TxStore

/-- The identifier of a table: a hash of its name. -/
structure TableId where
  /-- The hash. -/
  code : UInt64
  deriving DecidableEq, Inhabited

/-- The logical start time of a transaction. -/
structure Timestamp where
  /-- The clock reading. -/
  reading : UInt64
  deriving DecidableEq, Inhabited

/-- The identifier of a transaction. A number is never given to two transactions. -/
structure TransactionId where
  /-- The number. -/
  number : Nat
  deriving DecidableEq, Inhabited

/-- The identifier of a connection. -/
abbrev ConnectionId := Nat

namespace TableId

/-- `table:` and the hash in sixteen hexadecimal digits. -/
def display (t : TableId) : String :=
  "table:" ++ Text.hex 16 t.code.toNat

/-- Tables are listed by their hashes. -/
instance : Ord TableId := ⟨fun a b => compare a.code b.code⟩

end TableId

namespace Timestamp

/-- Whether `a` started strictly before `b`. -/
def isBefore (a b : Timestamp) : Bool :=
  a.reading < b.reading

/-- `ts:` and the reading. -/
def display (t : Timestamp) : String :=
  "ts:" ++ toString t.reading.toNat

/-- Timestamps are in the order of their readings. -/
instance : Ord Timestamp := ⟨fun a b => compare a.reading b.reading⟩

/-- No transaction is older than itself. -/
theorem not_isBefore_self (a : Timestamp) : a.isBefore a = false := by
  simp [isBefore]

/-- Being older is transitive. -/
theorem isBefore_trans {a b c : Timestamp} (hab : a.isBefore b) (hbc : b.isBefore c) :
    a.isBefore c := by
  simp only [isBefore, decide_eq_true_eq, UInt64.lt_iff_toNat_lt] at *
  omega

/-- Of two different timestamps one is before the other. -/
theorem isBefore_or_isBefore {a b : Timestamp} (h : a ≠ b) : a.isBefore b ∨ b.isBefore a := by
  have hne : a.reading.toNat ≠ b.reading.toNat := by
    intro heq
    cases a
    cases b
    exact h (congrArg Timestamp.mk (UInt64.toNat_inj.mp heq))
  simp only [isBefore, decide_eq_true_eq, UInt64.lt_iff_toNat_lt]
  omega

end Timestamp

namespace TransactionId

/-- The number as 32 hexadecimal digits in groups of 8, 4, 4, 4 and 12. -/
def grouped (t : TransactionId) : String :=
  let digits := Text.hexDigits 32 t.number
  let group (start size : Nat) : String := String.ofList ((digits.drop start).take size)
  "-".intercalate [group 0 8, group 8 4, group 12 4, group 16 4, group 20 12]

/-- `txn:` and the grouped digits. -/
def display (t : TransactionId) : String :=
  "txn:" ++ t.grouped

/-- The text of an identifier in structural listings. -/
def describe (t : TransactionId) : String :=
  "TransactionId(" ++ t.grouped ++ ")"

end TransactionId

end TxStore
