import TxStore.Clock

/-!
# Clocks whose readings increase

Readings that increase step by step increase altogether (`Timestamp.increasing_iff_pairwise`), so of
two readings of such a clock the later one is the younger timestamp (`Clock.isBefore_of_increasing`).
A counting clock has this property until it runs over (`CountingClock.increasing_readings`), and a
strict clock, whatever the time outside does, until it has read the greatest timestamp
(`StrictClock.increasing_readings`).
-/

namespace TxStore

/-- Each timestamp is older than the next exactly if each is older than all that follow. -/
theorem Timestamp.increasing_iff_pairwise (timestamps : List Timestamp) :
    Timestamp.increasing timestamps ↔ timestamps.Pairwise fun a b => a.isBefore b := by
  induction timestamps with
  | nil => exact ⟨fun _ => .nil, fun _ => rfl⟩
  | cons a rest ih =>
    cases rest with
    | nil => exact ⟨fun _ => List.pairwise_singleton _ a, fun _ => rfl⟩
    | cons b rest =>
      unfold Timestamp.increasing
      rw [Bool.and_eq_true, ih, List.pairwise_cons (a := a)]
      refine and_congr_left fun hrest => ⟨fun hab c hc => ?_, fun h => h b List.mem_cons_self⟩
      -- Whatever follows `b` is younger than `b`, which is younger than `a`.
      rcases List.mem_cons.mp hc with rfl | hc
      · exact hab
      · exact Timestamp.isBefore_trans hab ((List.pairwise_cons.mp hrest).1 c hc)

namespace Clock

variable {c : Clock} {n i j : Nat}

/-- The next readings, one by one. -/
theorem getElem?_readings (c : Clock) (n i : Nat) :
    (c.readings n)[i]? = if i < n then some (c.reading (c.taken + i)) else none := by
  induction n generalizing c i with
  | zero => rfl
  | succ n ih =>
    show (c.reading c.taken :: Clock.readings n { c with taken := c.taken + 1 })[i]? = _
    cases i with
    | zero => simp
    | succ i =>
      rw [List.getElem?_cons_succ, ih, Nat.add_right_comm c.taken 1 i, Nat.add_assoc c.taken i 1]
      simp only [Nat.add_lt_add_iff_right]

/-- Of two readings of a clock that increases the later one is the younger timestamp. -/
theorem isBefore_of_increasing (h : Timestamp.increasing (c.readings n)) (hij : i < j)
    (hj : j < n) : (c.reading (c.taken + i)).isBefore (c.reading (c.taken + j)) := by
  have hreading : ∀ k, k < n → (c.readings n)[k]? = some (c.reading (c.taken + k)) := by
    intro k hk
    rw [getElem?_readings, if_pos hk]
  obtain ⟨hi, hfirst⟩ := List.getElem?_eq_some_iff.mp (hreading i (Nat.lt_trans hij hj))
  obtain ⟨hj, hsecond⟩ := List.getElem?_eq_some_iff.mp (hreading j hj)
  have hpairwise := (Timestamp.increasing_iff_pairwise _).mp h
  have hbefore := List.pairwise_iff_getElem.mp hpairwise i j hi hj hij
  rwa [hfirst, hsecond] at hbefore

end Clock

namespace CountingClock

/-- Reading the clock of a counting clock is reading the counting clock. -/
theorem readings_clock (c : CountingClock) (n : Nat) : c.clock.readings n = readings n c := by
  -- A clock that has been read `k` times goes on as the state it is in by then.
  have hrest : ∀ k, Clock.readings n { c.clock with taken := k } =
      readings n (Clock.stateAt (fun _ => read) c k) := by
    induction n with
    | zero => exact fun _ => rfl
    | succ n ih => exact fun k => congrArg (_ :: ·) (ih (k + 1))
  exact hrest 0

/-- A counting clock increases until it runs over. -/
theorem increasing_readings (c : CountingClock) (n : Nat)
    (h : c.next.toNat + n ≤ UInt64.size) : Timestamp.increasing (c.clock.readings n) := by
  rw [readings_clock]
  induction n generalizing c with
  | zero => rfl
  | succ n ih =>
    cases n with
    | zero => rfl
    | succ n =>
      have hsize : UInt64.size = 2 ^ 64 := rfl
      have hnext : (c.next + 1).toNat = c.next.toNat + 1 := by
        rw [UInt64.toNat_add, UInt64.toNat_one]
        omega
      have hbefore : Timestamp.isBefore ⟨c.next⟩ ⟨c.next + 1⟩ := by
        unfold Timestamp.isBefore
        rw [decide_eq_true_eq, UInt64.lt_iff_toNat_lt]
        show c.next.toNat < (c.next + 1).toNat
        omega
      have hrest := ih ⟨c.next + 1⟩ (by show (c.next + 1).toNat + (n + 1) ≤ _; omega)
      exact Bool.and_eq_true_iff.mpr ⟨hbefore, hrest⟩

end CountingClock

namespace StrictClock

/-- Reading the clock of a strict clock is reading the strict clock at the outside times. -/
theorem readings_clock (c : StrictClock) (wall : Nat → UInt64) (n : Nat) :
    (c.clock wall).readings n = c.readings ((List.range n).map wall) := by
  have hrest : ∀ k, Clock.readings n { c.clock wall with taken := k } =
      readings (Clock.stateAt (fun n c => c.read (wall n)) c k) ((List.range' k n).map wall) := by
    induction n with
    | zero => exact fun _ => rfl
    | succ n ih => exact fun k => congrArg (_ :: ·) (ih (k + 1))
  rw [List.range_eq_range']
  exact hrest 0

/-- A reading is younger than the one before unless that was the greatest timestamp. -/
theorem lt_read (c : StrictClock) (wall : UInt64)
    (h : c.last ≠ UInt64.ofNat (UInt64.size - 1)) : c.last < (c.read wall).1.reading := by
  have hsize : UInt64.size = 2 ^ 64 := rfl
  have hne : c.last.toNat ≠ 2 ^ 64 - 1 := fun heq => h (UInt64.toNat_inj.mp heq)
  have hbound := c.last.toNat_lt
  have hleast : (c.last + 1).toNat = c.last.toNat + 1 := by
    rw [UInt64.toNat_add, UInt64.toNat_one]
    omega
  unfold read
  rw [if_neg h]
  dsimp only
  split
  · rw [UInt64.lt_iff_toNat_lt]
    omega
  · rename_i hwall
    rw [UInt64.lt_iff_toNat_lt] at hwall ⊢
    omega

/-- A strict clock increases until it has read the greatest timestamp, whatever the time outside
does. -/
theorem increasing_readings (c : StrictClock) (wall : Nat → UInt64) (n : Nat)
    (h : ∀ ts ∈ ((c.clock wall).readings n).dropLast,
      ts.reading ≠ UInt64.ofNat (UInt64.size - 1)) :
    Timestamp.increasing ((c.clock wall).readings n) := by
  rw [readings_clock] at h ⊢
  generalize (List.range n).map wall = walls at h ⊢
  induction walls generalizing c with
  | nil => rfl
  | cons first rest ih =>
    cases rest with
    | nil => rfl
    | cons second rest =>
      have hfirst : (c.read first).1.reading ≠ UInt64.ofNat (UInt64.size - 1) :=
        h _ List.mem_cons_self
      have hbefore := lt_read (c.read first).2 second hfirst
      have hrest := ih (c.read first).2 fun ts hts => h ts (List.mem_cons_of_mem _ hts)
      exact Bool.and_eq_true_iff.mpr ⟨decide_eq_true hbefore, hrest⟩

end StrictClock

end TxStore
