import Mathlib.Logic.Function.Basic
import TxStore.Hash

/-!
# Names that differ in one byte have different hashes

Taking a byte into an FNV-1a hash is an exclusive or followed by a multiplication by the prime. The
prime is odd, so it has an inverse modulo `2^64` and the multiplication loses nothing: two different
hashes stay different whatever byte both take in (`step_injective`), and by induction whatever
suffix (`foldl_step_injective`). A single byte in which two strings differ makes their hashes
different (`step_right_injective`), and no equal bytes after it can bring them together again.
Differences in more than one byte may cancel each other.
-/

namespace TxStore.Fnv1a

/-- The inverse of the prime modulo `2^64`. -/
def inverse : UInt64 := 0xce965057aff6957b

/-- The prime has an inverse. -/
theorem prime_mul_inverse : prime * inverse = 1 := by
  decide

/-- Multiplying by the prime loses nothing. -/
theorem mul_prime_injective : Function.Injective fun h : UInt64 => h * prime := by
  intro g h heq
  have hundo : ∀ k : UInt64, k * prime * inverse = k := by
    intro k
    rw [UInt64.mul_assoc, prime_mul_inverse, UInt64.mul_one]
  calc g = g * prime * inverse := (hundo g).symm
    _ = h * prime * inverse := congrArg (· * inverse) heq
    _ = h := hundo h

/-- Different hashes stay different when they take in one and the same byte. -/
theorem step_injective (b : UInt8) : Function.Injective fun h => step h b := by
  intro g h heq
  exact (UInt64.xor_left_inj _).mp (mul_prime_injective heq)

/-- One hash that takes in different bytes becomes different hashes. -/
theorem step_right_injective (h : UInt64) : Function.Injective (step h) := by
  intro a b heq
  exact UInt8.toUInt64_inj.mp ((UInt64.xor_right_inj _).mp (mul_prime_injective heq))

/-- Different hashes stay different when they take in the same bytes. -/
theorem foldl_step_injective (s : List UInt8) : Function.Injective fun h => s.foldl step h := by
  induction s with
  | nil => exact Function.injective_id
  | cons b rest ih => exact ih.comp (step_injective b)

/-- Strings of bytes that differ in one place, whatever stands before and after it, have different
hashes. -/
theorem hash_ne_of_ne (p s : List UInt8) {a b : UInt8} (h : a ≠ b) :
    hash (p ++ [a] ++ s) ≠ hash (p ++ [b] ++ s) := by
  intro heq
  rw [hash_append, hash_append, hash_append, hash_append] at heq
  have hstep : step (hash p) a = step (hash p) b := foldl_step_injective s heq
  exact h (step_right_injective (hash p) hstep)

/-- Two strings of bytes of one length that differ at exactly one place. -/
structure OneByteApart (x y : List UInt8) : Prop where
  /-- They have the same length. -/
  length : x.length = y.length
  /-- There is one place at which they differ. -/
  place : ∃! i : Nat, x[i]? ≠ y[i]?

/-- Two strings differ at exactly one place if they have the same beginning and the same end, and
different bytes between these. -/
theorem oneByteApart_iff {x y : List UInt8} : OneByteApart x y ↔
    ∃ p a b s, a ≠ b ∧ x = p ++ [a] ++ s ∧ y = p ++ [b] ++ s := by
  constructor
  · rintro ⟨hlength, i, hdiffer, honly⟩
    have hsame : ∀ j, j ≠ i → x[j]? = y[j]? := fun j hne => not_not.mp fun h => hne (honly j h)
    have hx : i < x.length := by
      refine Nat.lt_of_not_le fun hle => hdiffer ?_
      rw [List.getElem?_eq_none hle, List.getElem?_eq_none (hlength ▸ hle)]
    have hy : i < y.length := hlength ▸ hx
    -- Both lists are cut at the place where they differ.
    have hsplit : ∀ (z : List UInt8) (hz : i < z.length),
        z = z.take i ++ [z[i]] ++ z.drop (i + 1) := by
      intro z hz
      rw [List.append_assoc, List.singleton_append, List.getElem_cons_drop, List.take_append_drop]
    have htake : x.take i = y.take i := by
      refine List.ext_getElem? fun j => ?_
      rw [List.getElem?_take, List.getElem?_take]
      split
      · exact hsame j (by omega)
      · rfl
    have hdrop : x.drop (i + 1) = y.drop (i + 1) := by
      refine List.ext_getElem? fun j => ?_
      rw [List.getElem?_drop, List.getElem?_drop]
      exact hsame (i + 1 + j) (by omega)
    refine ⟨x.take i, x[i], y[i], x.drop (i + 1), fun heq => hdiffer ?_, hsplit x hx, ?_⟩
    · rw [List.getElem?_eq_getElem hx, List.getElem?_eq_getElem hy, heq]
    · rw [htake, hdrop]
      exact hsplit y hy
  · rintro ⟨p, a, b, s, hne, rfl, rfl⟩
    refine ⟨by simp, p.length, by simpa using hne, fun j hj => ?_⟩
    by_contra hother
    refine hj ?_
    rw [List.append_assoc, List.append_assoc]
    -- Before the byte both are the beginning, and after it both are the end.
    by_cases hlt : j < p.length
    · rw [List.getElem?_append_left hlt, List.getElem?_append_left hlt]
    · have hle : p.length ≤ j := Nat.not_lt.mp hlt
      obtain ⟨k, hk⟩ : ∃ k, j - p.length = k + 1 := ⟨j - p.length - 1, by omega⟩
      rw [List.getElem?_append_right hle, List.getElem?_append_right hle, hk]
      rfl

/-- The bytes of a text. -/
def bytes (s : String) : List UInt8 := s.toUTF8.data.toList

/-- Strings of bytes that differ in one byte never have one hash, and so two tables never have one
identifier if the UTF-8 bytes of their names are equally many and differ at exactly one place. -/
theorem tableId_ne_of_oneByteApart :
    (∀ (p s : List UInt8) (a b : UInt8), a ≠ b → hash (p ++ [a] ++ s) ≠ hash (p ++ [b] ++ s)) ∧
    (∀ x y : String, OneByteApart (bytes x) (bytes y) →
      Hasher.fnv1a.tableId x ≠ Hasher.fnv1a.tableId y) := by
  refine ⟨fun p s a b hne => hash_ne_of_ne p s hne, fun x y hapart heq => ?_⟩
  obtain ⟨p, a, b, s, hne, hx, hy⟩ := oneByteApart_iff.mp hapart
  have hhash : hash (bytes x) = hash (bytes y) := congrArg TableId.code heq
  rw [hx, hy] at hhash
  exact hash_ne_of_ne p s hne hhash

/-- This holds of names with different last letters, and of names with different letters of two
bytes of which the first is the same. -/
theorem tableId_ne_of_oneByteApart_letters :
    Hasher.fnv1a.tableId "user_a" ≠ Hasher.fnv1a.tableId "user_b" ∧
      Hasher.fnv1a.tableId "größe1" ≠ Hasher.fnv1a.tableId "gräße1" := by
  have hletter : OneByteApart (bytes "user_a") (bytes "user_b") :=
    oneByteApart_iff.mpr ⟨[117, 115, 101, 114, 95], 97, 98, [], by decide, by decide, by decide⟩
  have hwithin : OneByteApart (bytes "größe1") (bytes "gräße1") :=
    oneByteApart_iff.mpr
      ⟨[103, 114, 195], 182, 164, [195, 159, 101, 49], by decide, by decide, by decide⟩
  exact ⟨tableId_ne_of_oneByteApart.2 _ _ hletter, tableId_ne_of_oneByteApart.2 _ _ hwithin⟩

end TxStore.Fnv1a
