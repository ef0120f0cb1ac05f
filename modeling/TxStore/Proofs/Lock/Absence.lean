import TxStore.Proofs.Lock.Callers

/-!
# Transactions that the locks do not know

A transaction is `Absent` from a manager if it holds no key and waits for none, the index has no
record of it, and it is not marked as released. Only a request of its own, or its release, can
change that. A released transaction becomes absent when it is forgotten, since a release strikes it
out everywhere and nothing brings it back before that (`Consistent.absent_forget`).
-/

namespace TxStore.Lock.Manager

variable {m m' : Manager} {k : Key} {t u : TransactionId} {mode : Mode} {me : Holder}

/-- Whether nothing of a transaction is left. -/
structure Absent (m : Manager) (t : TransactionId) : Prop where
  /-- It holds no key and waits for none. -/
  uninvolved : ∀ k, ¬ (m.lockOf k).Involves t
  /-- It has no record. -/
  unrecorded : m.held.get? t = none
  /-- It is not marked as released. -/
  unreleased : t ∉ m.released

/-- An absent transaction has asked for no key. -/
theorem Absent.keyCount (h : m.Absent t) : m.keyCount t = 0 := by
  unfold Manager.keyCount Dict.getD
  rw [h.unrecorded]
  rfl

/-- Calls that serve queues involve nobody who is absent. -/
theorem Absent.of_evolves (h : m.Absent u) (hevolves : m.Evolves m')
    (hheld : m'.held.get? u = none) (hreleased : u ∉ m'.released) : m'.Absent u :=
  ⟨fun k hinvolves => h.uninvolved k (hevolves.involves k u hinvolves), hheld, hreleased⟩

/-- A deadline brings back nobody. -/
theorem Absent.expire (h : m.Absent u) (hconsistent : m.Consistent) (k : Key) (ticket : Ticket) :
    (m.expire k ticket).Absent u := by
  have hheld : (m.expire k ticket).held = m.held := held_visit ..
  have hreleased : (m.expire k ticket).released = m.released := released_visit ..
  refine h.of_evolves (hconsistent.evolves_expire k ticket) ?_ ?_
  · rw [hheld]
    exact h.unrecorded
  · rw [hreleased]
    exact h.unreleased

/-- A release brings back nobody but its transaction. -/
theorem Absent.release (h : m.Absent u) (hconsistent : m.Consistent) (hne : t ≠ u) :
    (m.release t).Absent u := by
  have horder : (m.keysOf t).Perm (m.keysOf t) := .refl _
  refine h.of_evolves (hconsistent.evolves_release horder) ?_ ?_
  · show (m.releaseInOrder t (m.keysOf t)).held.get? u = none
    rw [releaseInOrder_eq, (foldl_releaseKey_frame ..).2.1]
    unfold mark
    rw [Dict.get?_erase, if_neg hne]
    exact h.unrecorded
  · rw [mem_released_release]
    rintro (hmem | rfl)
    · exact h.unreleased hmem
    · exact hne rfl

/-- Forgetting a release brings back nobody. -/
theorem Absent.forget (h : m.Absent u) (t : TransactionId) : (m.forget t).Absent u :=
  ⟨h.uninvolved, h.unrecorded, fun hmem => h.unreleased (List.mem_filter.mp hmem).1⟩

/-- A released transaction is absent when it is forgotten. -/
theorem Consistent.absent_forget (h : m.Consistent) (ht : t ∈ m.released) :
    (m.forget t).Absent t where
  uninvolved := h.not_involves ht
  unrecorded := h.unindexed t ht
  unreleased hmem := absurd rfl (of_decide_eq_true (List.mem_filter.mp hmem).2)

/-- A request brings back nobody but the requester. -/
theorem Absent.request (h : m.Absent u) (mode : Mode) (hne : me.txn ≠ u) (k : Key) :
    (m.request mode me k).1.Absent u := by
  -- The transaction has to be absent from the locks, from the index and from the released marks.
  refine ⟨fun j hinvolves => ?_, ?_, ?_⟩
  · have htouches := lockOf_perform_request (m := m) mode me k j
    rw [show (m.perform (.request mode me k)).lockOf j = (m.request mode me k).1.lockOf j
      from rfl] at htouches
    generalize (m.request mode me k).1.lockOf j = l' at htouches hinvolves
    cases htouches with
    | none => exact h.uninvolved j hinvolves
    | enter free granted =>
      rcases hinvolves with hholds | hwaits
      · rcases Holders.holds_of_holds_enter hholds with hholds | rfl
        · exact h.uninvolved j (.inl hholds)
        · exact hne rfl
      · exact h.uninvolved j (.inr hwaits)
    | append free waits =>
      rcases hinvolves with hholds | ⟨w, hw, rfl⟩
      · exact h.uninvolved j (.inl hholds)
      · rcases List.mem_append.mp hw with hw | hw
        · exact h.uninvolved j (.inr ⟨w, hw, rfl⟩)
        · rw [List.mem_singleton.mp hw] at hne
          exact hne rfl
  · have hrecorded : (m.record me.txn k mode).held.get? u = none := by
      refine (Dict.get?_insert _ _ _ _).trans ?_
      rw [if_neg hne]
      exact h.unrecorded
    rcases m.request_cases mode me k with ⟨-, heq⟩ | ⟨-, ⟨-, heq⟩ | ⟨-, heq⟩ | ⟨-, heq⟩⟩
    · rw [heq]
      exact h.unrecorded
    · rw [heq]
      exact hrecorded
    · rw [heq]
      exact hrecorded
    · rw [heq]
      exact hrecorded
  · rw [released_request]
    exact h.unreleased

/-! ## Turns of callers -/

/-- Looking for an answer keeps a manager consistent. -/
theorem Consistent.poll (h : m.Consistent) (now : Duration) (w : Waiting) :
    (m.poll now w).1.Consistent := by
  unfold Manager.poll
  split
  · exact h
  · split
    · exact h.expire w.key w.ticket
    · exact h

/-- Looking for an answer brings back nobody. -/
theorem Absent.poll (h : m.Absent u) (hconsistent : m.Consistent) (now : Duration) (w : Waiting) :
    (m.poll now w).1.Absent u := by
  unfold Manager.poll
  split
  · exact h
  · split
    · exact h.expire hconsistent w.key w.ticket
    · exact h

/-- Asking for a key is a request, and perhaps a look for its answer. -/
theorem acquire_fst (m : Manager) (now : Duration) (mode : Mode) (me : Holder) (k : Key) :
    (m.acquire now mode me k).1 = (m.request mode me k).1 ∨
      ∃ w, (m.acquire now mode me k).1 = ((m.request mode me k).1.poll now w).1 := by
  unfold acquire
  split
  · rename_i heq
    exact .inl (congrArg Prod.fst heq).symm
  · rename_i heq
    exact .inl (congrArg Prod.fst heq).symm
  · rename_i heq
    rw [heq]
    exact .inr ⟨_, rfl⟩

/-- Asking for a key keeps a manager consistent. -/
theorem Consistent.acquire (h : m.Consistent) (now : Duration) (mode : Mode) (me : Holder)
    (k : Key) : (m.acquire now mode me k).1.Consistent := by
  rcases m.acquire_fst now mode me k with heq | ⟨w, heq⟩
  · rw [heq]
    exact h.request mode me k
  · rw [heq]
    exact (h.request mode me k).poll now w

/-- Asking for a key brings back nobody but the requester. -/
theorem Absent.acquire (h : m.Absent u) (hconsistent : m.Consistent) (now : Duration) (mode : Mode)
    (hne : me.txn ≠ u) (k : Key) : (m.acquire now mode me k).1.Absent u := by
  rcases m.acquire_fst now mode me k with heq | ⟨w, heq⟩
  · rw [heq]
    exact h.request mode hne k
  · rw [heq]
    exact (h.request mode hne k).poll (hconsistent.request mode me k) now w

end TxStore.Lock.Manager
