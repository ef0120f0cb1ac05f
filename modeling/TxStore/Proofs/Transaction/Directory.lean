import TxStore.Transaction.Directory

/-!
# What the directory finds

The view of a directory is the partial function `find?` together with the present transaction of
each connection. Each change of the directory has one lemma that says what it does to that view.
-/

namespace TxStore

/-- Whether a transaction may still add writes or have them applied: it is active or about to
commit. -/
def Transaction.IsOpen (txn : Transaction) : Prop :=
  txn.phase = .active ∨ txn.phase = .committing

/-- A transaction that is being aborted is not open. -/
theorem Transaction.not_isOpen_of_aborting {txn : Transaction} (h : txn.phase = .aborting) :
    ¬ txn.IsOpen := by
  unfold IsOpen
  rw [h]
  exact nofun

/-- A transaction that is over is not open. -/
theorem Transaction.not_isOpen_finish (txn : Transaction) : ¬ txn.finish.IsOpen :=
  nofun

/-- Leaving changes neither who a transaction is, nor its phase, nor its writes. -/
theorem Transaction.deregister_spec (txn : Transaction) :
    txn.deregister.1.id = txn.id ∧ txn.deregister.1.phase = txn.phase ∧
      txn.deregister.1.log = txn.log := by
  unfold deregister
  split
  · exact ⟨rfl, rfl, rfl⟩
  · exact ⟨rfl, rfl, rfl⟩

/-- Leaving changes nothing about the connection. -/
theorem Transaction.connection_deregister (txn : Transaction) :
    txn.deregister.1.connection = txn.connection := by
  unfold deregister
  split <;> rfl

/-- Who leaves is no longer in flight. -/
theorem Transaction.inFlight_deregister (txn : Transaction) :
    txn.deregister.1.inFlight = txn.inFlight - 1 := by
  unfold deregister
  split
  · rename_i hlast
    rw [hlast]
  · rfl

/-- Parking a call changes nothing but the list of parked calls. -/
theorem Transaction.awaitIdle_spec (txn : Transaction) (call : Nat) :
    (txn.awaitIdle call).1.phase = txn.phase ∧ (txn.awaitIdle call).1.inFlight = txn.inFlight ∧
      (txn.awaitIdle call).1.log = txn.log := by
  unfold awaitIdle
  split
  · exact ⟨rfl, rfl, rfl⟩
  · split
    · exact ⟨rfl, rfl, rfl⟩
    · exact ⟨rfl, rfl, rfl⟩

/-- Parking a call changes nothing about the connection. -/
theorem Transaction.connection_awaitIdle (txn : Transaction) (call : Nat) :
    (txn.awaitIdle call).1.connection = txn.connection := by
  unfold awaitIdle
  split
  · rfl
  · split <;> rfl

namespace Directory

variable {d d' : Directory} {t u : TransactionId} {txn old : Transaction} {c : ConnectionId}

/-- The transactions stand under their own identifiers. -/
def Numbered (d : Directory) : Prop :=
  ∀ t txn, d.find? t = some txn → txn.id = t

/-- Replacing a transaction changes what is found under its identifier, and nothing else. -/
theorem find?_set (h : d.find? t = some old) (txn : Transaction) (u : TransactionId) :
    (d.set t txn).find? u = if t = u then some txn else d.find? u := by
  have hlt : t.number < d.transactions.size := (Array.getElem?_eq_some_iff.mp h).1
  unfold find? set
  dsimp only
  rw [Array.getElem?_setIfInBounds]
  by_cases htu : t = u
  · subst htu
    rw [if_pos rfl, if_pos hlt, if_pos rfl]
  · have hne : t.number ≠ u.number := fun heq => htu (congrArg TransactionId.mk heq)
    rw [if_neg hne, if_neg htu]

/-- Changing a transaction changes what is found under its identifier, and nothing else. -/
theorem find?_modify (d : Directory) (t u : TransactionId) (f : Transaction → Transaction) :
    (d.modify t f).find? u = if t = u then (d.find? t).map f else d.find? u := by
  unfold modify
  cases hfind : d.find? t with
  | none =>
    by_cases htu : t = u
    · subst htu
      rw [if_pos rfl, hfind]
      rfl
    · rw [if_neg htu]
  | some txn => exact find?_set hfind (f txn) u

/-- The identifier of a new transaction is the first that is free. -/
theorem find?_place_new (d : Directory) (c : ConnectionId) (ts : Timestamp) (origin : Origin) :
    d.find? (d.place c ts origin).1 = none := by
  unfold find? place
  exact Array.getElem?_eq_none (Nat.le_refl _)

/-- A new transaction is found under its identifier, and all others as before. -/
theorem find?_place (d : Directory) (c : ConnectionId) (ts : Timestamp) (origin : Origin)
    (u : TransactionId) :
    (d.place c ts origin).2.find? u =
      if (d.place c ts origin).1 = u then some (.new (d.place c ts origin).1 c ts origin)
      else d.find? u := by
  unfold find? place
  dsimp only
  rw [Array.getElem?_push]
  by_cases hu : u.number = d.transactions.size
  · have hid : (⟨d.transactions.size⟩ : TransactionId) = u := by rw [← hu]
    rw [if_pos hu, if_pos hid]
  · have hid : ¬ (⟨d.transactions.size⟩ : TransactionId) = u := fun heq => hu (heq ▸ rfl)
    rw [if_neg hu, if_neg hid]

/-- A transaction that was there is found as before. -/
theorem find?_place_of_some (ts : Timestamp) (origin : Origin) (h : d.find? t = some txn) :
    (d.place c ts origin).2.find? t = some txn := by
  have hne : (d.place c ts origin).1 ≠ t := by
    rintro rfl
    rw [find?_place_new] at h
    cases h
  rw [find?_place, if_neg hne]
  exact h

/-- Replacing a transaction leaves the transactions of the connections. -/
@[simp] theorem current_set (d : Directory) (t : TransactionId) (txn : Transaction) :
    (d.set t txn).current = d.current := rfl

/-- Changing a transaction leaves the transactions of the connections. -/
@[simp] theorem current_modify (d : Directory) (t : TransactionId)
    (f : Transaction → Transaction) : (d.modify t f).current = d.current := by
  unfold modify
  split <;> rfl

end Directory

end TxStore
