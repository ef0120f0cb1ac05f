import TxStore.Proofs.Lock.Redundancy
import TxStore.Proofs.Lock.Writers

/-!
# The order in which a release visits its keys

A release visits the keys of its transaction one after the other, in no particular order. Each visit
serves the queue of its own key, against the transactions that were marked as released before the
first visit; so what becomes of a key, and what its waiters are told, does not depend on the visits
to the others. Two releases of one transaction leave managers that differ at most in the order in
which they noted the words to the waiters (`release_orders`).
-/

namespace TxStore

/-- Entries with the same keys, in the same order, and the same values are the same. -/
theorem Entries.ext {κ α : Type} [DecidableEq κ] {l l' : List (κ × α)}
    (hnodup : (l.map Prod.fst).Nodup) (hkeys : l.map Prod.fst = l'.map Prod.fst)
    (hfind : ∀ k, find? k l = find? k l') : l = l' := by
  induction l generalizing l' with
  | nil => exact (List.map_eq_nil_iff.mp hkeys.symm).symm
  | cons e rest ih =>
    cases l' with
    | nil => cases hkeys
    | cons e' rest' =>
      obtain ⟨hkey, hrest⟩ := List.cons_eq_cons.mp hkeys
      obtain ⟨hnew, hnodup⟩ := List.nodup_cons.mp hnodup
      have hvalue : some e.2 = some e'.2 := by
        simpa [find?, hkey] using hfind e.1
      have he : e = e' := Prod.ext hkey (Option.some_inj.mp hvalue)
      subst he
      refine congrArg (e :: ·) (ih hnodup hrest fun k => ?_)
      by_cases hk : e.1 = k
      · -- The first key occurs in neither of the rests.
        have habsent : ∀ {l : List (κ × α)}, k ∉ l.map Prod.fst → find? k l = none := fun h =>
          Option.not_isSome_iff_eq_none.mp fun hsome => h ((isSome_find? k _).mp hsome)
        rw [habsent (hk ▸ hnew), habsent (hrest ▸ hk ▸ hnew)]
      · simpa [find?, hk] using hfind k

/-- Maps with the same keys, in the same order, and the same values are the same. -/
theorem Dict.ext_of_keys {κ α : Type} [DecidableEq κ] {d d' : Dict κ α} (hkeys : d.keys = d'.keys)
    (hget : ∀ k, d.get? k = d'.get? k) : d = d' := by
  have hentries : d.entries = d'.entries := Entries.ext d.nodup_keys hkeys hget
  cases d
  cases d'
  cases hentries
  rfl

/-- Overwriting the value of a key keeps the keys and their order. -/
theorem Dict.keys_insert_of_mem {κ α : Type} [DecidableEq κ] {d : Dict κ α} {k : κ} (a : α)
    (h : k ∈ d.keys) : (d.insert k a).keys = d.keys :=
  (Entries.keys_insert k a d.entries).trans (if_pos h)

namespace Lock.Manager

variable {m : Manager} {k : Key} {t : TransactionId} {order order' : List Key}

/-- Visiting a key gives no key a lock that had none. -/
theorem keys_visit (m : Manager) (k : Key) (change : KeyLock → KeyLock × List Resolution) :
    (m.visit k change).locks.keys = m.locks.keys := by
  unfold visit
  cases hlock : m.locks.get? k with
  | none => rfl
  | some lock =>
    refine Dict.keys_insert_of_mem _ ((Dict.mem_keys _ _).mpr ?_)
    rw [hlock]
    rfl

/-- The lock of a key that has one. -/
theorem get?_locks (m : Manager) (k : Key) :
    m.locks.get? k = if k ∈ m.locks.keys then some (m.lockOf k) else none := by
  have hmem := Dict.mem_keys m.locks k
  unfold lockOf Dict.getD
  cases hlock : m.locks.get? k with
  | none =>
    rw [hlock] at hmem
    rw [if_neg (by simp [hmem])]
  | some lock =>
    rw [hlock] at hmem
    rw [if_pos (hmem.mpr rfl), Option.getD_some]

/-- Managers in which the same keys have locks, and the same ones, agree on all locks. -/
theorem locks_eq {m' : Manager} (hkeys : m.locks.keys = m'.locks.keys)
    (hlocks : ∀ k, m.lockOf k = m'.lockOf k) : m.locks = m'.locks := by
  refine Dict.ext_of_keys hkeys fun k => ?_
  rw [get?_locks, get?_locks, hkeys, hlocks]

/-! ## What a release does, whatever the order -/

/-- The keys that a release visits are pairwise different. -/
theorem nodup_of_accepts (horder : m.Accepts (.release t order)) : order.Nodup :=
  horder.nodup_iff.mpr (m.held.getD t ∅).nodup_keys

/-- A release strikes its transaction from each key that it has asked for and serves the queue of
that key, and leaves all other keys alone. -/
theorem lockOf_release (horder : m.Accepts (.release t order)) (k : Key) :
    (m.releaseInOrder t order).lockOf k =
      if k ∈ m.keysOf t then ((m.lockOf k).release t (m.releasedWith t)).1 else m.lockOf k := by
  have hvisits := lockOf_foldl_releaseKey (m.mark t) t order (nodup_of_accepts horder) k
  rw [releaseInOrder_eq, hvisits]
  exact if_congr horder.mem_iff rfl rfl

/-- The words of a release are those to the waiters of the keys that its transaction has asked for,
key by key in the order of the visits. -/
theorem resolved_release (horder : m.Accepts (.release t order)) :
    (m.releaseInOrder t order).resolved =
      m.resolved ++ order.flatMap fun k => ((m.lockOf k).release t (m.releasedWith t)).2 :=
  resolved_foldl_releaseKey (m.mark t) t order (nodup_of_accepts horder)

/-- A release gives no key a lock that had none. -/
theorem keys_release (m : Manager) (t : TransactionId) (order : List Key) :
    (m.releaseInOrder t order).locks.keys = m.locks.keys := by
  suffices h : ∀ m : Manager, (order.foldl (releaseKey t) m).locks.keys = m.locks.keys from
    h (m.mark t)
  induction order with
  | nil => exact fun _ => rfl
  | cons k rest ih => exact fun m => (ih (releaseKey t m k)).trans (keys_visit m k _)

/-- A release never touches the timeout. -/
theorem timeout_release (m : Manager) (t : TransactionId) (order : List Key) :
    (m.releaseInOrder t order).timeout = m.timeout := by
  suffices h : ∀ m : Manager, (order.foldl (releaseKey t) m).timeout = m.timeout from h (m.mark t)
  induction order with
  | nil => exact fun _ => rfl
  | cons k rest ih =>
    intro m
    refine (ih (releaseKey t m k)).trans ?_
    unfold releaseKey visit
    split <;> rfl

/-- Two releases that visit the keys in different orders say the same words. -/
theorem perm_resolved_release (horder : m.Accepts (.release t order))
    (horder' : m.Accepts (.release t order')) :
    (m.releaseInOrder t order').resolved.Perm (m.releaseInOrder t order).resolved := by
  rw [resolved_release horder, resolved_release horder']
  exact ((horder'.trans horder.symm).flatMap_right _).append_left _

/-- Managers in which the same words were said, in whatever order, give every caller the same
answer. -/
theorem Tallied.resolution?_eq_of_perm {m' : Manager} (h : m.Tallied)
    (hperm : m'.resolved.Perm m.resolved) (n : Ticket) : m'.resolution? n = m.resolution? n := by
  cases hfound : m'.resolution? n with
  | none =>
    refine (resolution?_eq_none.mpr fun wake hmem => ?_).symm
    exact resolution?_eq_none.mp hfound wake (hperm.mem_iff.mpr hmem)
  | some wake =>
    obtain ⟨before, after, hresolved, -⟩ := List.lookup_eq_some_iff.mp hfound
    have hmem : (n, wake) ∈ m'.resolved := hresolved ▸ by simp
    exact (h.resolution?_eq (hperm.subset hmem)).symm

/-- Releases in different orders. After any calls, let a transaction release its locks, visiting the
keys that it has asked for in either of two orders. The managers are the same but for the order in
which the words to the waiters were noted: every key has the same holders and the same queue, and
every caller finds the same answer. The keys that the transaction has not asked for are as before,
and it holds no key and waits for none. -/
theorem release_orders {timeout : Option Duration} (run : Reachable timeout m)
    (horder : m.Accepts (.release t order)) (horder' : m.Accepts (.release t order')) :
    let after := m.releaseInOrder t order
    let after' := m.releaseInOrder t order'
    (after' = { after with resolved := after'.resolved } ∧
      after'.resolved.Perm after.resolved) ∧
    (∀ k, (after'.lockOf k).holders = (after.lockOf k).holders ∧
      (after'.lockOf k).queue = (after.lockOf k).queue) ∧
    (∀ n, after'.resolution? n = after.resolution? n) ∧
    (∀ k ∉ m.keysOf t, after.lockOf k = m.lockOf k) ∧
    ∀ k, (∀ mode, ¬ (after.lockOf k).holders.holds t mode) ∧
      ∀ w ∈ (after.lockOf k).queue, w.holder.txn ≠ t := by
  intro after after'
  have hlock : ∀ k, after'.lockOf k = after.lockOf k := fun k =>
    (lockOf_release horder' k).trans (lockOf_release horder k).symm
  have hperm : after'.resolved.Perm after.resolved := perm_resolved_release horder horder'
  have hlocks : after'.locks = after.locks :=
    locks_eq ((keys_release m t order').trans (keys_release m t order).symm) hlock
  have htimeout : after'.timeout = after.timeout :=
    (timeout_release m t order').trans (timeout_release m t order).symm
  -- Serving the keys touches neither the index nor the released marks nor the tickets.
  obtain ⟨hreleased, hheld, hticket⟩ := foldl_releaseKey_frame (m.mark t) t order
  obtain ⟨hreleased', hheld', hticket'⟩ := foldl_releaseKey_frame (m.mark t) t order'
  refine ⟨⟨?_, hperm⟩, fun k => ?_, fun n => ?_, fun k hk => ?_, fun k => ?_⟩
  · have hheld'' : after'.held = after.held := hheld'.trans hheld.symm
    have hreleased'' : after'.released = after.released := hreleased'.trans hreleased.symm
    have hticket'' : after'.nextTicket = after.nextTicket := hticket'.trans hticket.symm
    rw [← htimeout, ← hlocks, ← hheld'', ← hreleased'', ← hticket'']
  · exact ⟨congrArg KeyLock.holders (hlock k), congrArg KeyLock.queue (hlock k)⟩
  · exact (run.tallied.release t order).resolution?_eq_of_perm hperm n
  · exact (lockOf_release horder k).trans (if_neg hk)
  · have hgone := run.consistent.not_involves_release horder k
    refine ⟨fun mode hholds => ?_, fun w hw htxn => ?_⟩
    · exact hgone (.inl (Holders.holds_of_covers hholds (.inr rfl)))
    · exact hgone (.inr ⟨w, hw, htxn⟩)

/-- For instance, 20 writes two keys, and 10 and 5 ask for both of them, each first for another one.
When 20 releases its locks, 10 has the first key and 5 waits for it, and 5 has the second one, for
which 10 is refused; only the order in which they are told depends on the visits. -/
theorem release_orders_crossed :
    let k : Key := ⟨⟨1⟩, .integer 1⟩
    let j : Key := ⟨⟨1⟩, .integer 2⟩
    let m : Manager :=
      [ .request .write ⟨⟨20⟩, ⟨20⟩⟩ k, .request .write ⟨⟨20⟩, ⟨20⟩⟩ j,
        .request .write ⟨⟨10⟩, ⟨10⟩⟩ k, .request .write ⟨⟨5⟩, ⟨5⟩⟩ j,
        .request .write ⟨⟨5⟩, ⟨5⟩⟩ k, .request .write ⟨⟨10⟩, ⟨10⟩⟩ j ].foldl perform (new none)
    let after := m.releaseInOrder ⟨20⟩ [k, j]
    let after' := m.releaseInOrder ⟨20⟩ [j, k]
    Reachable none m ∧ m.Accepts (.release ⟨20⟩ [k, j]) ∧ m.Accepts (.release ⟨20⟩ [j, k]) ∧
      after.resolved = [(1, .granted), (2, .granted), (4, .conflict)] ∧
      after'.resolved = [(2, .granted), (4, .conflict), (1, .granted)] ∧
      (∀ n, after'.resolution? n = after.resolution? n) ∧
      ∀ i, (after'.lockOf i).holders = (after.lockOf i).holders ∧
        (after'.lockOf i).queue = (after.lockOf i).queue := by
  intro k j m after after'
  have run : Reachable none m := Run.performAll .new
    ⟨⟨trivial, trivial⟩, ⟨trivial, trivial⟩, ⟨trivial, trivial⟩, ⟨trivial, trivial⟩,
      ⟨trivial, trivial⟩, ⟨trivial, trivial⟩, trivial⟩
  have horder : m.Accepts (.release ⟨20⟩ [k, j]) := .of_eq (by decide)
  have horder' : m.Accepts (.release ⟨20⟩ [j, k]) := (List.Perm.swap k j []).trans horder
  obtain ⟨-, hlocks, hwords, -⟩ := release_orders run horder horder'
  exact ⟨run, horder, horder', by decide, by decide, hwords, hlocks⟩

end Lock.Manager

end TxStore
