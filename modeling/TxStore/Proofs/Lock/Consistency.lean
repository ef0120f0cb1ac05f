import TxStore.Proofs.Lock.Calls

/-!
# The locks and their index agree

A manager is `Consistent` if the writer of every key is alone, the index covers everyone who holds a
key or waits for it, and no released transaction is in the index. `reachable_consistent` shows that
this holds after any calls. The three parts need each other. A release is complete since the index
covers all that it has to strike out; and judging may pass over released holders since there are
none.

`Evolves` sums up the calls that serve queues, a release and a deadline: no key is taken from a
holder that is not released, and the words to the callers of the waiters that leave are true.
-/

namespace TxStore.Lock

namespace Manager

variable {m : Manager} {k : Key} {t : TransactionId} {mode : Mode} {me : Holder}
  {order : List Key} {ticket : Ticket}

/-- The holders, the queues and the index fit together. -/
structure Consistent (m : Manager) : Prop where
  /-- A writer shares its key with nobody, and no transaction is a reader of a key twice. -/
  exclusive : ∀ k, (m.lockOf k).holders.Exclusive
  /-- Whoever holds a key or waits for it is recorded with it. -/
  indexed : ∀ k t, (m.lockOf k).Involves t → k ∈ m.keysOf t
  /-- A released transaction has no record. -/
  unindexed : ∀ t ∈ m.released, m.held.get? t = none

/-- What a manager becomes by a call that admits no new request. -/
structure Evolves (m m' : Manager) : Prop where
  /-- The locks are sound afterwards. -/
  sound : ∀ k, (m'.lockOf k).Sound m'.released
  /-- A holder that is not released keeps its keys. -/
  holds : ∀ k t mode, t ∉ m'.released → (m.lockOf k).holders.holds t mode →
    (m'.lockOf k).holders.holds t mode
  /-- Nobody new holds a key or waits for one. -/
  involves : ∀ k t, (m'.lockOf k).Involves t → (m.lockOf k).Involves t
  /-- Nobody joins a queue, and nobody overtakes anybody in it. -/
  queue : ∀ k, (m'.lockOf k).queue.Sublist (m.lockOf k).queue
  /-- Every request that ended was queued, and the word to its caller is true. -/
  resolved : ∀ r ∈ m'.resolved, r ∈ m.resolved ∨ ∃ k, ∃ w ∈ (m.lockOf k).queue,
    r.1 = w.ticket ∧ KeyLock.BearsOut (m'.lockOf k).holders m'.released w r.2
  /-- No ticket is handed out. -/
  nextTicket : m'.nextTicket = m.nextTicket

/-- A transaction without a record has asked for no key. -/
theorem keysOf_eq_nil (h : m.held.get? t = none) : m.keysOf t = [] := by
  unfold keysOf Dict.getD
  rw [h]
  rfl

/-- A released transaction neither holds a key nor waits for one. -/
theorem Consistent.not_involves (h : m.Consistent) (ht : t ∈ m.released) (k : Key) :
    ¬ (m.lockOf k).Involves t := by
  intro hinvolves
  have hmem := h.indexed k t hinvolves
  rw [keysOf_eq_nil (h.unindexed t ht)] at hmem
  cases hmem

/-- The locks of a consistent manager are sound. -/
theorem Consistent.sound (h : m.Consistent) (k : Key) : (m.lockOf k).Sound m.released where
  exclusive := h.exclusive k
  unreleased _ hu hmem := h.not_involves hmem k (.inl hu)

/-- Once `t` is marked as released, nobody else who is involved with a key is. -/
theorem Consistent.not_mem_releasedWith (h : m.Consistent) {u : TransactionId}
    (hu : (m.lockOf k).Involves u) (hne : u ≠ t) : u ∉ m.releasedWith t := by
  intro hmem
  rcases mem_releasedWith.mp hmem with hmem | heq
  · exact h.not_involves hmem k hu
  · exact hne heq

/-- A manager becomes another in this way if each of its locks does, and no other words are said
than those to the waiters that leave. -/
theorem Evolves.of_locks {m' : Manager} (words : Key → List Resolution)
    (hlocks : ∀ k, (m.lockOf k).Evolves m'.released (m'.lockOf k, words k))
    (hresolved : ∀ r ∈ m'.resolved, r ∈ m.resolved ∨ ∃ k, r ∈ words k)
    (hnext : m'.nextTicket = m.nextTicket) : m.Evolves m' where
  sound k := (hlocks k).sound
  holds k := (hlocks k).holds
  involves k := (hlocks k).involves
  queue k := (hlocks k).queue
  resolved r hr := (hresolved r hr).imp id fun ⟨k, hr⟩ => ⟨k, (hlocks k).resolved r hr⟩
  nextTicket := hnext

/-- The queue of a key is served without its head when that times out, and else left alone. -/
theorem Consistent.evolves_expire (h : m.Consistent) (k : Key) (ticket : Ticket) :
    m.Evolves (m.expire k ticket) := by
  have hreleased : (m.expire k ticket).released = m.released := released_visit ..
  refine .of_locks (fun j => if k = j then ((m.lockOf k).expire ticket m.released).2 else [])
    (fun j => ?_) (fun r hr => ?_) (nextTicket_visit ..)
  · rw [hreleased, lockOf_expire]
    by_cases hkj : k = j
    · subst hkj
      rw [if_pos rfl, if_pos rfl]
      exact KeyLock.evolves_expire (h.sound k) ticket
    · rw [if_neg hkj, if_neg hkj]
      exact (h.sound j).evolves
  · rw [resolved_expire, List.mem_append] at hr
    refine hr.imp id fun hr => ⟨k, ?_⟩
    rw [if_pos rfl]
    exact hr

/-- A release strikes its transaction from all keys, and the queues are served. -/
theorem Consistent.evolves_release (h : m.Consistent) (horder : order.Perm (m.keysOf t)) :
    m.Evolves (m.releaseInOrder t order) := by
  have hnodup : order.Nodup := horder.nodup_iff.mpr (m.held.getD t ∅).nodup_keys
  have hframe := foldl_releaseKey_frame (m.mark t) t order
  have hreleased : (m.releaseInOrder t order).released = m.releasedWith t := hframe.1
  have hlock : ∀ j, (m.releaseInOrder t order).lockOf j =
      if j ∈ order then ((m.lockOf j).release t (m.releasedWith t)).1 else m.lockOf j :=
    fun j => lockOf_foldl_releaseKey (m.mark t) t order hnodup j
  have hmark : t ∈ m.releasedWith t := mem_releasedWith.mpr (.inr rfl)
  refine .of_locks
    (fun j => if j ∈ order then ((m.lockOf j).release t (m.releasedWith t)).2 else [])
    (fun j => ?_) (fun r hr => ?_) hframe.2.2
  · rw [hreleased, hlock]
    by_cases hj : j ∈ order
    · rw [if_pos hj, if_pos hj]
      exact KeyLock.evolves_release (h.exclusive j)
        (fun _ hu hne => h.not_mem_releasedWith hu hne) hmark
    · rw [if_neg hj, if_neg hj]
      -- The index covers `t`, so a key that is not visited does not involve it.
      refine KeyLock.Sound.evolves ⟨h.exclusive j, fun u hu => h.not_mem_releasedWith (.inl hu) ?_⟩
      rintro rfl
      exact hj (horder.mem_iff.mpr (h.indexed j u (.inl hu)))
  · have hresolved := resolved_foldl_releaseKey (m.mark t) t order hnodup
    rw [releaseInOrder_eq, hresolved, List.mem_append, List.mem_flatMap] at hr
    refine hr.imp id ?_
    rintro ⟨j, hj, hr⟩
    refine ⟨j, ?_⟩
    rw [if_pos hj]
    exact hr

/-- Forgetting a release changes no lock. -/
theorem Consistent.evolves_forget (h : m.Consistent) (t : TransactionId) :
    m.Evolves (m.forget t) := by
  refine .of_locks (fun _ => []) (fun k => ?_) (fun _ hr => .inl hr) rfl
  exact KeyLock.Sound.evolves
    ⟨h.exclusive k, fun u hu hmem => (h.sound k).unreleased u hu (List.mem_filter.mp hmem).1⟩

/-- After a release its transaction holds nothing and waits for nothing. -/
theorem Consistent.not_involves_release (h : m.Consistent) (horder : order.Perm (m.keysOf t))
    (k : Key) : ¬ ((m.releaseInOrder t order).lockOf k).Involves t := by
  intro hinvolves
  have hnodup : order.Nodup := horder.nodup_iff.mpr (m.held.getD t ∅).nodup_keys
  rw [releaseInOrder_eq, lockOf_foldl_releaseKey (m.mark t) t order hnodup] at hinvolves
  split at hinvolves
  · exact KeyLock.not_involves_release (h.exclusive k)
      (fun _ hu hne => h.not_mem_releasedWith hu hne) hinvolves
  · rename_i hk
    exact hk (horder.mem_iff.mpr (h.indexed k t hinvolves))

/-! ## Every call keeps a manager consistent -/

/-- A new manager is consistent. -/
theorem consistent_new (timeout : Option Duration) : (new timeout).Consistent where
  exclusive _ := Holders.exclusive_nobody
  indexed _ t ht := absurd ht (KeyLock.not_involves_free t)
  unindexed := nofun

/-- Recording a request and putting another lock in the place of its key keep a manager consistent,
if that lock involves nobody new but the requester. -/
theorem Consistent.update_record {lock : KeyLock} (h : m.Consistent) (mode : Mode)
    (hfree : me.txn ∉ m.released) (hexclusive : lock.holders.Exclusive)
    (hinvolves : ∀ u, lock.Involves u → (m.lockOf k).Involves u ∨ u = me.txn) :
    ((m.record me.txn k mode).update k (lock, [])).Consistent := by
  refine ⟨fun j => ?_, fun j u hu => ?_, fun u hu => ?_⟩
  · rw [lockOf_update]
    split
    · exact hexclusive
    · exact h.exclusive j
  · rw [lockOf_update] at hu
    refine mem_keysOf_record.mpr ?_
    split at hu
    · rename_i heq
      rcases hinvolves u hu with hu | rfl
      · exact .inl (heq ▸ h.indexed k u hu)
      · exact .inr ⟨rfl, heq⟩
    · exact .inl (h.indexed j u hu)
  · -- The requester is not released, so the record of no released transaction changes.
    have hne : me.txn ≠ u := fun e => hfree (e ▸ hu)
    refine (Dict.get?_insert _ _ _ _).trans ?_
    rw [if_neg hne]
    exact h.unindexed u hu

/-- A request keeps a manager consistent. -/
theorem Consistent.request (h : m.Consistent) (mode : Mode) (me : Holder) (k : Key) :
    (m.request mode me k).1.Consistent := by
  rcases m.request_cases mode me k with ⟨-, heq⟩ | ⟨hfree, ⟨hjudge, heq⟩ | ⟨-, heq⟩ | ⟨-, heq⟩⟩
  · rw [heq]
    exact h
  · rw [heq]
    have hexclusive := (h.exclusive k).enter (h.sound k).unreleased hjudge
    refine h.update_record mode hfree hexclusive fun u hu => ?_
    rcases hu with hu | hu
    · exact (Holders.holds_of_holds_enter hu).imp .inl id
    · exact .inl (.inr hu)
  · rw [heq]
    exact h.update_record mode hfree (h.exclusive k) fun u hu => .inl hu
  · rw [heq]
    have hqueued : ((m.record me.txn k mode).update k
        ((m.lockOf k).append ⟨me, mode, m.nextTicket, true⟩, [])).Consistent := by
      refine h.update_record mode hfree (h.exclusive k) fun u hu => ?_
      rcases hu with hu | ⟨w, hw, rfl⟩
      · exact .inl (.inl hu)
      · rcases List.mem_append.mp hw with hw | hw
        · exact .inl (.inr ⟨w, hw, rfl⟩)
        · exact .inr (by rw [List.mem_singleton.mp hw])
    exact ⟨hqueued.exclusive, hqueued.indexed, hqueued.unindexed⟩

/-- A release keeps a manager consistent. -/
theorem Consistent.release (h : m.Consistent) (horder : order.Perm (m.keysOf t)) :
    (m.releaseInOrder t order).Consistent := by
  have hevolves := h.evolves_release horder
  obtain ⟨hreleased, hheld, -⟩ := foldl_releaseKey_frame (m.mark t) t order
  rw [← releaseInOrder_eq] at hreleased hheld
  refine ⟨fun k => (hevolves.sound k).exclusive, fun k u hu => ?_, fun u hu => ?_⟩
  · -- Only the record of `t` is dropped, and `t` is involved with no key any more.
    have hne : t ≠ u := by
      rintro rfl
      exact h.not_involves_release horder k hu
    have hmem := h.indexed k u (hevolves.involves k u hu)
    unfold keysOf Dict.getD at hmem ⊢
    rw [hheld]
    simp only [mark, Dict.get?_erase, if_neg hne]
    exact hmem
  · rw [hreleased] at hu
    rw [hheld]
    simp only [mark, Dict.get?_erase]
    split
    · rfl
    · rename_i hne
      rcases mem_releasedWith.mp hu with hu | rfl
      · exact h.unindexed u hu
      · exact absurd rfl hne

/-- A deadline keeps a manager consistent. -/
theorem Consistent.expire (h : m.Consistent) (k : Key) (ticket : Ticket) :
    (m.expire k ticket).Consistent := by
  have hevolves := h.evolves_expire k ticket
  have hheld : (m.expire k ticket).held = m.held := held_visit ..
  have hreleased : (m.expire k ticket).released = m.released := released_visit ..
  refine ⟨fun j => (hevolves.sound j).exclusive, fun j u hu => ?_, fun u hu => ?_⟩
  · unfold keysOf
    rw [hheld]
    exact h.indexed j u (hevolves.involves j u hu)
  · rw [hheld]
    exact h.unindexed u (hreleased ▸ hu)

/-- A vanished caller keeps a manager consistent. -/
theorem Consistent.abandon (h : m.Consistent) (k : Key) (ticket : Ticket) :
    (m.abandon k ticket).Consistent := by
  have hheld : (m.abandon k ticket).held = m.held := held_visit ..
  have hreleased : (m.abandon k ticket).released = m.released := released_visit ..
  refine ⟨fun j => ?_, fun j u hu => ?_, fun u hu => ?_⟩
  · rw [lockOf_abandon]
    split
    · exact h.exclusive k
    · exact h.exclusive j
  · unfold keysOf
    rw [hheld]
    rw [lockOf_abandon] at hu
    split at hu
    · rename_i heq
      exact heq ▸ h.indexed k u ((KeyLock.involves_abandon ticket).mp hu)
    · exact h.indexed j u hu
  · rw [hheld]
    exact h.unindexed u (hreleased ▸ hu)

/-- Forgetting a release keeps a manager consistent. -/
theorem Consistent.forget (h : m.Consistent) (t : TransactionId) : (m.forget t).Consistent where
  exclusive := h.exclusive
  indexed := h.indexed
  unindexed u hu := h.unindexed u (List.mem_filter.mp hu).1

/-- Every call that the manager accepts keeps it consistent. -/
theorem Consistent.perform {call : Call} (h : m.Consistent) (haccepts : m.Accepts call) :
    (m.perform call).Consistent := by
  cases call with
  | request mode me k => exact h.request mode me k
  | release txn order => exact h.release haccepts
  | forget txn => exact h.forget txn
  | expire k ticket => exact h.expire k ticket
  | abandon k ticket => exact h.abandon k ticket

/-- A manager is consistent after any run, whatever the discipline of its clients. -/
theorem Run.consistent {P : Manager → Call → Prop} {timeout : Option Duration}
    (run : Run P timeout m) : m.Consistent := by
  induction run with
  | new => exact consistent_new timeout
  | perform _ haccepts _ ih => exact ih.perform haccepts

/-- After any calls the writer of every key is alone, the index covers all holders and waiters, and
a released transaction is neither in the index nor anywhere else. A release leaves nothing of its
transaction, whatever the order in which it visits the keys. -/
theorem reachable_consistent {timeout : Option Duration} (run : Reachable timeout m) :
    m.Consistent ∧
      (∀ t ∈ m.released, ∀ k, ¬ (m.lockOf k).Involves t) ∧
      ∀ t order, m.Accepts (.release t order) →
        ∀ k, ¬ ((m.perform (.release t order)).lockOf k).Involves t :=
  have h := run.consistent
  ⟨h, fun _ ht k => h.not_involves ht k, fun _ _ horder k => h.not_involves_release horder k⟩

/-- For instance, a release hands the key over to an older transaction that waits for it. -/
theorem reachable_consistent_handOver :
    let k : Key := ⟨⟨1⟩, .integer 1⟩
    let m := (((new none).perform (.request .write ⟨⟨2⟩, ⟨2⟩⟩ k)).perform
      (.request .write ⟨⟨1⟩, ⟨1⟩⟩ k)).perform (.release ⟨2⟩ [k])
    Reachable none m ∧ (m.lockOf k).holders.writes ⟨1⟩ ∧ m.Consistent ∧
      (∀ t ∈ m.released, ∀ k, ¬ (m.lockOf k).Involves t) := by
  intro k m
  have run : Reachable none m :=
    .perform (.perform (.perform .new trivial trivial) trivial trivial)
      (.of_eq (by decide)) trivial
  obtain ⟨hconsistent, hreleased, -⟩ := reachable_consistent run
  exact ⟨run, by decide, hconsistent, hreleased⟩

end Manager

end TxStore.Lock
