import Mathlib.Data.Set.Basic
import TxStore.Proofs.Lock.Seclusion
import TxStore.Proofs.Lock.Writers

/-!
# What calls leave to a transaction

What the locks know of a transaction is with which keys it is involved and what is recorded of it.
Only its own requests and its release change this, and a request changes it for one key. `Leaves`
says that a transaction has nothing new outside of some keys, and `Adds` that it has got just these.
The queues, too, only become shorter by what others do: a request joins one queue, and stays there
only if its caller waits under its ticket (`Consistent.queue_acquire`).
-/

namespace TxStore.Lock.Manager

variable {m m' m'' : Manager} {k j : Key} {t u : TransactionId} {mode : Mode} {me : Holder}
  {now : Duration} {w : Waiting} {v : Waiter} {K K' : Set Key}

/-- The mode in which a transaction has asked for a key, if it has. -/
def recorded? (m : Manager) (t : TransactionId) (k : Key) : Option Mode :=
  (m.held.getD t ∅).get? k

/-- Whether a transaction has nothing new but what concerns the keys in `K`. -/
structure Leaves (m m' : Manager) (t : TransactionId) (K : Set Key) : Prop where
  /-- It is involved with no other key than it was. -/
  involves : ∀ k ∉ K, (m'.lockOf k).Involves t → (m.lockOf k).Involves t
  /-- The same is recorded of it for every other key. -/
  recorded : ∀ k ∉ K, m'.recorded? t k = m.recorded? t k

/-- Nothing happens where nothing changes. -/
theorem leaves_refl (m : Manager) (t : TransactionId) (K : Set Key) : m.Leaves m t K :=
  ⟨fun _ _ h => h, fun _ _ => rfl⟩

/-- Two such changes come to one. -/
theorem Leaves.trans (h : m.Leaves m' t K) (h' : m'.Leaves m'' t K) : m.Leaves m'' t K where
  involves k hk hinvolves := h.involves k hk (h'.involves k hk hinvolves)
  recorded k hk := (h'.recorded k hk).trans (h.recorded k hk)

/-- More keys may be concerned than are. -/
theorem Leaves.mono (h : m.Leaves m' t K) (hmore : K ⊆ K') : m.Leaves m' t K' where
  involves k hk := h.involves k fun hmem => hk (hmore hmem)
  recorded k hk := h.recorded k fun hmem => hk (hmore hmem)

/-- Only the records of the transaction itself count. -/
theorem recorded?_of_held (hheld : m'.held.get? t = m.held.get? t) (k : Key) :
    m'.recorded? t k = m.recorded? t k := by
  unfold recorded? Dict.getD
  rw [hheld]

/-- Calls that serve queues leave a transaction what it has, if its records stay. -/
theorem Evolves.leaves (h : m.Evolves m') (hheld : m'.held.get? t = m.held.get? t) (K : Set Key) :
    m.Leaves m' t K :=
  ⟨fun k _ => h.involves k t, fun k _ => recorded?_of_held hheld k⟩

/-- What a transaction that waits for nothing has after it may have become the writer of the keys in
`K`. -/
structure Adds (m m' : Manager) (t : TransactionId) (K : Set Key) : Prop where
  /-- It holds what it held, and writes the keys in `K`. -/
  holds : ∀ k mode, (m'.lockOf k).holders.holds t mode ↔
    (m.lockOf k).holders.holds t mode ∨ k ∈ K
  /-- It waits for no key. -/
  waits : ∀ k, ∀ v ∈ (m'.lockOf k).queue, v.holder.txn ≠ t
  /-- The same is recorded of it for every other key. -/
  recorded : ∀ k ∉ K, m'.recorded? t k = m.recorded? t k

/-- That is so where nobody reads, if the transaction has kept its keys and waits neither before nor
afterwards. -/
theorem Leaves.adds {Named Named' : Holder → Prop} (h : m.Leaves m' t K)
    (hwritten : m.Written Named) (hwritten' : m'.Written Named')
    (hwaits : ∀ k, ∀ v ∈ (m.lockOf k).queue, v.holder.txn ≠ t)
    (hwaits' : ∀ k, ∀ v ∈ (m'.lockOf k).queue, v.holder.txn ≠ t)
    (hkept : ∀ k, (m.lockOf k).holders.writes t → (m'.lockOf k).holders.writes t)
    (hgained : ∀ k ∈ K, (m'.lockOf k).holders.writes t) : m.Adds m' t K := by
  refine ⟨fun k mode => ?_, hwaits', h.recorded⟩
  have hwrites : ∀ {s : Holders} {mode : Mode}, s.readers = [] → (s.holds t mode ↔ s.writes t) := by
    intro s mode hreaders
    unfold Holders.holds Holders.reads
    rw [hreaders, List.any_nil, Bool.and_false, Bool.or_false]
  rw [hwrites (hwritten k).readers, hwrites (hwritten' k).readers]
  refine ⟨fun hholds => or_iff_not_imp_right.mpr fun hk => ?_, fun hor => ?_⟩
  · have hinvolves : (m'.lockOf k).Involves t := .inl ((hwrites (hwritten' k).readers).mpr hholds)
    rcases h.involves k hk hinvolves with hbefore | ⟨v, hv, hqueued⟩
    · exact (hwrites (hwritten k).readers).mp hbefore
    · exact absurd hqueued (hwaits k v hv)
  · exact hor.elim (hkept k) (hgained k)

/-! ## Looking for answers -/

/-- Nothing may happen. -/
theorem Consistent.evolves (h : m.Consistent) : m.Evolves m :=
  .of_locks (fun _ => []) (fun k => (h.sound k).evolves) (fun _ hr => .inl hr) rfl

/-- Looking for an answer admits no new request. -/
theorem Consistent.evolves_poll (h : m.Consistent) (now : Duration) (w : Waiting) :
    m.Evolves (m.poll now w).1 := by
  unfold Manager.poll
  split
  · exact h.evolves
  · split
    · exact h.evolves_expire w.key w.ticket
    · exact h.evolves

/-- It changes no record. -/
theorem held_poll (m : Manager) (now : Duration) (w : Waiting) :
    (m.poll now w).1.held = m.held := by
  unfold Manager.poll
  split
  · rfl
  · split
    · exact held_visit ..
    · rfl

/-- So it leaves every transaction what it has. -/
theorem Consistent.leaves_poll (h : m.Consistent) (now : Duration) (w : Waiting)
    (t : TransactionId) (K : Set Key) : m.Leaves (m.poll now w).1 t K :=
  (h.evolves_poll now w).leaves (by rw [held_poll]) K

/-- A request that times out is told so. -/
theorem tells_expire (hqueued : w.ticket ∈ (m.lockOf w.key).tickets) :
    w.ticket ∈ (m.expire w.key w.ticket).resolved.map Prod.fst := by
  obtain ⟨v, hv, hticket⟩ := List.mem_map.mp hqueued
  have hisQueued : (m.lockOf w.key).isQueued w.ticket :=
    List.any_eq_true.mpr ⟨v, hv, decide_eq_true hticket⟩
  rw [resolved_expire, List.map_append]
  unfold KeyLock.expire
  rw [if_pos hisQueued]
  exact List.mem_append_right _ List.mem_cons_self

/-- A caller that looks for the answer to a request that is queued or has ended leaves nothing
queued under its ticket, unless it waits on. -/
theorem Consistent.queue_of_poll (h : m.Consistent) (htallied : m.Tallied)
    (hknown : m.resolution? w.ticket = none → w.ticket ∈ (m.lockOf w.key).tickets)
    (hv : v ∈ ((m.poll now w).1.lockOf j).queue) :
    v ∈ (m.lockOf j).queue ∧ ((m.poll now w).2 = .waiting w ∨ v.ticket ≠ w.ticket) := by
  refine ⟨((h.evolves_poll now w).queue j).subset hv, ?_⟩
  unfold Manager.poll at hv ⊢
  cases hresolution : m.resolution? w.ticket with
  | some wake =>
    rw [hresolution] at hv
    -- The caller has been told, and nothing stays queued under a ticket that has been told.
    refine .inr fun heq => htallied.untold j v.ticket (List.mem_map_of_mem hv) ?_
    obtain ⟨before, after, hresolved, -⟩ := List.lookup_eq_some_iff.mp hresolution
    rw [heq, hresolved, List.map_append]
    exact List.mem_append_right _ List.mem_cons_self
  | none =>
    rw [hresolution] at hv
    dsimp only at hv ⊢
    -- Nobody has told the caller anything, so the request is queued, and ends if its time has come.
    by_cases hdue : w.isDue now
    · rw [if_pos hdue] at hv
      refine .inr fun heq => ?_
      have htold := tells_expire (hknown hresolution)
      exact (htallied.expire w.key w.ticket).untold j v.ticket (List.mem_map_of_mem hv)
        (heq ▸ htold)
    · rw [if_neg hdue]
      exact .inl rfl

/-! ## Asking for keys -/

/-- A request is recorded for its own transaction and its own key. -/
theorem recorded?_request (m : Manager) (mode : Mode) (me : Holder) (k : Key)
    (hother : ¬ (j = k ∧ t = me.txn)) :
    (m.request mode me k).1.recorded? t j = m.recorded? t j := by
  have hrecord : (m.record me.txn k mode).recorded? t j = m.recorded? t j := by
    unfold recorded? record
    dsimp only
    rw [Dict.getD, Dict.get?_insert]
    split
    · rename_i htxn
      have hkey : k ≠ j := fun hkj => hother ⟨hkj.symm, htxn.symm⟩
      subst htxn
      exact (Dict.get?_insert ..).trans (if_neg hkey)
    · rfl
  rcases m.request_cases mode me k with ⟨-, heq⟩ | ⟨-, ⟨-, heq⟩ | ⟨-, heq⟩ | ⟨-, heq⟩⟩
  · rw [heq]
  · rw [heq]
    exact hrecord
  · rw [heq]
    exact hrecord
  · rw [heq]
    exact hrecord

/-- Asking for a key leaves every transaction what it has, but for the requester and this key. -/
theorem Consistent.leaves_acquire (h : m.Consistent) (now : Duration) (mode : Mode) (me : Holder)
    (k : Key) (t : TransactionId) :
    m.Leaves (m.acquire now mode me k).1 t {j | j = k ∧ t = me.txn} where
  involves j hj hinvolves :=
    (h.involves_acquire hinvolves).resolve_right fun ⟨hkey, htxn⟩ => hj ⟨hkey.symm, htxn⟩
  recorded j hj := by
    have hrequest := m.recorded?_request mode me k hj
    rcases m.acquire_fst now mode me k with heq | ⟨w, heq⟩
    · rw [heq]
      exact hrequest
    · rw [heq]
      exact (recorded?_of_held (by rw [held_poll]) j).trans hrequest

/-- A caller that asks for a key leaves a request in a queue only if it waits. -/
theorem Consistent.queue_acquire (h : m.Consistent) (htallied : m.Tallied)
    (hv : v ∈ ((m.acquire now mode me k).1.lockOf j).queue) :
    v ∈ (m.lockOf j).queue ∨
      ∃ w, (m.acquire now mode me k).2 = .waiting w ∧ w.ticket = v.ticket := by
  have hupdate : ∀ {lock : KeyLock} {q : List Waiter}, lock.queue = q →
      v ∈ (((m.record me.txn k mode).update k (lock, [])).lockOf j).queue →
      v ∈ (m.lockOf j).queue ∨ k = j ∧ v ∈ q := by
    rintro lock q rfl hv
    rw [lockOf_update] at hv
    split at hv
    · rename_i hkj
      exact .inr ⟨hkj, hv⟩
    · exact .inl hv
  have hconsistent := h.request mode me k
  have htallied' := htallied.request mode me k
  have hqueued : (m.request mode me k).2 = .queued m.nextTicket →
      ⟨me, mode, m.nextTicket, true⟩ ∈ ((m.request mode me k).1.lockOf k).queue :=
    mem_queue_of_queued
  unfold Manager.acquire at hv ⊢
  rcases m.request_cases mode me k with ⟨-, heq⟩ | ⟨-, ⟨-, heq⟩ | ⟨-, heq⟩ | ⟨-, heq⟩⟩
  · rw [heq] at hv
    exact .inl hv
  · rw [heq] at hv
    exact (hupdate rfl hv).elim .inl fun ⟨hkj, hv⟩ => .inl (hkj ▸ hv)
  · rw [heq] at hv
    exact (hupdate rfl hv).elim .inl fun ⟨hkj, hv⟩ => .inl (hkj ▸ hv)
  · -- The request is queued, and its caller looks at once whether it is due.
    have hmem : m.nextTicket ∈ ((m.request mode me k).1.lockOf k).tickets :=
      List.mem_map_of_mem (hqueued (by rw [heq]))
    rw [heq] at hv hconsistent htallied' hmem ⊢
    obtain ⟨hmid, hwaits⟩ := hconsistent.queue_of_poll htallied' (fun _ => hmem) hv
    rcases hupdate rfl hmid with hold | ⟨hkj, hmid⟩
    · exact .inl hold
    · rcases List.mem_append.mp hmid with hold | hnew
      · exact .inl (hkj ▸ hold)
      · obtain rfl := List.mem_singleton.mp hnew
        exact .inr ⟨_, hwaits.resolve_right fun hne => hne rfl, rfl⟩

/-! ## Giving keys up -/

/-- The release of another transaction leaves a transaction what it has. -/
theorem Consistent.leaves_release (h : m.Consistent) (hne : u ≠ t) (K : Set Key) :
    m.Leaves (m.release u) t K := by
  refine (h.evolves_release (List.Perm.refl (m.keysOf u))).leaves ?_ K
  rw [releaseInOrder_eq, (foldl_releaseKey_frame ..).2.1]
  exact (Dict.get?_erase ..).trans (if_neg hne)

end TxStore.Lock.Manager
