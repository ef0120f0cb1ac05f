import TxStore.Lock.Request
import TxStore.Proofs.Lock.Consistency

/-!
# What a parked caller can rely on

Between the turn in which a request is queued and the turn in which its caller looks for the answer,
the manager changes in many ways. This module says what survives these changes for a transaction
that has not given up its locks: it keeps what it writes, and a request that it has parked ends with
the truth (`Manager.Awaits`). `Shut` is an arbitrary set of transactions that covers all that have
released their locks; every call of the manager that respects it is a step that `Continues` the
manager before. `Orderly.poll` and `Orderly.acquire` are the two turns of a caller.
-/

namespace TxStore.Lock.Manager

variable {Shut : TransactionId → Prop} {m m' m'' : Manager} {k : Key} {t : TransactionId}
  {me : Holder} {mode : Mode} {w : Waiting} {order : List Key}

/-- The tickets in use have been handed out. -/
structure Ticketed (m : Manager) : Prop where
  /-- The tickets in the queues. -/
  queued : ∀ k, ∀ v ∈ (m.lockOf k).queue, v.ticket < m.nextTicket
  /-- The tickets of the requests that have ended. -/
  resolved : ∀ r ∈ m.resolved, r.1 < m.nextTicket

/-- The locks are consistent, and only transactions in `Shut` have released theirs. -/
structure Orderly (Shut : TransactionId → Prop) (m : Manager) : Prop where
  /-- The locks and their index agree. -/
  consistent : m.Consistent
  /-- The tickets in use have been handed out. -/
  ticketed : m.Ticketed
  /-- Whoever has released its locks is in `Shut`. -/
  released : ∀ t ∈ m.released, Shut t

/-- What `t` knows of a request to write that it has parked: the request stands in the queue of its
key under its ticket, or it ended there, and if it was granted then `t` is the writer. -/
structure Awaits (m : Manager) (t : TransactionId) (w : Waiting) : Prop where
  /-- The ticket has been handed out. -/
  given : w.ticket < m.nextTicket
  /-- Nothing else is queued under the ticket. -/
  queued : ∀ k, ∀ v ∈ (m.lockOf k).queue, v.ticket = w.ticket →
    k = w.key ∧ v.holder.txn = t ∧ v.mode = .write ∧ v.live
  /-- The word under the ticket is true. -/
  told : ∀ wake, (w.ticket, wake) ∈ m.resolved →
    wake = .granted ∧ (m.lockOf w.key).holders.writes t ∨ wake = .conflict ∨ wake = .timedOut

/-- What transactions outside `Shut` keep from one manager to a later one. -/
structure Continues (Shut : TransactionId → Prop) (m m' : Manager) : Prop where
  /-- The later manager is orderly. -/
  orderly : m'.Orderly Shut
  /-- A writer stays the writer. -/
  writes : ∀ k t, ¬ Shut t → (m.lockOf k).holders.writes t → (m'.lockOf k).holders.writes t
  /-- A parked request stays parked, or ends with the truth. -/
  awaits : ∀ t w, ¬ Shut t → m.Awaits t w → m'.Awaits t w

/-- A larger set covers the released transactions, too. -/
theorem Orderly.mono {Shut' : TransactionId → Prop} (h : m.Orderly Shut)
    (hshut : ∀ t, Shut t → Shut' t) : m.Orderly Shut' :=
  ⟨h.consistent, h.ticketed, fun t ht => hshut t (h.released t ht)⟩

/-- Nothing is lost where nothing changes. -/
theorem Orderly.refl (h : m.Orderly Shut) : m.Continues Shut m :=
  ⟨h, fun _ _ _ h => h, fun _ _ _ h => h⟩

/-- Steps can be chained. -/
theorem Continues.trans (h : m.Continues Shut m') (h' : m'.Continues Shut m'') :
    m.Continues Shut m'' where
  orderly := h'.orderly
  writes k t hopen hwrites := h'.writes k t hopen (h.writes k t hopen hwrites)
  awaits t w hopen hawaits := h'.awaits t w hopen (h.awaits t w hopen hawaits)

/-- A new manager is orderly. -/
theorem orderly_new (timeout : Option Duration) : (new timeout).Orderly Shut where
  consistent := consistent_new timeout
  ticketed := ⟨nofun, nofun⟩
  released := nofun

/-- Calls that serve queues are such steps. -/
theorem Orderly.continues_of_evolves (h : m.Orderly Shut) (hevolves : m.Evolves m')
    (hconsistent : m'.Consistent) (hreleased : ∀ t ∈ m'.released, Shut t) :
    m.Continues Shut m' := by
  refine ⟨⟨hconsistent, ⟨fun k v hv => ?_, fun r hr => ?_⟩, hreleased⟩,
    fun k t hopen hwrites => ?_, fun t w hopen hawaits => ⟨?_, fun k v hv => ?_, fun wake hr => ?_⟩⟩
  · rw [hevolves.nextTicket]
    exact h.ticketed.queued k v ((hevolves.queue k).subset hv)
  · rw [hevolves.nextTicket]
    rcases hevolves.resolved r hr with hr | ⟨k, v, hv, hticket, -⟩
    · exact h.ticketed.resolved r hr
    · rw [hticket]
      exact h.ticketed.queued k v hv
  · -- An open transaction is not released, so it keeps what it holds.
    have hfree : t ∉ m'.released := fun hmem => hopen (hreleased t hmem)
    have hholds := hevolves.holds k t .write hfree (Holders.holds_write_iff.mpr hwrites)
    exact Holders.holds_write_iff.mp hholds
  · rw [hevolves.nextTicket]
    exact hawaits.given
  · exact hawaits.queued k v ((hevolves.queue k).subset hv)
  · have hfree : t ∉ m'.released := fun hmem => hopen (hreleased t hmem)
    rcases hevolves.resolved _ hr with hr | ⟨k, v, hv, hticket, hword⟩
    · refine (hawaits.told wake hr).imp (fun hgrant => ⟨hgrant.1, ?_⟩) id
      have hholds := hevolves.holds w.key t .write hfree (Holders.holds_write_iff.mpr hgrant.2)
      exact Holders.holds_write_iff.mp hholds
    · -- The request ended in this very step, and its waiter is the one that `t` knows.
      obtain ⟨rfl, htxn, hmode, hlive⟩ := hawaits.queued k v hv hticket.symm
      cases wake with
      | granted =>
        refine .inl ⟨rfl, Holders.holds_write_iff.mp ?_⟩
        rw [← htxn, ← hmode]
        exact hword
      | conflict => exact .inr (.inl rfl)
      | timedOut => exact .inr (.inr rfl)
      | released => exact absurd (htxn ▸ hword) hfree
      | abandoned => exact absurd (hword.symm.trans hlive) Bool.false_ne_true

/-- A deadline is such a step. -/
theorem Orderly.expire (h : m.Orderly Shut) (k : Key) (ticket : Ticket) :
    m.Continues Shut (m.expire k ticket) := by
  have hreleased : (m.expire k ticket).released = m.released := released_visit ..
  exact h.continues_of_evolves (h.consistent.evolves_expire k ticket)
    (h.consistent.expire k ticket) fun t ht => h.released t (hreleased ▸ ht)

/-- The release of a transaction in `Shut` is such a step. -/
theorem Orderly.release (h : m.Orderly Shut) (ht : Shut t) :
    m.Continues Shut (m.release t) := by
  have horder : (m.keysOf t).Perm (m.keysOf t) := .refl _
  refine h.continues_of_evolves (h.consistent.evolves_release horder)
    (h.consistent.release horder) fun u hu => ?_
  have hreleased : (m.release t).released = m.releasedWith t :=
    (foldl_releaseKey_frame (m.mark t) t (m.keysOf t)).1
  have hu : u ∈ m.releasedWith t := hreleased ▸ hu
  rcases mem_releasedWith.mp hu with hu | rfl
  · exact h.released u hu
  · exact ht

/-- Forgetting a release is such a step. -/
theorem Orderly.forget (h : m.Orderly Shut) (t : TransactionId) :
    m.Continues Shut (m.forget t) :=
  h.continues_of_evolves (h.consistent.evolves_forget t) (h.consistent.forget t)
    fun u hu => h.released u (List.mem_filter.mp hu).1

/-- A change of one lock that queues at most one new request, takes the key from no writer and ends
no request is such a step. -/
theorem Orderly.continues_of_lock {lock : KeyLock} (h : m.Orderly Shut)
    (hconsistent : m'.Consistent) (hreleased : m'.released = m.released)
    (hresolved : m'.resolved = m.resolved) (hnext : m.nextTicket ≤ m'.nextTicket)
    (hlock : ∀ j, m'.lockOf j = if k = j then lock else m.lockOf j)
    (hqueue : ∀ v ∈ lock.queue, v ∈ (m.lockOf k).queue ∨
      v.ticket = m.nextTicket ∧ m.nextTicket < m'.nextTicket)
    (hwrites : ∀ t, t ∉ m.released → (m.lockOf k).holders.writes t → lock.holders.writes t) :
    m.Continues Shut m' := by
  have hfree : ∀ t, ¬ Shut t → t ∉ m.released := fun t hopen hmem => hopen (h.released t hmem)
  have hqueued : ∀ j, ∀ v ∈ (m'.lockOf j).queue, v ∈ (m.lockOf j).queue ∨
      v.ticket = m.nextTicket ∧ m.nextTicket < m'.nextTicket := by
    intro j v hv
    rw [hlock] at hv
    split at hv
    · rename_i hkj
      exact hkj ▸ hqueue v hv
    · exact .inl hv
  have hkept : ∀ j t, ¬ Shut t → (m.lockOf j).holders.writes t →
      (m'.lockOf j).holders.writes t := by
    intro j t hopen hheld
    rw [hlock]
    split
    · rename_i hkj
      exact hwrites t (hfree t hopen) (hkj ▸ hheld)
    · exact hheld
  refine ⟨⟨hconsistent, ⟨fun j v hv => ?_, fun r hr => ?_⟩, fun t ht => ?_⟩, hkept,
    fun t w hopen hawaits => ⟨?_, fun j v hv hticket => ?_, fun wake hr => ?_⟩⟩
  · rcases hqueued j v hv with hv | ⟨hticket, hlt⟩
    · exact Nat.lt_of_lt_of_le (h.ticketed.queued j v hv) hnext
    · rw [hticket]
      exact hlt
  · rw [hresolved] at hr
    exact Nat.lt_of_lt_of_le (h.ticketed.resolved r hr) hnext
  · rw [hreleased] at ht
    exact h.released t ht
  · exact Nat.lt_of_lt_of_le hawaits.given hnext
  · rcases hqueued j v hv with hv | ⟨hnew, -⟩
    · exact hawaits.queued j v hv hticket
    · -- The new ticket is not the one that `t` holds.
      have hgiven := hawaits.given
      rw [← hticket, hnew] at hgiven
      exact absurd hgiven (Nat.lt_irrefl _)
  · rw [hresolved] at hr
    exact (hawaits.told wake hr).imp
      (fun hgrant => ⟨hgrant.1, hkept w.key t hopen hgrant.2⟩) id

/-- A request is such a step. -/
theorem Orderly.request (h : m.Orderly Shut) (mode : Mode) (me : Holder) (k : Key) :
    m.Continues Shut (m.request mode me k).1 := by
  have hrecorded := fun lock j => lockOf_update (m.record me.txn k mode) k j (lock, [])
  have hconsistent := h.consistent.request mode me k
  rcases m.request_cases mode me k with ⟨-, heq⟩ | ⟨-, ⟨hjudge, heq⟩ | ⟨-, heq⟩ | ⟨-, heq⟩⟩
  · rw [heq]
    exact h.refl
  · rw [heq] at hconsistent ⊢
    refine h.continues_of_lock hconsistent rfl (List.append_nil _) (Nat.le_refl _) (hrecorded _)
      (fun _ hv => .inl hv) fun t hfree hwrites => ?_
    have hholds : ((m.lockOf k).holders.enter me mode).holds t .write :=
      Holders.holds_enter_of_holds hjudge hfree (Holders.holds_write_iff.mpr hwrites)
    exact Holders.holds_write_iff.mp hholds
  · rw [heq] at hconsistent ⊢
    exact h.continues_of_lock hconsistent rfl (List.append_nil _) (Nat.le_refl _) (hrecorded _)
      (fun _ hv => .inl hv) fun _ _ hwrites => hwrites
  · rw [heq] at hconsistent ⊢
    refine h.continues_of_lock hconsistent rfl (List.append_nil _) (Nat.le_succ _) (hrecorded _)
      (fun v hv => ?_) fun _ _ hwrites => hwrites
    rcases List.mem_append.mp hv with hv | hv
    · exact .inl hv
    · rw [List.mem_singleton.mp hv]
      exact .inr ⟨rfl, Nat.lt_succ_self _⟩

/-! ## The turns of a caller -/

/-- Looking for an answer is such a step. -/
theorem Orderly.continues_poll (h : m.Orderly Shut) (now : Duration) (w : Waiting) :
    m.Continues Shut (m.poll now w).1 := by
  unfold Manager.poll
  split
  · exact h.refl
  · split
    · exact h.expire w.key w.ticket
    · exact h.refl

/-- Asking for a key and, if need be, parking the request is such a step. -/
theorem Orderly.continues_acquire (h : m.Orderly Shut) (now : Duration) (mode : Mode)
    (me : Holder) (k : Key) : m.Continues Shut (m.acquire now mode me k).1 := by
  have hrequest := h.request mode me k
  unfold Manager.acquire
  split
  · rename_i heq
    rw [heq] at hrequest
    exact hrequest
  · rename_i heq
    rw [heq] at hrequest
    exact hrequest
  · rename_i heq
    rw [heq] at hrequest
    exact hrequest.trans (hrequest.orderly.continues_poll now _)

/-- What a turn of `t` that asks to write `k`, or looks for the answer, comes to: `t` is the writer,
or is refused for a reason other than its own release, or waits. -/
structure Settles (Shut : TransactionId → Prop) (m : Manager) (t : TransactionId) (k : Key)
    (turn : Manager × Acquisition) : Prop where
  /-- Nobody else loses anything. -/
  continues : m.Continues Shut turn.1
  /-- A transaction that gets its lock is the writer. -/
  granted : turn.2 = .answered (.ok ()) → ¬ Shut t → (turn.1.lockOf k).holders.writes t
  /-- Only a released transaction is told so. -/
  refused : ∀ why, turn.2 = .answered (.error why) → ¬ Shut t → why ≠ .released
  /-- A transaction that waits has parked its request. -/
  waiting : ∀ w, turn.2 = .waiting w → w.key = k ∧ (¬ Shut t → turn.1.Awaits t w)

/-- A parked caller is told the truth. -/
theorem Orderly.poll (h : m.Orderly Shut) (now : Duration)
    (hawaits : ¬ Shut t → m.Awaits t w) : m.Settles Shut t w.key (m.poll now w) := by
  unfold Manager.poll resolution?
  cases hlookup : m.resolved.lookup w.ticket with
  | some wake =>
    obtain ⟨before, after, hresolved, -⟩ := List.lookup_eq_some_iff.mp hlookup
    have hmem : (w.ticket, wake) ∈ m.resolved := by
      rw [hresolved]
      exact List.mem_append_right _ List.mem_cons_self
    -- What is found under the ticket is what `t` knows to be true.
    have htold := fun hopen => (hawaits hopen).told wake hmem
    refine ⟨h.refl, fun hanswer hopen => ?_, fun why hanswer hopen => ?_, nofun⟩
    · rcases htold hopen with ⟨-, hwrites⟩ | rfl | rfl
      · exact hwrites
      · cases hanswer
      · cases hanswer
    · rcases htold hopen with ⟨rfl, -⟩ | rfl | rfl
      · cases hanswer
      · cases hanswer
        exact nofun
      · cases hanswer
        exact nofun
  | none =>
    dsimp only
    split
    · refine ⟨h.expire w.key w.ticket, nofun, fun why hanswer _ => ?_, nofun⟩
      cases hanswer
      exact nofun
    · refine ⟨h.refl, nofun, nofun, fun v hv => ?_⟩
      cases hv
      exact ⟨rfl, hawaits⟩

/-- A caller knows where the request stands that it has just parked: the ticket is new, so it is in
one place only and has no answer yet. -/
theorem Orderly.awaits_parked {me : Holder} (h : m.Orderly Shut) (hticket : w.ticket = m.nextTicket)
    (hnext : m'.nextTicket = m.nextTicket + 1) (hresolved : m'.resolved = m.resolved)
    (hlock : ∀ j, m'.lockOf j =
      if w.key = j then (m.lockOf w.key).append ⟨me, .write, m.nextTicket, true⟩
      else m.lockOf j) :
    m'.Awaits me.txn w := by
  refine ⟨?_, fun j v hv hsame => ?_, fun wake hr => ?_⟩
  · rw [hticket, hnext]
    exact Nat.lt_succ_self _
  · have hfresh : ∀ i, v ∉ (m.lockOf i).queue := by
      intro i hmem
      have hlt := h.ticketed.queued i v hmem
      rw [hsame, hticket] at hlt
      exact absurd hlt (Nat.lt_irrefl _)
    rw [hlock] at hv
    split at hv
    · rename_i hkj
      rcases List.mem_append.mp hv with hv | hv
      · exact absurd hv (hfresh w.key)
      · rw [List.mem_singleton.mp hv]
        exact ⟨hkj.symm, rfl, rfl, rfl⟩
    · exact absurd hv (hfresh j)
  · rw [hresolved, hticket] at hr
    exact absurd (h.ticketed.resolved _ hr) (Nat.lt_irrefl _)

/-- A caller that asks to write a key gets it, is refused, or parks its request. -/
theorem Orderly.acquire (h : m.Orderly Shut) (now : Duration) (me : Holder) (k : Key) :
    m.Settles Shut me.txn k (m.acquire now .write me k) := by
  have hcontinues := h.request .write me k
  unfold Manager.acquire
  rcases m.request_cases .write me k with ⟨hreleased, heq⟩ | ⟨-, ⟨-, heq⟩ | ⟨-, heq⟩ | ⟨-, heq⟩⟩
  · rw [heq]
    exact ⟨h.refl, nofun, fun _ _ hopen => absurd (h.released _ hreleased) hopen, nofun⟩
  · rw [heq] at hcontinues ⊢
    refine ⟨hcontinues, fun _ _ => ?_, nofun, nofun⟩
    dsimp only
    rw [lockOf_update, if_pos rfl]
    exact Holders.holds_write_iff.mp (Holders.holds_enter ..)
  · rw [heq] at hcontinues ⊢
    refine ⟨hcontinues, nofun, fun why hanswer _ => ?_, nofun⟩
    cases hanswer
    exact nofun
  · rw [heq] at hcontinues ⊢
    dsimp only at hcontinues ⊢
    have hpoll := hcontinues.orderly.poll (t := me.txn)
      (w := ⟨k, m.nextTicket, m.timeout.map fun d => ⟨now.nanos + d.nanos⟩⟩) now fun _ =>
      h.awaits_parked rfl rfl (List.append_nil _)
        fun j => lockOf_update (m.record me.txn k .write) k j _
    exact ⟨hcontinues.trans hpoll.continues, hpoll.granted, hpoll.refused, hpoll.waiting⟩

/-- What a turn does to the manager does not depend on how its answer is kept. -/
theorem stage_of_fst (turn : Manager × Acquisition) : (Stage.of turn).1 = turn.1 := by
  obtain ⟨m, acquisition⟩ := turn
  cases acquisition <;> rfl

/-- A turn of a bare request is such a step. -/
theorem Orderly.continues_run (h : m.Orderly Shut) (now : Duration) (r : Request) :
    m.Continues Shut (r.run m now).1 := by
  unfold Request.run
  split
  · rw [stage_of_fst]
    exact h.continues_acquire now r.mode r.holder r.key
  · rw [stage_of_fst]
    exact h.continues_poll now _
  · exact h.refl
  · exact h.refl

end TxStore.Lock.Manager
