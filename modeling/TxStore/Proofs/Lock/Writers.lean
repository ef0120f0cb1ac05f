import TxStore.Proofs.Lock.Absence
import TxStore.Proofs.Lock.Heads
import TxStore.Proofs.Lock.Tickets

/-!
# Locks that are only asked for to write

Where every request is to write, a key has at most one holder, and the head of its queue waits for
that one (`KeyLock.Written`). So when a request times out, the key does not change hands: the next
request in the queue is judged against the same writer. The other requests of the transaction that
timed out are as old as the one that did, and stay where they are.
-/

namespace TxStore.Lock

variable {released : List TransactionId} {Named : Holder → Prop} {b me : Holder} {ticket : Ticket}

namespace Holders

variable {s : Holders}

/-- How a request to write is judged where there is a writer that has not released its locks: by
age, unless it is the writer's own. -/
theorem judge_of_writer (hwriter : s.writer = some b) (hfree : b.txn ∉ released) :
    s.judge released me .write =
      if b.txn = me.txn then .grant
      else if me.timestamp.isBefore b.timestamp then .wait else .conflict := by
  have hblockers : s.blockers released me .write = [b] := by
    simp [blockers, hwriter, Option.filter, hfree]
  simp [judge, holds, writes, hwriter, hblockers]

/-- Entering a writer adds no reader. -/
theorem readers_enter_write (s : Holders) (me : Holder) :
    (s.enter me .write).readers = s.readers := by
  unfold enter
  split <;> rfl

/-- Whoever opposes a request to write where nobody reads is the writer. -/
theorem writer_of_opposes {mode : Mode} (hreaders : s.readers = []) (h : s.Opposes b mode) :
    s.writer = some b := by
  rcases h with h | ⟨-, h⟩
  · exact h
  · rw [hreaders] at h
    exact absurd h List.not_mem_nil

end Holders

namespace KeyLock

variable {l : KeyLock} {s : Holders} {q : List Waiter}

/-- A lock that is only asked for to write, by those whom `Named` admits. -/
structure Written (Named : Holder → Prop) (l : KeyLock) : Prop where
  /-- Nobody reads. -/
  readers : l.holders.readers = []
  /-- Everybody who waits is to write. -/
  waiters : ∀ w ∈ l.queue, w.mode = .write ∧ Named w.holder
  /-- The head of the queue is blocked. -/
  fronted : l.Fronted

/-- More may be admitted than are. -/
theorem Written.mono {Named' : Holder → Prop} (h : l.Written Named)
    (hnamed : ∀ me, Named me → Named' me) : l.Written Named' where
  readers := h.readers
  waiters w hw := ⟨(h.waiters w hw).1, hnamed _ (h.waiters w hw).2⟩
  fronted := h.fronted

/-- Serving a queue of writers lets nobody read. -/
theorem Written.serve (hs : (KeyLock.mk s q).Sound released) (hreaders : s.readers = [])
    (hwaiters : ∀ w ∈ q, w.mode = .write ∧ Named w.holder) :
    ((KeyLock.mk s q).serve released).1.Written Named := by
  have hserved := (serveFrom_induction
    (P := fun s q => s.readers = [] ∧ ∀ w ∈ q, w.mode = .write ∧ Named w.holder)
    (fun s w rest h => ⟨h.1, fun v hv => h.2 v (List.mem_cons_of_mem _ hv)⟩)
    (fun s w rest _ _ _ _ h => ⟨by rw [(h.2 w List.mem_cons_self).1, s.readers_enter_write, h.1],
      fun v hv => h.2 v (List.mem_cons_of_mem _ hv)⟩) hs ⟨hreaders, hwaiters⟩).2
  exact ⟨hserved.1, hserved.2, fronted_serve _ _⟩

/-- Where there is a writer that has not released its locks, serving changes no holder, and whoever
is older than the writer waits on. -/
theorem serveFrom_of_writer (hwriter : s.writer = some b) (hfree : b.txn ∉ released)
    (hwaiters : ∀ w ∈ q, w.mode = .write) :
    (serveFrom released s q).1.holders = s ∧
      ∀ w ∈ q, w.holder.txn ∉ released → w.holder.txn ≠ b.txn →
        w.holder.timestamp.isBefore b.timestamp → w ∈ (serveFrom released s q).1.queue := by
  -- By induction on the queue: whoever is served is not the writer's elder, and leaves the writer
  -- where it is.
  induction q with
  | nil => exact ⟨rfl, nofun⟩
  | cons v rest ih =>
    obtain ⟨hholders, hstay⟩ := ih fun w hw => hwaiters w (List.mem_cons_of_mem _ hw)
    have hmode : v.mode = .write := hwaiters v List.mem_cons_self
    unfold serveFrom
    split
    · rename_i hreleased
      refine ⟨hholders, fun w hw hunreleased => ?_⟩
      rcases List.mem_cons.mp hw with rfl | hw
      · exact absurd hreleased hunreleased
      · exact hstay w hw hunreleased
    · rw [hmode, s.judge_of_writer hwriter hfree]
      by_cases hown : b.txn = v.holder.txn
      · -- The writer is granted its own key again, and is not entered twice.
        have hwrites : s.writes v.holder.txn := Holders.writes_iff.mpr ⟨b, hwriter, hown⟩
        have henter : s.enter v.holder .write = s := by
          unfold Holders.enter
          exact if_pos hwrites
        have hkept : (if v.live then s.enter v.holder .write
            else (s.enter v.holder .write).takeBack s v.holder .write) = s := by
          rw [henter]
          split
          · rfl
          · unfold Holders.takeBack
            exact if_pos hwrites
        rw [if_pos hown]
        dsimp only
        rw [hkept]
        refine ⟨hholders, fun w hw hunreleased hne => ?_⟩
        rcases List.mem_cons.mp hw with rfl | hw
        · exact absurd hown.symm hne
        · exact hstay w hw hunreleased hne
      · rw [if_neg hown]
        -- An older one stops the serving, and everybody behind it waits on; a younger one is
        -- refused.
        by_cases hbefore : v.holder.timestamp.isBefore b.timestamp
        · rw [if_pos hbefore]
          exact ⟨rfl, fun w hw _ _ _ => hw⟩
        · rw [if_neg hbefore]
          refine ⟨hholders, fun w hw hunreleased hne hwbefore => ?_⟩
          rcases List.mem_cons.mp hw with rfl | hw
          · exact absurd hwbefore hbefore
          · exact hstay w hw hunreleased hne hwbefore

/-- When a request times out the key does not change hands, and every other request of the same
holder stays in the queue. -/
theorem Written.expire (h : l.Written Named) (hs : l.Sound released)
    (hwaiting : ∀ w ∈ l.queue, w.holder.txn ∉ released) (hnodup : l.tickets.Nodup) {w : Waiter}
    (hw : w ∈ l.queue) :
    (l.expire w.ticket released).1.holders = l.holders ∧
      ∀ v ∈ l.queue, v.holder = w.holder → v.ticket ≠ w.ticket →
        v ∈ (l.expire w.ticket released).1.queue := by
  obtain ⟨first, rest, hqueue⟩ := List.exists_cons_of_ne_nil (List.ne_nil_of_mem hw)
  have hhead : first ∈ l.queue := hqueue ▸ List.mem_cons_self
  obtain ⟨b, hopposes, hne, hbefore⟩ := h.fronted first rest hqueue
  have hwriter : l.holders.writer = some b := Holders.writer_of_opposes h.readers hopposes
  have hfree : b.txn ∉ released := hs.unreleased _
    (Holders.holds_read_iff.mpr (.inl (Holders.writes_iff.mpr ⟨b, hwriter, rfl⟩)))
  obtain ⟨hholders, hstay⟩ := serveFrom_of_writer hwriter hfree
    (q := l.queue.filter fun v => v.ticket ≠ w.ticket)
    (fun v hv => (h.waiters v (List.mem_filter.mp hv).1).1)
  have hqueued : l.isQueued w.ticket := List.any_eq_true.mpr ⟨w, hw, decide_eq_true rfl⟩
  unfold KeyLock.expire
  rw [if_pos hqueued]
  refine ⟨hholders, fun v hv hsame hticket => ?_⟩
  have hkept : v ∈ l.queue.filter fun v => v.ticket ≠ w.ticket :=
    List.mem_filter.mpr ⟨hv, decide_eq_true hticket⟩
  by_cases hfirst : first.ticket = w.ticket
  · -- The head leaves, and the others of its holder are as old as it was.
    have heq : first = w := List.inj_on_of_nodup_map hnodup hhead hw hfirst
    have hsame : v.holder = first.holder := heq ▸ hsame
    exact hstay v hkept (hwaiting v hv) (hsame ▸ hne.symm) (hsame ▸ hbefore)
  · -- The head stays, and so nobody is served.
    have hwait : l.holders.judge released first.holder first.mode = .wait := by
      rw [(h.waiters first hhead).1, l.holders.judge_of_writer hwriter hfree, if_neg hne,
        if_pos hbefore]
    have hstaying : l.queue.filter (fun v => v.ticket ≠ w.ticket) =
        first :: rest.filter fun v => v.ticket ≠ w.ticket := by
      rw [hqueue]
      exact List.filter_cons_of_pos (decide_eq_true hfirst)
    have hserved : (KeyLock.mk l.holders
        (l.queue.filter fun v => v.ticket ≠ w.ticket)).serve released =
          (⟨l.holders, l.queue.filter fun v => v.ticket ≠ w.ticket⟩, []) := by
      unfold KeyLock.serve
      rw [hstaying]
      unfold serveFrom
      rw [if_neg (hwaiting first hhead), hwait]
    show v ∈ ((KeyLock.mk l.holders
      (l.queue.filter fun v => v.ticket ≠ w.ticket)).serve released).1.queue
    rw [hserved]
    exact hkept

end KeyLock

namespace Manager

variable {m : Manager} {k : Key} {call : Call} {l' : KeyLock} {w : Waiting}

/-- The locks are only asked for to write, by those whom `Named` admits. -/
def Written (Named : Holder → Prop) (m : Manager) : Prop :=
  ∀ k, (m.lockOf k).Written Named

/-- A new manager has not been asked for anything. -/
theorem written_new (timeout : Option Duration) : (new timeout).Written Named :=
  fun _ => ⟨rfl, nofun, nofun⟩

/-- A call by those who are admitted, and that asks for nothing but to write, keeps a lock so. -/
theorem Consistent.written (h : m.Consistent) (htouches : m.Touches (m.lockOf k) call l')
    (hcall : ∀ mode me j, call = .request mode me j → mode = .write ∧ Named me)
    (hwritten : (m.lockOf k).Written Named) : l'.Written Named := by
  have hfronted : l'.Fronted := h.fronted htouches hwritten.fronted
  have hsound := h.sound k
  -- Only an entry and a new place in the queue bring somebody in, and these are the caller.
  cases htouches with
  | none => exact hwritten
  | enter free granted =>
    rename_i mode me j
    obtain ⟨rfl, -⟩ := hcall mode me j rfl
    exact ⟨(Holders.readers_enter_write ..).trans hwritten.readers, hwritten.waiters, hfronted⟩
  | append free waits =>
    rename_i mode me j
    refine ⟨hwritten.readers, fun w hw => ?_, hfronted⟩
    rcases List.mem_append.mp hw with hw | hw
    · exact hwritten.waiters w hw
    · obtain rfl := List.mem_singleton.mp hw
      exact hcall mode me j rfl
  | release =>
    rename_i t order
    refine KeyLock.Written.serve (KeyLock.sound_without hsound.exclusive
      fun u hu hne => h.not_mem_releasedWith hu hne) ?_ fun w hw => ?_
    · show ((m.lockOf k).holders.readers.filter _) = []
      rw [hwritten.readers]
      rfl
    · exact hwritten.waiters w (List.mem_filter.mp hw).1
  | expire =>
    rename_i j ticket
    unfold KeyLock.expire
    split
    · exact KeyLock.Written.serve ⟨hsound.exclusive, hsound.unreleased⟩ hwritten.readers
        fun w hw => hwritten.waiters w (List.mem_filter.mp hw).1
    · exact hwritten
  | abandon =>
    refine ⟨hwritten.readers, fun w hw => ?_, hfronted⟩
    obtain ⟨v, hv, rfl⟩ := List.mem_map.mp hw
    split
    · exact hwritten.waiters v hv
    · exact hwritten.waiters v hv

/-- So does every call for all locks. -/
theorem Written.perform (h : m.Written Named) (hconsistent : m.Consistent)
    (haccepts : m.Accepts call)
    (hcall : ∀ mode me j, call = .request mode me j → mode = .write ∧ Named me) :
    (m.perform call).Written Named :=
  fun k => hconsistent.written (lockOf_perform haccepts k) hcall (h k)

/-- Looking for an answer keeps the locks so. -/
theorem Written.poll (h : m.Written Named) (hconsistent : m.Consistent) (now : Duration)
    (w : Waiting) : (m.poll now w).1.Written Named := by
  unfold Manager.poll
  split
  · exact h
  · split
    · show (m.perform (.expire w.key w.ticket)).Written Named
      exact h.perform hconsistent trivial nofun
    · exact h

/-- Requesting a key to write keeps them so. -/
theorem Written.request (h : m.Written Named) (hconsistent : m.Consistent) (hme : Named me)
    (k : Key) : (m.request .write me k).1.Written Named := by
  show (m.perform (.request .write me k)).Written Named
  refine h.perform hconsistent trivial fun mode you j heq => ?_
  cases heq
  exact ⟨rfl, hme⟩

/-- So does asking for one. -/
theorem Written.acquire (h : m.Written Named) (hconsistent : m.Consistent) (now : Duration)
    (hme : Named me) (k : Key) : (m.acquire now .write me k).1.Written Named := by
  have hrequest := h.request hconsistent hme k
  rcases m.acquire_fst now .write me k with heq | ⟨w, heq⟩
  · rw [heq]
    exact hrequest
  · rw [heq]
    exact hrequest.poll (hconsistent.request .write me k) now w

/-- Releasing locks keeps them so. -/
theorem Written.release (h : m.Written Named) (hconsistent : m.Consistent) (t : TransactionId) :
    (m.release t).Written Named := by
  show (m.perform (.release t (m.keysOf t))).Written Named
  exact h.perform hconsistent (List.Perm.refl _) nofun

/-! ## Callers that are refused -/

/-- What a caller changes for its own transaction when it is refused a lock: no key changes hands,
and the other requests of the transaction stay in their queues. -/
structure Spares (m m' : Manager) (me : Holder) (n : Ticket) : Prop where
  /-- Every key is held by whoever held it. -/
  holders : ∀ k, (m'.lockOf k).holders = (m.lockOf k).holders
  /-- The other requests of the transaction are queued as they were. -/
  waiters : ∀ k, ∀ v ∈ (m.lockOf k).queue, v.holder = me → v.ticket ≠ n → v ∈ (m'.lockOf k).queue

/-- Two such changes come to one. -/
theorem Spares.trans {m' m'' : Manager} {n : Ticket} (h : m.Spares m' me n)
    (h' : m'.Spares m'' me n) : m.Spares m'' me n where
  holders k := (h'.holders k).trans (h.holders k)
  waiters k v hv hholder hticket :=
    h'.waiters k v (h.waiters k v hv hholder hticket) hholder hticket

/-- A caller that looks for an answer changes no more. -/
theorem Written.spares_poll (h : m.Written Named) (hconsistent : m.Consistent)
    (htallied : m.Tallied) (now : Duration)
    (hqueued : m.resolution? w.ticket = none →
      ⟨me, .write, w.ticket, true⟩ ∈ (m.lockOf w.key).queue) :
    m.Spares (m.poll now w).1 me w.ticket := by
  have hsame : m.Spares m me w.ticket := ⟨fun _ => rfl, fun _ _ hv _ _ => hv⟩
  unfold Manager.poll
  cases hresolution : m.resolution? w.ticket with
  | some wake => exact hsame
  | none =>
    dsimp only
    split
    · have hexpire := (h w.key).expire (hconsistent.sound w.key)
        (fun v hv hreleased => hconsistent.not_involves hreleased w.key (.inr ⟨v, hv, rfl⟩))
        (htallied.nodup w.key) (hqueued hresolution)
      refine ⟨fun k => ?_, fun k v hv hholder hticket => ?_⟩
      · rw [lockOf_expire]
        split
        · rename_i heq
          rw [← heq]
          exact hexpire.1
        · rfl
      · rw [lockOf_expire]
        split
        · rename_i heq
          subst heq
          exact hexpire.2 v hv hholder hticket
        · exact hv
    · exact hsame

/-- Nor does a caller that asks for a key and is refused it, at once or at its deadline. -/
theorem Written.spares_acquire {m' : Manager} {now : Duration} {why : Refusal} (h : m.Written Named)
    (hconsistent : m.Consistent) (htallied : m.Tallied) (hme : Named me)
    (hacquire : m.acquire now .write me k = (m', .answered (.error why))) :
    m.Spares m' me m.nextTicket := by
  have hcases := m.request_cases .write me k
  have hwritten := h.request hconsistent hme k
  unfold Manager.acquire at hacquire
  rcases hrequest : m.request .write me k with ⟨mid, reply⟩
  rw [hrequest] at hacquire hcases hwritten
  -- A request that is refused at once changes no lock; one that is granted is not refused.
  rcases hcases with ⟨-, heq⟩ | ⟨-, ⟨-, heq⟩ | ⟨-, heq⟩ | ⟨-, heq⟩⟩
  · cases heq
    cases hacquire
    exact ⟨fun _ => rfl, fun _ _ hv _ _ => hv⟩
  · cases heq
    cases hacquire
  · cases heq
    cases hacquire
    have hlock : ∀ j, ((m.record me.txn k .write).update k (m.lockOf k, [])).lockOf j =
        m.lockOf j := by
      intro j
      rw [lockOf_update]
      split
      · rename_i heq
        rw [heq]
      · rfl
    exact ⟨fun j => by rw [hlock j], fun j v hv _ _ => by rw [hlock j]; exact hv⟩
  · -- The request is queued and has timed out at once.
    cases heq
    have hqueued : ⟨me, .write, m.nextTicket, true⟩ ∈ ((m.request .write me k).1.lockOf k).queue :=
      mem_queue_of_queued (congrArg Prod.snd hrequest)
    have hconsistent' := hconsistent.request .write me k
    have htallied' := htallied.request .write me k
    have hmid : m.Spares (m.request .write me k).1 me m.nextTicket := by
      have hlock : ∀ j, ((m.request .write me k).1.lockOf j) =
          if k = j then (m.lockOf k).append ⟨me, .write, m.nextTicket, true⟩ else m.lockOf j := by
        intro j
        rw [hrequest]
        exact lockOf_update ..
      refine ⟨fun j => ?_, fun j v hv _ _ => ?_⟩
      · rw [hlock j]
        split
        · rename_i heq
          rw [← heq]
          rfl
        · rfl
      · rw [hlock j]
        split
        · rename_i heq
          rw [heq]
          exact List.mem_append_left _ hv
        · exact hv
    rw [hrequest] at hqueued hconsistent' htallied' hmid
    have hpoll := hwritten.spares_poll (w := ⟨k, m.nextTicket,
      m.timeout.map fun d => ⟨now.nanos + d.nanos⟩⟩) hconsistent' htallied' now fun _ => hqueued
    have hm' := congrArg Prod.fst hacquire
    dsimp only at hm'
    exact hm' ▸ hmid.trans hpoll

/-- The callers of a transaction that releases its locks are told so. -/
theorem Consistent.told_release (h : m.Consistent) {v : Waiter} (hv : v ∈ (m.lockOf k).queue) :
    v.resolution .released ∈ (m.release v.holder.txn).resolved := by
  have hnodup : (m.keysOf v.holder.txn).Nodup := (m.held.getD v.holder.txn ∅).nodup_keys
  have hindexed : k ∈ m.keysOf v.holder.txn := h.indexed k _ (.inr ⟨v, hv, rfl⟩)
  show _ ∈ (m.releaseInOrder v.holder.txn (m.keysOf v.holder.txn)).resolved
  rw [releaseInOrder_eq, resolved_foldl_releaseKey _ _ _ hnodup]
  refine List.mem_append_right _ (List.mem_flatMap.mpr ⟨k, hindexed, ?_⟩)
  refine List.mem_append_left _ (List.mem_map.mpr ⟨v, List.mem_filter.mpr ⟨hv, ?_⟩, rfl⟩)
  exact decide_eq_true rfl

/-- A caller that looks finds the word that was said to it. -/
theorem Tallied.resolution?_eq (h : m.Tallied) {wake : Wake} (htold : (ticket, wake) ∈ m.resolved) :
    m.resolution? ticket = some wake := by
  cases hfound : m.resolution? ticket with
  | none => exact absurd htold (resolution?_eq_none.mp hfound wake)
  | some other =>
    obtain ⟨before, after, hresolved, -⟩ := List.lookup_eq_some_iff.mp hfound
    have hmem : (ticket, other) ∈ m.resolved := hresolved ▸ by simp
    have heq := List.inj_on_of_nodup_map h.once hmem htold rfl
    cases heq
    rfl

end Manager

end TxStore.Lock
