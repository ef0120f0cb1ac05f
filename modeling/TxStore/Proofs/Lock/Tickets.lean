import Mathlib.Data.List.Basic
import TxStore.Proofs.Lock.Waiting

/-!
# Every queued request ends exactly once

A request that is queued gets a ticket, and from then on its ticket stands in one place: once in the
queue of its own key, or once among the requests that have ended. `Tallied` says so for all tickets
at once. Changes of a key's lock that serve its queue move tickets from the queue to the ended
requests and lose none (`KeyLock.Sheds`): first those that are struck out, wherever they stand, and
then some from the front. So the queues stay in the order of arrival, and a request that was queued
is accounted for after any calls (`Accounted`).
-/

namespace TxStore.Lock

namespace KeyLock

variable {l : KeyLock} {released : List TransactionId} {struck : Waiter → Prop}
  [DecidablePred struck] {gone : Ticket → Prop}

/-- The tickets of the queued requests, first come first. -/
def tickets (l : KeyLock) : List Ticket :=
  l.queue.map Waiter.ticket

/-- What a change of a key's lock does to its queue if it lets nobody in: it takes out what is
`struck`, and notes that the callers of the tickets in `gone` have gone. -/
structure Sheds (l : KeyLock) (struck : Waiter → Prop) [DecidablePred struck]
    (gone : Ticket → Prop) (change : KeyLock × List Resolution) : Prop where
  /-- Requests are struck out, and others leave from the front only. -/
  queue : ∃ rest, rest <:+ l.queue.filter (fun w => ¬ struck w) ∧
    change.1.tickets = rest.map Waiter.ticket
  /-- No request is lost, and none is told twice. -/
  tally : (change.2.map Prod.fst ++ change.1.tickets).Perm l.tickets
  /-- Requests stay as they were, except that their callers may have gone. -/
  kept : ∀ w ∈ change.1.queue, w ∈ l.queue ∨
    gone w.ticket ∧ ∃ v ∈ l.queue, w = { v with live := false }

/-- Where nothing is struck out, the whole queue stays. -/
theorem suffix_staying {q : List Waiter} (hstays : ∀ w ∈ q, ¬ struck w) :
    q <:+ q.filter fun w => ¬ struck w := by
  have hall : q.filter (fun w => ¬ struck w) = q :=
    List.filter_eq_self.mpr fun w hw => decide_eq_true (hstays w hw)
  exact ⟨[], hall.symm⟩

/-- The queue loses tickets from the front as they are told, and no others. -/
theorem serveFrom_tickets (released : List TransactionId) (s : Holders) (q : List Waiter) :
    (serveFrom released s q).2.map Prod.fst ++ (serveFrom released s q).1.tickets =
      q.map Waiter.ticket := by
  induction q generalizing s with
  | nil => rfl
  | cons w rest ih =>
    unfold serveFrom
    split
    · exact congrArg (w.ticket :: ·) (ih s)
    · split
      · rfl
      · exact congrArg (w.ticket :: ·) (ih s)
      · exact congrArg (w.ticket :: ·) (ih _)

/-- Serving what is left of a queue sheds what was struck out and what is served. -/
theorem sheds_serveFrom {s : Holders} {q : List Waiter} (words : List Resolution)
    (hq : q = l.queue.filter fun w => ¬ struck w)
    (hwords : (words.map Prod.fst ++ q.map Waiter.ticket).Perm l.tickets) :
    l.Sheds struck gone ((serveFrom released s q).1, words ++ (serveFrom released s q).2) where
  queue := ⟨_, hq ▸ serveFrom_suffix released s q, rfl⟩
  tally := by
    rw [List.map_append, List.append_assoc, serveFrom_tickets]
    exact hwords
  kept w hw := by
    have hmem := (serveFrom_suffix released s q).subset hw
    rw [hq] at hmem
    exact .inl (List.mem_filter.mp hmem).1

/-- Releasing a transaction strikes out its own requests. -/
theorem sheds_release (l : KeyLock) (t : TransactionId) (released : List TransactionId) :
    l.Sheds (fun w => w.holder.txn = t) gone (l.release t released) := by
  refine sheds_serveFrom _ rfl ?_
  have hsplit : ((l.queue.filter fun w => w.holder.txn = t) ++
      l.queue.filter fun w => w.holder.txn ≠ t).Perm l.queue := by
    have hperm := List.filter_append_perm (fun w : Waiter => decide (w.holder.txn = t)) l.queue
    simpa only [decide_not] using hperm
  have htold :
      ((l.queue.filter fun w => w.holder.txn = t).map (·.resolution .released)).map Prod.fst =
        (l.queue.filter fun w => w.holder.txn = t).map Waiter.ticket := List.map_map ..
  rw [htold, ← List.map_append]
  exact hsplit.map Waiter.ticket

/-- A deadline strikes out its own request. -/
theorem sheds_expire (h : l.tickets.Nodup) (ticket : Ticket) (released : List TransactionId) :
    l.Sheds (fun w => w.ticket = ticket) gone (l.expire ticket released) := by
  unfold expire
  split
  · rename_i hqueued
    refine sheds_serveFrom [(ticket, .timedOut)] rfl ?_
    -- The ticket stands in the queue, and nowhere twice.
    have hmem : ticket ∈ l.tickets := by
      obtain ⟨w, hw, hticket⟩ := List.any_eq_true.mp hqueued
      exact List.mem_map.mpr ⟨w, hw, of_decide_eq_true hticket⟩
    have hstaying : (l.queue.filter fun w => w.ticket ≠ ticket).map Waiter.ticket =
        l.tickets.erase ticket := by
      rw [h.erase_eq_filter, tickets, List.filter_map]
      congr 1
      apply List.filter_congr
      intro w _
      by_cases hw : w.ticket = ticket <;> simp [hw]
    rw [hstaying]
    exact (List.perm_cons_erase hmem).symm
  · rename_i hqueued
    have hnone : ∀ w ∈ l.queue, w.ticket ≠ ticket := by
      intro w hw hticket
      exact hqueued (List.any_eq_true.mpr ⟨w, hw, decide_eq_true hticket⟩)
    exact ⟨⟨l.queue, suffix_staying hnone, rfl⟩, List.Perm.refl _, fun w hw => .inl hw⟩

/-- A caller that goes away leaves its request in its place. -/
theorem tickets_abandon (l : KeyLock) (ticket : Ticket) :
    (l.abandon ticket).tickets = l.tickets := by
  unfold tickets abandon
  dsimp only
  rw [List.map_map]
  apply List.map_congr_left
  intro w _
  show (if w.ticket = ticket then { w with live := false } else w).ticket = w.ticket
  split <;> rfl

/-- Noting that a caller has gone sheds nothing. -/
theorem sheds_abandon (l : KeyLock) (ticket : Ticket) :
    l.Sheds (fun _ => False) (· = ticket) (l.abandon ticket, []) where
  queue := ⟨l.queue, suffix_staying fun _ _ => not_false, tickets_abandon l ticket⟩
  tally := by
    show (l.abandon ticket).tickets.Perm l.tickets
    rw [tickets_abandon]
  kept w hw := by
    obtain ⟨v, hv, rfl⟩ := List.mem_map.mp hw
    by_cases hticket : v.ticket = ticket
    · rw [if_pos hticket]
      exact .inr ⟨hticket, v, hv, rfl⟩
    · rw [if_neg hticket]
      exact .inl hv

/-- No ticket comes into the queue. -/
theorem Sheds.subset {change : KeyLock × List Resolution} (h : l.Sheds struck gone change)
    {n : Ticket} (hn : n ∈ change.1.tickets) : n ∈ l.tickets :=
  h.tally.subset (List.mem_append_right _ hn)

end KeyLock

/-- Whether a call takes a request out of the queue of `k`, wherever it stands there: its
transaction releases its locks, or its own deadline has passed. -/
def Call.Strikes (call : Call) (k : Key) (w : Waiter) : Prop :=
  match call with
  | .release t _ => w.holder.txn = t
  | .expire j ticket => j = k ∧ w.ticket = ticket
  | .request _ _ _ | .forget _ | .abandon _ _ => False

/-- It can be found out from the call and the request. -/
instance (call : Call) (k : Key) : DecidablePred (call.Strikes k) := fun w =>
  match call with
  | .release t _ => inferInstanceAs (Decidable (w.holder.txn = t))
  | .expire j ticket => inferInstanceAs (Decidable (j = k ∧ w.ticket = ticket))
  | .request _ _ _ | .forget _ | .abandon _ _ => inferInstanceAs (Decidable False)

namespace Manager

variable {m m' : Manager} {k j : Key} {t : TransactionId} {me : Holder} {mode : Mode} {n : Ticket}
  {order : List Key}

/-- Every ticket that is in use stands in one place. -/
structure Tallied (m : Manager) : Prop where
  /-- It was handed out. -/
  ticketed : m.Ticketed
  /-- The requests of a key are queued in the order in which they arrived. -/
  ascending : ∀ k, (m.lockOf k).tickets.Pairwise (· < ·)
  /-- No ticket stands in the queues of two keys. -/
  apart : ∀ k j n, n ∈ (m.lockOf k).tickets → n ∈ (m.lockOf j).tickets → k = j
  /-- The caller of a queued request has been told nothing. -/
  untold : ∀ k n, n ∈ (m.lockOf k).tickets → n ∉ m.resolved.map Prod.fst
  /-- No caller is told twice. -/
  once : (m.resolved.map Prod.fst).Nodup

/-- No ticket stands twice in the queue of a key. -/
theorem Tallied.nodup (h : m.Tallied) (k : Key) : (m.lockOf k).tickets.Nodup :=
  (h.ascending k).imp Nat.ne_of_lt

/-- Visiting a key moves tickets from its queue to the ended requests. -/
theorem Tallied.visit {struck : Waiter → Prop} [DecidablePred struck] {gone : Ticket → Prop}
    {change : KeyLock → KeyLock × List Resolution} (h : m.Tallied)
    (hfree : change .free = (.free, []))
    (hsheds : (m.lockOf k).Sheds struck gone (change (m.lockOf k))) :
    (m.visit k change).Tallied := by
  have hlock := lockOf_visit hfree m k
  have hresolved := resolved_visit hfree m k
  -- No queue gets a ticket that it had not, and the words go to tickets of the queue that is
  -- visited.
  have hsubset : ∀ j n, n ∈ ((m.visit k change).lockOf j).tickets → n ∈ (m.lockOf j).tickets := by
    intro j n hn
    rw [hlock] at hn
    split at hn
    · rename_i hkj
      exact hkj ▸ hsheds.subset hn
    · exact hn
  have hwords : ∀ n ∈ (change (m.lockOf k)).2.map Prod.fst, n ∈ (m.lockOf k).tickets :=
    fun n hn => hsheds.tally.subset (List.mem_append_left _ hn)
  -- Among the words and what is left of the queue, no ticket occurs twice.
  have hnodup := hsheds.tally.nodup_iff.mpr (h.nodup k)
  obtain ⟨htold, -, hdisjoint⟩ := List.nodup_append.mp hnodup
  refine ⟨⟨fun j v hv => ?_, fun r hr => ?_⟩, fun j => ?_, fun i j n hi hj => ?_,
    fun j n hn hmem => ?_, ?_⟩
  · obtain ⟨w, hw, hticket⟩ := List.mem_map.mp (hsubset j _ (List.mem_map_of_mem hv))
    rw [nextTicket_visit, ← hticket]
    exact h.ticketed.queued j w hw
  · rw [hresolved, List.mem_append] at hr
    rw [nextTicket_visit]
    rcases hr with hr | hr
    · exact h.ticketed.resolved r hr
    · obtain ⟨w, hw, hticket⟩ := List.mem_map.mp (hwords _ (List.mem_map_of_mem hr))
      rw [← hticket]
      exact h.ticketed.queued k w hw
  · rw [hlock]
    split
    · obtain ⟨rest, hrest, htickets⟩ := hsheds.queue
      rw [htickets]
      exact (h.ascending k).sublist ((hrest.sublist.trans List.filter_sublist).map _)
    · exact h.ascending j
  · exact h.apart i j n (hsubset i n hi) (hsubset j n hj)
  · rw [hresolved, List.map_append, List.mem_append] at hmem
    rcases hmem with hmem | hmem
    · exact h.untold j n (hsubset j n hn) hmem
    · -- A ticket among the new words stood in the queue of `k` alone, and it has left that.
      have hkj : k = j := h.apart k j n (hwords n hmem) (hsubset j n hn)
      rw [hlock, if_pos hkj] at hn
      exact hdisjoint n hmem n hn rfl
  · rw [hresolved, List.map_append, List.nodup_append]
    refine ⟨h.once, htold, fun n hn n' hn' heq => ?_⟩
    exact h.untold k n' (hwords n' hn') (heq ▸ hn)

/-- What changes no queue keeps the tickets apart. -/
theorem Tallied.of_eq (h : m.Tallied) (hqueue : ∀ k, (m'.lockOf k).queue = (m.lockOf k).queue)
    (hresolved : m'.resolved = m.resolved) (hnext : m'.nextTicket = m.nextTicket) :
    m'.Tallied := by
  have htickets : ∀ k, (m'.lockOf k).tickets = (m.lockOf k).tickets :=
    fun k => congrArg (List.map Waiter.ticket) (hqueue k)
  refine ⟨⟨fun k w hw => ?_, fun r hr => ?_⟩, fun k => ?_, fun i j n hi hj => ?_,
    fun k n hn => ?_, ?_⟩
  · rw [hnext]
    exact h.ticketed.queued k w (hqueue k ▸ hw)
  · rw [hnext]
    exact h.ticketed.resolved r (hresolved ▸ hr)
  · rw [htickets]
    exact h.ascending k
  · exact h.apart i j n (htickets i ▸ hi) (htickets j ▸ hj)
  · rw [hresolved]
    exact h.untold k n (htickets k ▸ hn)
  · rw [hresolved]
    exact h.once

/-- A queued request gets a ticket that nobody has. -/
theorem Tallied.append (h : m.Tallied) {w : Waiter} (hticket : w.ticket = m.nextTicket)
    (hlock : ∀ j, m'.lockOf j = if k = j then (m.lockOf k).append w else m.lockOf j)
    (hresolved : m'.resolved = m.resolved) (hnext : m'.nextTicket = m.nextTicket + 1) :
    m'.Tallied := by
  -- All tickets that are queued were handed out, and so they are below the new one.
  have hold : ∀ j n, n ∈ (m.lockOf j).tickets → n < m.nextTicket := by
    intro j n hn
    obtain ⟨v, hv, rfl⟩ := List.mem_map.mp hn
    exact h.ticketed.queued j v hv
  -- The new one stands at the end of its queue, and in no other queue.
  have htickets : ∀ j, (m'.lockOf j).tickets =
      (m.lockOf j).tickets ++ if k = j then [m.nextTicket] else [] := by
    intro j
    rw [hlock]
    split
    · rename_i hkj
      subst hkj
      rw [← hticket]
      exact List.map_append ..
    · exact (List.append_nil _).symm
  have hmem : ∀ j n, n ∈ (m'.lockOf j).tickets →
      n ∈ (m.lockOf j).tickets ∨ k = j ∧ n = m.nextTicket := by
    intro j n hn
    rw [htickets, List.mem_append] at hn
    refine hn.imp id fun hn => ?_
    split at hn
    · rename_i hkj
      exact ⟨hkj, List.mem_singleton.mp hn⟩
    · cases hn
  refine ⟨⟨fun j v hv => ?_, fun r hr => ?_⟩, fun j => ?_, fun i j n hi hj => ?_,
    fun j n hn => ?_, ?_⟩
  · rw [hnext]
    rcases hmem j v.ticket (List.mem_map_of_mem hv) with hv | ⟨-, hv⟩
    · exact Nat.lt_succ_of_lt (hold j _ hv)
    · exact hv ▸ Nat.lt_succ_self _
  · rw [hnext]
    exact Nat.lt_succ_of_lt (h.ticketed.resolved r (hresolved ▸ hr))
  · rw [htickets, List.pairwise_append]
    refine ⟨h.ascending j, ?_, fun n hn n' hn' => ?_⟩
    · split
      · exact List.pairwise_singleton ..
      · exact List.Pairwise.nil
    · split at hn'
      · exact List.mem_singleton.mp hn' ▸ hold j n hn
      · cases hn'
  · -- The new ticket stands in one queue, and an old one is not the new one.
    rcases hmem i n hi with hi | ⟨hki, hi⟩ <;> rcases hmem j n hj with hj | ⟨hkj, hj⟩
    · exact h.apart i j n hi hj
    · exact absurd (hold i n hi) (hj ▸ Nat.lt_irrefl _)
    · exact absurd (hold j n hj) (hi ▸ Nat.lt_irrefl _)
    · exact hki.symm.trans hkj
  · rw [hresolved]
    rcases hmem j n hn with hn | ⟨-, hn⟩
    · exact h.untold j n hn
    · intro htold
      obtain ⟨r, hr, hticket⟩ := List.mem_map.mp htold
      have hlt := h.ticketed.resolved r hr
      rw [hticket, hn] at hlt
      exact absurd hlt (Nat.lt_irrefl _)
  · rw [hresolved]
    exact h.once

/-! ## Every call keeps the tickets apart -/

/-- In a new manager no ticket is in use. -/
theorem tallied_new (timeout : Option Duration) : (new timeout).Tallied where
  ticketed := ⟨nofun, nofun⟩
  ascending _ := List.Pairwise.nil
  apart _ _ _ := nofun
  untold _ _ := nofun
  once := List.nodup_nil

/-- A request keeps the tickets apart. -/
theorem Tallied.request (h : m.Tallied) (mode : Mode) (me : Holder) (k : Key) :
    (m.request mode me k).1.Tallied := by
  have hrecorded := fun lock j => lockOf_update (m.record me.txn k mode) k j (lock, [])
  -- Entering a holder, or nobody, changes no queue.
  have hsame : ∀ lock : KeyLock, lock.queue = (m.lockOf k).queue →
      ((m.record me.txn k mode).update k (lock, [])).Tallied := by
    intro lock hqueue
    refine h.of_eq (fun j => ?_) (List.append_nil _) rfl
    rw [hrecorded]
    split
    · rename_i hkj
      exact hkj ▸ hqueue
    · rfl
  rcases m.request_cases mode me k with ⟨-, heq⟩ | ⟨-, ⟨-, heq⟩ | ⟨-, heq⟩ | ⟨-, heq⟩⟩
  · rw [heq]
    exact h
  · rw [heq]
    exact hsame _ rfl
  · rw [heq]
    exact hsame _ rfl
  · rw [heq]
    exact h.append rfl (hrecorded _) (List.append_nil _) rfl

/-- A release keeps the tickets apart. -/
theorem Tallied.release (h : m.Tallied) (t : TransactionId) (order : List Key) :
    (m.releaseInOrder t order).Tallied := by
  have hmark : (m.mark t).Tallied := h.of_eq (fun _ => rfl) rfl rfl
  rw [releaseInOrder_eq]
  generalize m.mark t = marked at hmark ⊢
  induction order generalizing marked with
  | nil => exact hmark
  | cons k rest ih =>
    have hsheds : (marked.lockOf k).Sheds _ (fun _ => False) _ :=
      KeyLock.sheds_release _ t marked.released
    exact ih _ (hmark.visit (release_free t _) hsheds)

/-- A deadline keeps the tickets apart. -/
theorem Tallied.expire (h : m.Tallied) (k : Key) (ticket : Ticket) :
    (m.expire k ticket).Tallied :=
  have hsheds : (m.lockOf k).Sheds _ (fun _ => False) _ :=
    KeyLock.sheds_expire (h.nodup k) ticket m.released
  h.visit (expire_free ticket _) hsheds

/-- A vanished caller keeps the tickets apart. -/
theorem Tallied.abandon (h : m.Tallied) (k : Key) (ticket : Ticket) :
    (m.abandon k ticket).Tallied := by
  show (m.visit k fun lock => (lock.abandon ticket, [])).Tallied
  exact h.visit rfl (KeyLock.sheds_abandon _ ticket)

/-- Every call keeps the tickets apart. -/
theorem Tallied.perform (h : m.Tallied) (call : Call) : (m.perform call).Tallied := by
  cases call with
  | request mode me k => exact h.request mode me k
  | release txn order => exact h.release txn order
  | forget txn => exact h.of_eq (fun _ => rfl) rfl rfl
  | expire k ticket => exact h.expire k ticket
  | abandon k ticket => exact h.abandon k ticket

/-- The tickets stand apart after any run. -/
theorem Run.tallied {P : Manager → Call → Prop} {timeout : Option Duration}
    (run : Run P timeout m) : m.Tallied := by
  induction run with
  | new => exact tallied_new timeout
  | perform _ _ _ ih => exact ih.perform _

end Manager

end TxStore.Lock
