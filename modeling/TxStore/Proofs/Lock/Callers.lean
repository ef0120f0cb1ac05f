import TxStore.Lock.Request
import TxStore.Proofs.Lock.Outcomes

/-!
# What the turns of others leave of a queued request

A caller that waits is not asked while others have their turns. It can rely on its request all the
same: it stays queued, or its caller is told, and the word that its deadline has passed is said by
nobody but the caller itself. `Proceeds` sums this up for the changes of a manager that the turns of
its callers make, a release and the forgetting of one; no caller of these goes away while it waits.
-/

namespace TxStore.Lock

/-- A request waits under a ticket if it is queued with that ticket. -/
theorem Request.waitsOn_iff (r : Request) {n : Ticket} :
    r.waitsOn n ↔ ∃ w, r.stage = .waiting w ∧ w.ticket = n := by
  unfold Request.waitsOn
  cases r.stage with
  | waiting w =>
    exact ⟨fun h => ⟨w, rfl, of_decide_eq_true h⟩, fun ⟨_, rfl, h⟩ => decide_eq_true h⟩
  | issued => exact ⟨nofun, nofun⟩
  | answered answer => exact ⟨nofun, nofun⟩
  | cancelled => exact ⟨nofun, nofun⟩

namespace Manager

variable {m m' m'' : Manager} {k : Key} {t : TransactionId} {me : Holder} {mode : Mode}
  {w w' : Waiting} {n : Ticket} {now : Duration} {mine mine' : Ticket → Prop}

/-- What becomes of the requests from one manager to a later one if all callers wait on, and those
of the tickets in `mine` may find that their deadline has passed. -/
structure Proceeds (m m' : Manager) (mine : Ticket → Prop) : Prop where
  /-- The tickets stand apart. -/
  tallied : m'.Tallied
  /-- The locks and their index agree. -/
  consistent : m'.Consistent
  /-- No request is lost, and no caller has gone. -/
  follows : m.Follows m' fun _ _ => False
  /-- Tickets are handed out in ascending order. -/
  nextTicket : m.nextTicket ≤ m'.nextTicket
  /-- Only the callers of these tickets are told that their deadline has passed. -/
  timedOut : ∀ n, (n, .timedOut) ∈ m'.resolved → (n, .timedOut) ∈ m.resolved ∨ mine n

/-- Nothing may happen. -/
theorem Tallied.proceeds_refl (h : m.Tallied) (hconsistent : m.Consistent) :
    m.Proceeds m mine :=
  ⟨h, hconsistent, .of_queue (fun _ => List.Subset.refl _) rfl, Nat.le_refl _, fun _ => .inl⟩

/-- Changes can be chained. -/
theorem Proceeds.trans (h : m.Proceeds m' mine) (h' : m'.Proceeds m'' mine) :
    m.Proceeds m'' mine where
  tallied := h'.tallied
  consistent := h'.consistent
  follows := h.follows.trans h'.follows
  nextTicket := Nat.le_trans h.nextTicket h'.nextTicket
  timedOut n hmem := (h'.timedOut n hmem).elim (h.timedOut n) .inr

/-- More deadlines may have passed than have. -/
theorem Proceeds.mono (h : m.Proceeds m' mine) (hmine : ∀ n, mine n → mine' n) :
    m.Proceeds m' mine' :=
  { h with timedOut := fun n hmem => (h.timedOut n hmem).imp id (hmine n) }

/-- No ticket is taken back. -/
theorem nextTicket_le_perform (m : Manager) (call : Call) :
    m.nextTicket ≤ (m.perform call).nextTicket := by
  cases call with
  | request mode me k =>
    have hnext : ∀ {turn : Manager × Reply}, m.request mode me k = turn →
        turn.1.nextTicket = (m.request mode me k).1.nextTicket :=
      fun heq => congrArg (·.1.nextTicket) heq.symm
    show m.nextTicket ≤ (m.request mode me k).1.nextTicket
    rcases m.request_cases mode me k with ⟨-, heq⟩ | ⟨-, ⟨-, heq⟩ | ⟨-, heq⟩ | ⟨-, heq⟩⟩
    · exact Nat.le_of_eq (hnext heq)
    · exact Nat.le_of_eq (hnext heq)
    · exact Nat.le_of_eq (hnext heq)
    · exact Nat.le_trans (Nat.le_succ m.nextTicket) (Nat.le_of_eq (hnext heq))
  | release txn order => exact Nat.le_of_eq (foldl_releaseKey_frame (m.mark txn) txn order).2.2.symm
  | forget txn => exact Nat.le_refl _
  | expire k ticket => exact Nat.le_of_eq (nextTicket_visit ..).symm
  | abandon k ticket => exact Nat.le_of_eq (nextTicket_visit ..).symm

/-- A call is such a change, unless a caller goes away. -/
theorem Tallied.proceeds (h : m.Tallied) (hconsistent : m.Consistent) (call : Call)
    (haccepts : m.Accepts call) (hstay : ∀ k n, call ≠ .abandon k n) :
    m.Proceeds (m.perform call) fun n => ∃ k, call = .expire k n where
  tallied := h.perform call
  consistent := hconsistent.perform haccepts
  follows := (h.follows_perform call).mono fun k n => hstay k n
  nextTicket := m.nextTicket_le_perform call
  timedOut n hmem := by
    by_cases hold : (n, .timedOut) ∈ m.resolved
    · exact .inl hold
    · obtain ⟨k, heq, -⟩ := expire_of_timedOut haccepts hmem hold
      exact .inr ⟨k, heq⟩

/-- A deadline is such a change. -/
theorem Tallied.proceeds_expire (h : m.Tallied) (hconsistent : m.Consistent) (k : Key)
    (ticket : Ticket) : m.Proceeds (m.expire k ticket) (· = ticket) := by
  refine (h.proceeds hconsistent (.expire k ticket) trivial nofun).mono ?_
  rintro n ⟨_, heq⟩
  cases heq
  rfl

/-- A release is such a change. -/
theorem Tallied.proceeds_release (h : m.Tallied) (hconsistent : m.Consistent)
    (t : TransactionId) : m.Proceeds (m.release t) mine := by
  refine (h.proceeds hconsistent (.release t (m.keysOf t)) (.refl _) nofun).mono ?_
  rintro n ⟨_, heq⟩
  cases heq

/-- Forgetting a release is such a change. -/
theorem Tallied.proceeds_forget (h : m.Tallied) (hconsistent : m.Consistent)
    (t : TransactionId) : m.Proceeds (m.forget t) mine := by
  refine (h.proceeds hconsistent (.forget t) trivial nofun).mono ?_
  rintro n ⟨_, heq⟩
  cases heq

/-- Looking for an answer is such a change. -/
theorem Tallied.proceeds_poll (h : m.Tallied) (hconsistent : m.Consistent) (now : Duration)
    (w : Waiting) : m.Proceeds (m.poll now w).1 (· = w.ticket) := by
  unfold poll
  split
  · exact h.proceeds_refl hconsistent
  · split
    · exact h.proceeds_expire hconsistent w.key w.ticket
    · exact h.proceeds_refl hconsistent

/-- The ticket of a queued request is the next one. -/
theorem ticket_of_queued (h : m.request mode me k = (m', .queued n)) :
    n = m.nextTicket ∧ m'.nextTicket = m.nextTicket + 1 ∧ m'.resolved = m.resolved := by
  rcases m.request_cases mode me k with ⟨-, heq⟩ | ⟨-, ⟨-, heq⟩ | ⟨-, heq⟩ | ⟨-, heq⟩⟩
  · rw [heq] at h
    cases h
  · rw [heq] at h
    cases h
  · rw [heq] at h
    cases h
  · rw [heq] at h
    cases h
    exact ⟨rfl, rfl, List.append_nil _⟩

/-- Asking for a key is such a change. -/
theorem Tallied.proceeds_acquire (h : m.Tallied) (hconsistent : m.Consistent) (now : Duration)
    (mode : Mode) (me : Holder) (k : Key) :
    m.Proceeds (m.acquire now mode me k).1 (· = m.nextTicket) := by
  have hrequest : m.Proceeds (m.request mode me k).1 (· = m.nextTicket) := by
    refine (h.proceeds hconsistent (.request mode me k) trivial nofun).mono ?_
    rintro n ⟨_, heq⟩
    cases heq
  unfold acquire
  split
  · rename_i heq
    rw [heq] at hrequest
    exact hrequest
  · rename_i heq
    rw [heq] at hrequest
    exact hrequest
  · rename_i ticket heq
    obtain ⟨rfl, -, -⟩ := ticket_of_queued heq
    rw [heq] at hrequest
    exact hrequest.trans (hrequest.tallied.proceeds_poll hrequest.consistent now _)

/-- A turn of a bare request is such a change. -/
theorem Tallied.proceeds_run (h : m.Tallied) (hconsistent : m.Consistent) (now : Duration)
    (r : Request) : m.Proceeds (r.run m now).1 fun n => n = m.nextTicket ∨ r.waitsOn n := by
  unfold Request.run
  split
  · rw [stage_of_fst]
    exact (h.proceeds_acquire hconsistent now r.mode r.holder r.key).mono fun _ => .inl
  · rename_i w hstage
    rw [stage_of_fst]
    exact (h.proceeds_poll hconsistent now w).mono fun n hn =>
      .inr (r.waitsOn_iff.mpr ⟨w, hstage, hn.symm⟩)
  · exact h.proceeds_refl hconsistent
  · exact h.proceeds_refl hconsistent

/-- Looking for an answer leaves who has released its locks. -/
theorem released_poll (m : Manager) (now : Duration) (w : Waiting) :
    (m.poll now w).1.released = m.released := by
  unfold poll
  split
  · rfl
  · split
    · exact released_visit ..
    · rfl

/-- So does a request. -/
theorem released_request (m : Manager) (mode : Mode) (me : Holder) (k : Key) :
    (m.request mode me k).1.released = m.released := by
  rcases m.request_cases mode me k with ⟨-, heq⟩ | ⟨-, ⟨-, heq⟩ | ⟨-, heq⟩ | ⟨-, heq⟩⟩
  · rw [heq]
  · rw [heq]; rfl
  · rw [heq]; rfl
  · rw [heq]; rfl

/-- So does asking for a key. -/
theorem released_acquire (m : Manager) (now : Duration) (mode : Mode) (me : Holder) (k : Key) :
    (m.acquire now mode me k).1.released = m.released := by
  have hrequest := m.released_request mode me k
  unfold acquire
  split
  · rename_i heq
    rw [heq] at hrequest
    exact hrequest
  · rename_i heq
    rw [heq] at hrequest
    exact hrequest
  · rename_i heq
    rw [heq] at hrequest
    exact (released_poll ..).trans hrequest

/-- So does a turn of a bare request. -/
theorem released_run (m : Manager) (now : Duration) (r : Request) :
    (r.run m now).1.released = m.released := by
  unfold Request.run
  split
  · rw [stage_of_fst]
    exact m.released_acquire now r.mode r.holder r.key
  · rename_i w _
    rw [stage_of_fst]
    exact m.released_poll now w
  · rfl
  · rfl

/-- A release adds its transaction to those that have released their locks. -/
theorem mem_released_release (m : Manager) (t : TransactionId) {u : TransactionId} :
    u ∈ (m.release t).released ↔ u ∈ m.released ∨ u = t := by
  unfold release
  rw [releaseInOrder_eq, (foldl_releaseKey_frame ..).1]
  exact mem_releasedWith

/-! ## Callers that have to wait -/

/-- A caller that has to wait on finds nothing changed. -/
theorem poll_waiting (h : m.poll now w = (m', .waiting w')) :
    m' = m ∧ w' = w ∧ m.resolution? w.ticket = none := by
  unfold poll at h
  split at h
  · cases h
  · rename_i hnone
    split at h
    · cases h
    · cases h
      exact ⟨rfl, rfl, hnone⟩

/-- What a caller knows that has to wait for the key it has just asked for. -/
structure Parked (m m' : Manager) (mode : Mode) (me : Holder) (k : Key) (w : Waiting) : Prop where
  /-- Its request is for this key. -/
  key : w.key = k
  /-- It has the next ticket. -/
  ticket : w.ticket = m.nextTicket
  /-- The ticket is handed out. -/
  given : m.nextTicket < m'.nextTicket
  /-- The request is queued. -/
  queued : ⟨me, mode, w.ticket, true⟩ ∈ (m'.lockOf k).queue
  /-- It has no answer yet. -/
  untold : m'.resolution? w.ticket = none
  /-- Nobody has been told anything. -/
  resolved : m'.resolved = m.resolved

/-- A caller that has to wait for a key it has just asked for is parked. -/
theorem acquire_waiting (h : m.acquire now mode me k = (m', .waiting w)) :
    m.Parked m' mode me k w := by
  unfold acquire at h
  split at h
  · cases h
  · cases h
  · rename_i m₁ ticket heq
    obtain ⟨rfl, hnext, hresolved⟩ := ticket_of_queued heq
    obtain ⟨rfl, rfl, huntold⟩ := poll_waiting h
    have hqueued := mem_queue_of_queued (n := m.nextTicket) (congrArg Prod.snd heq)
    have hperform : m.perform (.request mode me k) = m' := congrArg Prod.fst heq
    rw [hperform] at hqueued
    exact ⟨rfl, rfl, hnext ▸ Nat.lt_succ_self _, hqueued, huntold, hresolved⟩

/-- A bare request that has to wait has been parked in its turn, or it waits on and finds nothing
changed. -/
theorem run_parked {r : Request} (h : r.run m now = (m', .waiting w)) :
    r.stage = .issued ∧ m.Parked m' r.mode r.holder r.key w ∨
      r.stage = .waiting w ∧ m' = m ∧ m.resolution? w.ticket = none := by
  have hof : ∀ {turn : Manager × Acquisition}, Stage.of turn = (m', .waiting w) →
      turn = (m', .waiting w) := by
    rintro ⟨m, answer | w⟩ h
    · cases h
    · cases h
      rfl
  -- Only a request that is issued can be parked, and only one that waits can wait on.
  unfold Request.run at h
  split at h
  · rename_i hstage
    exact .inl ⟨hstage, acquire_waiting (hof h)⟩
  · rename_i w₀ hstage
    obtain ⟨rfl, rfl, hnone⟩ := poll_waiting (hof h)
    exact .inr ⟨hstage, rfl, hnone⟩
  · rename_i hstage
    rw [hstage] at h
    cases h
  · rename_i hstage
    rw [hstage] at h
    cases h

/-- A bare request that has to wait has got the next ticket in its turn, or it waits on. Nobody has
been told anything. -/
theorem run_waiting {r : Request} (h : r.run m now = (m', .waiting w)) :
    m'.resolved = m.resolved ∧
      (w.ticket = m.nextTicket ∧ w.ticket < m'.nextTicket ∨ r.waitsOn w.ticket ∧ m' = m) := by
  rcases run_parked h with ⟨-, hparked⟩ | ⟨hstage, rfl, -⟩
  · exact ⟨hparked.resolved, .inl ⟨hparked.ticket, hparked.ticket ▸ hparked.given⟩⟩
  · exact ⟨rfl, .inr ⟨r.waitsOn_iff.mpr ⟨w, hstage, rfl⟩, rfl⟩⟩

/-- Whether a request has been told is found out by looking. -/
theorem resolution?_eq_none : m.resolution? n = none ↔ ∀ wake, (n, wake) ∉ m.resolved := by
  unfold resolution?
  rw [List.lookup_eq_none_iff]
  constructor
  · intro h wake hmem
    exact bne_iff_ne.mp (h _ hmem) rfl
  · rintro h ⟨n', wake⟩ hmem
    refine bne_iff_ne.mpr ?_
    rintro rfl
    exact h wake hmem

/-- Whether the caller with a ticket has been told how its request ended. -/
def Tells (m : Manager) (n : Ticket) : Prop :=
  n ∈ m.resolved.map Prod.fst

/-- A caller that finds no answer has been told nothing. -/
theorem not_tells (h : m.resolution? n = none) : ¬ m.Tells n := by
  intro htold
  obtain ⟨⟨_, wake⟩, hmem, rfl⟩ := List.mem_map.mp htold
  exact resolution?_eq_none.mp h wake hmem

/-- A word to a caller stays. -/
theorem Follows.tells {gone : Key → Ticket → Prop} (h : m.Follows m' gone) (htold : m.Tells n) :
    m'.Tells n :=
  (h.told.map Prod.fst).subset htold

/-- A caller that is told something else than that its deadline has passed is one of those to be
woken. -/
theorem Proceeds.mem_endedSince (h : m.Proceeds m' mine) (huntold : ¬ m.Tells n)
    (htold : m'.Tells n) (hother : ¬ mine n) : n ∈ m'.endedSince m := by
  obtain ⟨r, hmem, rfl⟩ := List.mem_map.mp htold
  obtain ⟨later, hlater⟩ := h.follows.told
  have hnew : r ∈ m'.resolved.drop m.resolved.length := by
    rw [← hlater] at hmem ⊢
    rw [List.drop_left]
    exact (List.mem_append.mp hmem).resolve_left fun hold => huntold (List.mem_map_of_mem hold)
  have hword : r.2 ≠ .timedOut := by
    intro htimedOut
    have hr : (r.1, Wake.timedOut) = r := Prod.ext rfl htimedOut.symm
    rcases h.timedOut r.1 (hr ▸ hmem) with hold | hmine
    · exact huntold (List.mem_map.mpr ⟨_, hold, rfl⟩)
    · exact hother hmine
  exact List.mem_map.mpr ⟨r, List.mem_filter.mpr ⟨hnew, decide_eq_true hword⟩, rfl⟩

end Manager

end TxStore.Lock
