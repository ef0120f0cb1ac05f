import Mathlib.Data.List.Nodup
import TxStore.Proofs.Lock.Tickets

/-!
# What becomes of a queued request

A request that was queued is followed through any calls. It is `Pending`, once in the queue of its
key and with nothing told to its caller, until it has `Ended`, in no queue and with one word to its
caller; and the word has its reason in the call that ends it (`Reason`). `Follows` says that no
request is lost on the way, call by call. `Advances` is the discipline of the queues: a call appends
at the end and takes from the front, and takes from the middle only what the call itself strikes
out.
-/

namespace TxStore.Lock

namespace KeyLock

variable {l : KeyLock} {v w : Waiter} {struck : Waiter → Prop} [DecidablePred struck]
  {gone : Ticket → Prop} {change : KeyLock × List Resolution} {r : Resolution}

/-- A ticket identifies its request. -/
theorem eq_of_ticket_eq (h : l.tickets.Nodup) (hv : v ∈ l.queue) (hw : w ∈ l.queue)
    (heq : v.ticket = w.ticket) : v = w :=
  List.inj_on_of_nodup_map h hv hw heq

/-- A request that was queued is told, or it is queued still, perhaps without its caller. -/
theorem Sheds.queued (h : l.Sheds struck gone change) (hnodup : l.tickets.Nodup)
    (hw : w ∈ l.queue) :
    w.ticket ∈ change.2.map Prod.fst ∨
      ∃ live, { w with live := live } ∈ change.1.queue ∧ (live = w.live ∨ gone w.ticket) := by
  have hmem := h.tally.symm.subset (List.mem_map_of_mem hw)
  refine (List.mem_append.mp hmem).imp id fun hmem => ?_
  obtain ⟨v, hv, hticket⟩ := List.mem_map.mp hmem
  rcases h.kept v hv with hold | ⟨hgone, u, hu, rfl⟩
  · obtain rfl := eq_of_ticket_eq hnodup hold hw hticket
    exact ⟨v.live, hv, .inl rfl⟩
  · obtain rfl := eq_of_ticket_eq hnodup hu hw hticket
    exact ⟨false, hv, .inr hgone⟩

/-- A word stays another one than that of a deadline when it is replaced because nobody listens. -/
theorem resolution_ne_timedOut (w : Waiter) {wake : Wake} (h : wake ≠ .timedOut) :
    (w.resolution wake).2 ≠ .timedOut := by
  unfold Waiter.resolution
  cases w.live with
  | true => exact h
  | false => exact nofun

/-- Nobody is told by the serving that a deadline has passed. -/
theorem serveFrom_ne_timedOut (released : List TransactionId) (s : Holders) (q : List Waiter) :
    ∀ r ∈ (serveFrom released s q).2, r.2 ≠ .timedOut := by
  induction q generalizing s with
  | nil => exact List.forall_mem_nil _
  | cons w rest ih =>
    unfold serveFrom
    split
    · exact List.forall_mem_cons.mpr ⟨resolution_ne_timedOut w (by decide), ih s⟩
    · split
      · exact List.forall_mem_nil _
      · exact List.forall_mem_cons.mpr ⟨resolution_ne_timedOut w (by decide), ih s⟩
      · exact List.forall_mem_cons.mpr ⟨resolution_ne_timedOut w (by decide), ih _⟩

/-- Nor by a release. -/
theorem release_ne_timedOut {t : TransactionId} {released : List TransactionId}
    (hr : r ∈ (l.release t released).2) : r.2 ≠ .timedOut := by
  rcases List.mem_append.mp hr with hr | hr
  · obtain ⟨w, -, rfl⟩ := List.mem_map.mp hr
    exact resolution_ne_timedOut w nofun
  · exact serveFrom_ne_timedOut _ _ _ r hr

/-- At a deadline only its own caller is told so, whose request was queued until then. -/
theorem expire_timedOut {ticket : Ticket} {released : List TransactionId}
    (hr : r ∈ (l.expire ticket released).2) (hword : r.2 = .timedOut) :
    r.1 = ticket ∧ ∃ w ∈ l.queue, w.ticket = ticket := by
  unfold expire at hr
  split at hr
  · rename_i hqueued
    rcases List.mem_cons.mp hr with rfl | hr
    · obtain ⟨w, hw, hticket⟩ := List.any_eq_true.mp hqueued
      exact ⟨rfl, w, hw, of_decide_eq_true hticket⟩
    · exact absurd hword (serveFrom_ne_timedOut _ _ _ r hr)
  · cases hr

end KeyLock

namespace Manager

variable {m m' m'' : Manager} {k : Key} {w : Waiter} {n : Ticket} {wake : Wake} {call : Call}
  {calls : List Call} {gone gone' : Key → Ticket → Prop}

/-! ## No request is lost -/

/-- What becomes of the requests from one manager to a later one, if the callers of those in `gone`
have gone. -/
structure Follows (m m' : Manager) (gone : Key → Ticket → Prop) : Prop where
  /-- A word to a caller stays. -/
  told : m.resolved <+: m'.resolved
  /-- A queued request stays, or its caller has been told. -/
  queued : ∀ k, ∀ w ∈ (m.lockOf k).queue, w.ticket ∈ m'.resolved.map Prod.fst ∨
    ∃ live, { w with live := live } ∈ (m'.lockOf k).queue ∧ (live = w.live ∨ gone k w.ticket)

/-- Where no queue is touched no request is lost. -/
theorem Follows.of_queue (hqueue : ∀ k, (m.lockOf k).queue ⊆ (m'.lockOf k).queue)
    (hresolved : m'.resolved = m.resolved) : m.Follows m' gone where
  told := hresolved ▸ List.prefix_refl _
  queued k w hw := .inr ⟨w.live, hqueue k hw, .inl rfl⟩

/-- More callers may have gone than have. -/
theorem Follows.mono (h : m.Follows m' gone) (hgone : ∀ k n, gone k n → gone' k n) :
    m.Follows m' gone' where
  told := h.told
  queued k w hw := (h.queued k w hw).imp id fun ⟨live, hmem, hlive⟩ =>
    ⟨live, hmem, hlive.imp id (hgone k w.ticket)⟩

/-- Requests can be followed step by step. -/
theorem Follows.trans (h : m.Follows m' gone) (h' : m'.Follows m'' gone) :
    m.Follows m'' gone where
  told := h.told.trans h'.told
  queued k w hw := by
    rcases h.queued k w hw with htold | ⟨live, hmem, hlive⟩
    · exact .inl ((h'.told.map Prod.fst).subset htold)
    · refine (h'.queued k _ hmem).imp id ?_
      rintro ⟨live', hmem', hlive'⟩
      refine ⟨live', hmem', ?_⟩
      rcases hlive' with rfl | hgone
      · exact hlive
      · exact .inr hgone

/-- Visiting a key loses no request. -/
theorem Tallied.follows_visit {struck : Waiter → Prop} [DecidablePred struck]
    {change : KeyLock → KeyLock × List Resolution} (h : m.Tallied)
    (hfree : change .free = (.free, []))
    (hsheds : (m.lockOf k).Sheds struck (gone k) (change (m.lockOf k))) :
    m.Follows (m.visit k change) gone := by
  have hresolved := resolved_visit hfree m k
  refine ⟨hresolved ▸ List.prefix_append .., fun j w hw => ?_⟩
  rw [hresolved, lockOf_visit hfree, List.map_append]
  split
  · rename_i hkj
    subst hkj
    exact (hsheds.queued (h.nodup k) hw).imp (List.mem_append_right _) id
  · exact .inr ⟨w.live, hw, .inl rfl⟩

/-- A release loses no request. -/
theorem Tallied.follows_release (h : m.Tallied) (t : TransactionId) (order : List Key) :
    m.Follows (m.releaseInOrder t order) gone := by
  have hmark : (m.mark t).Tallied := h.of_eq (fun _ => rfl) rfl rfl
  have hfollows : m.Follows (m.mark t) gone := .of_queue (fun _ => List.Subset.refl _) rfl
  rw [releaseInOrder_eq]
  generalize m.mark t = marked at hmark hfollows ⊢
  induction order generalizing marked with
  | nil => exact hfollows
  | cons k rest ih =>
    have hsheds : (marked.lockOf k).Sheds _ (gone k) _ :=
      KeyLock.sheds_release _ t marked.released
    exact ih _ (hmark.visit (release_free t _) hsheds)
      (hfollows.trans (hmark.follows_visit (release_free t _) hsheds))

/-- A request loses no other request. -/
theorem follows_request (m : Manager) (mode : Mode) (me : Holder) (k : Key) :
    m.Follows (m.request mode me k).1 gone := by
  -- Whatever lock is put in the place of the old one, nobody leaves its queue.
  have hlock : ∀ lock : KeyLock, (m.lockOf k).queue ⊆ lock.queue →
      m.Follows ((m.record me.txn k mode).update k (lock, [])) gone := by
    intro lock hqueue
    refine .of_queue (fun j => ?_) (List.append_nil _)
    rw [lockOf_update]
    split
    · rename_i hkj
      exact hkj ▸ hqueue
    · exact List.Subset.refl _
  rcases m.request_cases mode me k with ⟨-, heq⟩ | ⟨-, ⟨-, heq⟩ | ⟨-, heq⟩ | ⟨-, heq⟩⟩
  · rw [heq]
    exact .of_queue (fun _ => List.Subset.refl _) rfl
  · rw [heq]
    exact hlock _ (List.Subset.refl _)
  · rw [heq]
    exact hlock _ (List.Subset.refl _)
  · rw [heq]
    have h := hlock ((m.lockOf k).append ⟨me, mode, m.nextTicket, true⟩)
      (List.subset_append_left ..)
    exact ⟨h.told, h.queued⟩

/-- No call loses a request, and a caller has gone only if it was noted so. -/
theorem Tallied.follows_perform (h : m.Tallied) (call : Call) :
    m.Follows (m.perform call) fun k n => call = .abandon k n := by
  cases call with
  | request mode me k => exact m.follows_request mode me k
  | release txn order => exact h.follows_release txn order
  | forget txn => exact .of_queue (fun _ => List.Subset.refl _) rfl
  | expire k ticket =>
    exact h.follows_visit (expire_free ticket _) (KeyLock.sheds_expire (h.nodup k) ticket _)
  | abandon k ticket =>
    have hfollows : m.Follows (m.abandon k ticket) fun j n => j = k ∧ n = ticket := by
      have hsheds := KeyLock.sheds_abandon (m.lockOf k) ticket
      have hgone : (m.lockOf k).Sheds (fun _ => False) (fun n => k = k ∧ n = ticket)
          ((m.lockOf k).abandon ticket, []) :=
        ⟨hsheds.queue, hsheds.tally, fun w hw => (hsheds.kept w hw).imp id
          fun hgone => ⟨⟨rfl, hgone.1⟩, hgone.2⟩⟩
      show m.Follows (m.visit k fun lock => (lock.abandon ticket, [])) _
      exact h.follows_visit rfl hgone
    refine hfollows.mono ?_
    rintro j n ⟨rfl, rfl⟩
    rfl

/-- No request is lost in any number of calls. -/
theorem Tallied.follows_performAll (h : m.Tallied) (calls : List Call) :
    m.Follows (calls.foldl Manager.perform m) fun k n => .abandon k n ∈ calls := by
  induction calls generalizing m with
  | nil => exact .of_queue (fun _ => List.Subset.refl _) rfl
  | cons call rest ih =>
    have hfirst : m.Follows (m.perform call) fun k n => .abandon k n ∈ call :: rest :=
      (h.follows_perform call).mono fun k n heq => heq ▸ List.mem_cons_self
    exact hfirst.trans ((ih (h.perform call)).mono fun _ _ => List.mem_cons_of_mem _)

/-! ## Where a request stands -/

/-- The request `w` waits for `k`: it is queued there once and nowhere else, and its caller has been
told nothing. -/
structure Pending (m : Manager) (k : Key) (w : Waiter) : Prop where
  /-- It is queued once. -/
  queued : (m.lockOf k).queue.filter (fun v => v.ticket = w.ticket) = [w]
  /-- It is queued nowhere else. -/
  elsewhere : ∀ j, j ≠ k → ∀ v ∈ (m.lockOf j).queue, v.ticket ≠ w.ticket
  /-- Its caller has been told nothing. -/
  untold : ∀ r ∈ m.resolved, r.1 ≠ w.ticket

/-- The request with the ticket `n` is over, with one word to its caller. -/
structure Ended (m : Manager) (n : Ticket) (wake : Wake) : Prop where
  /-- No queue has it. -/
  gone : ∀ k, ∀ v ∈ (m.lockOf k).queue, v.ticket ≠ n
  /-- Its caller was told once. -/
  told : m.resolved.filter (fun r => r.1 = n) = [(n, wake)]

/-- In a list without repetitions a value is the only one of its kind. -/
theorem filter_eq_singleton {α β : Type} [DecidableEq β] {f : α → β} {xs : List α} {x : α}
    (hnodup : (xs.map f).Nodup) (hx : x ∈ xs) : xs.filter (fun y => f y = f x) = [x] := by
  induction xs with
  | nil => cases hx
  | cons y rest ih =>
    obtain ⟨hy, hrest⟩ := List.nodup_cons.mp hnodup
    rcases List.mem_cons.mp hx with rfl | hx
    · have hothers : rest.filter (fun y => f y = f x) = [] := by
        refine List.filter_eq_nil_iff.mpr fun z hz heq => hy ?_
        exact List.mem_map.mpr ⟨z, hz, of_decide_eq_true heq⟩
      simp only [List.filter_cons, decide_true, if_true, hothers]
    · have hne : f y ≠ f x := fun heq => hy (List.mem_map.mpr ⟨x, hx, heq.symm⟩)
      simp only [List.filter_cons, hne, decide_false, Bool.false_eq_true, if_false, ih hrest hx]

/-- A queued request waits. -/
theorem Tallied.pending (h : m.Tallied) (hw : w ∈ (m.lockOf k).queue) : m.Pending k w where
  queued := filter_eq_singleton (h.nodup k) hw
  elsewhere j hj _ hv heq :=
    hj (h.apart j k w.ticket (heq ▸ List.mem_map_of_mem hv) (List.mem_map_of_mem hw))
  untold _ hr heq :=
    h.untold k w.ticket (List.mem_map_of_mem hw) (heq ▸ List.mem_map_of_mem hr)

/-- A request whose caller has been told is over. -/
theorem Tallied.ended (h : m.Tallied) (hmem : (n, wake) ∈ m.resolved) : m.Ended n wake where
  gone k _ hv heq :=
    h.untold k n (heq ▸ List.mem_map_of_mem hv) (List.mem_map_of_mem (f := Prod.fst) hmem)
  told := filter_eq_singleton (f := Prod.fst) h.once hmem

/-- A request that waits is queued for its key. -/
theorem Pending.mem (h : m.Pending k w) : w ∈ (m.lockOf k).queue :=
  (List.mem_filter.mp (h.queued ▸ List.mem_singleton_self w)).1

/-- A request that waits is not over. -/
theorem Pending.not_ended (h : m.Pending k w) : ¬ m.Ended w.ticket wake :=
  fun hended => hended.gone k w h.mem rfl

/-- The caller of a request that is over has been told. -/
theorem Ended.mem (h : m.Ended n wake) : (n, wake) ∈ m.resolved :=
  (List.mem_filter.mp (h.told ▸ List.mem_singleton_self _)).1

/-! ## Why a request ends -/

/-- What a word to the caller of `w` goes back to, if it is said in `call`, after `earlier` calls
that lead to `m`: the transaction holds the key, or it has released its locks, or the deadline has
passed, or the caller had gone before. -/
def Reason (m : Manager) (earlier : List Call) (call : Call) (k : Key) (w : Waiter) : Wake → Prop
  | .granted => ((m.perform call).lockOf k).holders.holds w.holder.txn w.mode
  | .conflict => True
  | .released => w.holder.txn ∈ (m.perform call).released
  | .timedOut => call = .expire k w.ticket
  | .abandoned => .abandon k w.ticket ∈ earlier

/-- A request ends no request. -/
theorem resolved_request (m : Manager) (mode : Mode) (me : Holder) (k : Key) :
    (m.request mode me k).1.resolved = m.resolved := by
  rcases m.request_cases mode me k with ⟨-, heq⟩ | ⟨-, ⟨-, heq⟩ | ⟨-, heq⟩ | ⟨-, heq⟩⟩
  · rw [heq]
  · rw [heq]
    exact List.append_nil _
  · rw [heq]
    exact List.append_nil _
  · rw [heq]
    exact List.append_nil _

/-- A caller that goes away ends no request. -/
theorem resolved_abandon (m : Manager) (k : Key) (ticket : Ticket) :
    (m.abandon k ticket).resolved = m.resolved := by
  show (m.visit k fun lock => (lock.abandon ticket, [])).resolved = _
  rw [resolved_visit rfl]
  exact List.append_nil _

/-- Every word that is said in a call goes to a waiter, and the locks bear it out. -/
theorem Consistent.told (h : m.Consistent) (haccepts : m.Accepts call)
    (hmem : (n, wake) ∈ (m.perform call).resolved) (hnew : (n, wake) ∉ m.resolved) :
    ∃ k, ∃ w ∈ (m.lockOf k).queue, n = w.ticket ∧ KeyLock.BearsOut
      ((m.perform call).lockOf k).holders (m.perform call).released w wake := by
  cases call with
  | request mode me k => exact absurd (m.resolved_request mode me k ▸ hmem) hnew
  | release txn order =>
    exact ((h.evolves_release haccepts).resolved _ hmem).resolve_left hnew
  | forget txn => exact absurd hmem hnew
  | expire k ticket => exact ((h.evolves_expire k ticket).resolved _ hmem).resolve_left hnew
  | abandon k ticket => exact absurd (m.resolved_abandon k ticket ▸ hmem) hnew

/-- A caller is told that its deadline has passed when it has. -/
theorem expire_of_timedOut (haccepts : m.Accepts call)
    (hmem : (n, .timedOut) ∈ (m.perform call).resolved) (hnew : (n, .timedOut) ∉ m.resolved) :
    ∃ k, call = .expire k n ∧ ∃ w ∈ (m.lockOf k).queue, w.ticket = n := by
  cases call with
  | request mode me k => exact absurd (m.resolved_request mode me k ▸ hmem) hnew
  | release txn order =>
    have hnodup : order.Nodup := haccepts.nodup_iff.mpr (m.held.getD txn ∅).nodup_keys
    have hresolved := resolved_foldl_releaseKey (m.mark txn) txn order hnodup
    rw [← releaseInOrder_eq] at hresolved
    have hwords := (List.mem_append.mp (hresolved ▸ hmem)).resolve_left hnew
    obtain ⟨k, -, hword⟩ := List.mem_flatMap.mp hwords
    exact absurd rfl (KeyLock.release_ne_timedOut hword)
  | forget txn => exact absurd hmem hnew
  | expire k ticket =>
    have hword := (List.mem_append.mp (m.resolved_expire k ticket ▸ hmem)).resolve_left hnew
    obtain ⟨rfl, hqueued⟩ := KeyLock.expire_timedOut hword rfl
    exact ⟨k, rfl, hqueued⟩
  | abandon k ticket => exact absurd (m.resolved_abandon k ticket ▸ hmem) hnew

/-- Whoever is queued under the ticket of a request that waits is that request. -/
theorem Pending.eq {j : Key} {v : Waiter} (h : m.Pending k w) (hv : v ∈ (m.lockOf j).queue)
    (hticket : v.ticket = w.ticket) : j = k ∧ v = w := by
  have hkey : j = k := by
    by_contra hne
    exact h.elsewhere j hne v hv hticket
  subst hkey
  have hmem : v ∈ (m.lockOf j).queue.filter fun v => v.ticket = w.ticket :=
    List.mem_filter.mpr ⟨hv, decide_eq_true hticket⟩
  exact ⟨rfl, List.mem_singleton.mp (h.queued ▸ hmem)⟩

/-- When a request that waits ends, the word to its caller has its reason. -/
theorem Pending.reason (h : m.Pending k w) (hconsistent : m.Consistent)
    (haccepts : m.Accepts call) (hgone : w.live ∨ .abandon k w.ticket ∈ calls)
    (hended : (m.perform call).Ended w.ticket wake) : m.Reason calls call k w wake := by
  have hnew : (w.ticket, wake) ∉ m.resolved := fun hmem => h.untold _ hmem rfl
  obtain ⟨j, v, hv, hticket, hword⟩ := hconsistent.told haccepts hended.mem hnew
  obtain ⟨rfl, rfl⟩ := h.eq hv hticket.symm
  cases wake with
  | granted => exact hword
  | conflict => trivial
  | released => exact hword
  | timedOut =>
    obtain ⟨i, rfl, u, hu, hsame⟩ := expire_of_timedOut haccepts hended.mem hnew
    -- The deadline was that of a request for this very key.
    obtain ⟨rfl, -⟩ := h.eq hu hsame
    rfl
  | abandoned =>
    have hdead : v.live = false := hword
    exact hgone.resolve_left (hdead ▸ Bool.false_ne_true)

/-! ## The order in a queue -/

/-- What a call makes of the queue of `k`: it strikes requests out, lets others go from the front,
and at most one joins at the end, with a ticket that is new. -/
def Advances (m : Manager) (call : Call) (k : Key) : Prop :=
  ∃ rest joined, rest <:+ ((m.lockOf k).queue.filter fun w => ¬ call.Strikes k w) ∧
    ((m.perform call).lockOf k).tickets = rest.map Waiter.ticket ++ joined ∧
    (joined = [] ∨ joined = [m.nextTicket] ∧ ∃ mode me, call = .request mode me k)

/-- A call that strikes nobody out, and at most lets one request join, advances a queue. -/
theorem Advances.of_append (joined : List Ticket)
    (hstays : ∀ w ∈ (m.lockOf k).queue, ¬ call.Strikes k w)
    (htickets : ((m.perform call).lockOf k).tickets = (m.lockOf k).tickets ++ joined)
    (hjoined : joined = [] ∨ joined = [m.nextTicket] ∧ ∃ mode me, call = .request mode me k) :
    m.Advances call k :=
  ⟨(m.lockOf k).queue, joined, KeyLock.suffix_staying hstays, htickets, hjoined⟩

/-- A call that leaves a queue alone advances it. -/
theorem Advances.of_eq (hstays : ∀ w ∈ (m.lockOf k).queue, ¬ call.Strikes k w)
    (hlock : (m.perform call).lockOf k = m.lockOf k) : m.Advances call k :=
  .of_append [] hstays (hlock ▸ (List.append_nil _).symm) (.inl rfl)

/-- A change of a lock that sheds what the call strikes out advances its queue. -/
theorem Advances.of_sheds {struck : Waiter → Prop} [DecidablePred struck] {gone : Ticket → Prop}
    {change : KeyLock × List Resolution} (hsheds : (m.lockOf k).Sheds struck gone change)
    (hstruck : ∀ w, struck w ↔ call.Strikes k w)
    (hlock : (m.perform call).lockOf k = change.1) : m.Advances call k := by
  obtain ⟨rest, hrest, htickets⟩ := hsheds.queue
  refine ⟨rest, [], ?_, ?_, .inl rfl⟩
  · have hfilter : (m.lockOf k).queue.filter (fun w => ¬ struck w) =
        (m.lockOf k).queue.filter fun w => ¬ call.Strikes k w :=
      List.filter_congr fun w _ => decide_eq_decide.mpr (not_congr (hstruck w))
    exact hfilter ▸ hrest
  · rw [hlock, htickets, List.append_nil]

/-- A request advances every queue. -/
theorem advances_request (m : Manager) (mode : Mode) (me : Holder) (j k : Key) :
    m.Advances (.request mode me j) k := by
  have hstays : ∀ w ∈ (m.lockOf k).queue, ¬ (Call.request mode me j).Strikes k w := fun _ _ => id
  have hrecorded := fun lock => lockOf_update (m.record me.txn j mode) j k (lock, [])
  -- Where no request joins, the tickets stay the same.
  have hsame : ∀ lock : KeyLock, lock.queue = (m.lockOf j).queue →
      (m.request mode me j).1 = (m.record me.txn j mode).update j (lock, []) →
      m.Advances (.request mode me j) k := by
    intro lock hqueue heq
    refine .of_append [] hstays ?_ (.inl rfl)
    show ((m.request mode me j).1.lockOf k).tickets = _
    rw [heq, hrecorded, List.append_nil]
    split
    · rename_i hjk
      exact hjk ▸ congrArg (List.map Waiter.ticket) hqueue
    · rfl
  rcases m.request_cases mode me j with ⟨-, heq⟩ | ⟨-, ⟨-, heq⟩ | ⟨-, heq⟩ | ⟨-, heq⟩⟩
  · exact .of_eq hstays (congrArg (lockOf · k) (congrArg Prod.fst heq))
  · exact hsame ⟨(m.lockOf j).holders.enter me mode, _⟩ rfl (congrArg Prod.fst heq)
  · exact hsame (m.lockOf j) rfl (congrArg Prod.fst heq)
  · have hlock : ((m.perform (.request mode me j)).lockOf k) = if j = k
        then (m.lockOf j).append ⟨me, mode, m.nextTicket, true⟩ else m.lockOf k :=
      (congrArg (lockOf · k) (congrArg Prod.fst heq)).trans (hrecorded _)
    by_cases hjk : j = k
    · subst hjk
      rw [if_pos rfl] at hlock
      refine .of_append _ hstays ?_ (.inr ⟨rfl, mode, me, rfl⟩)
      rw [hlock]
      exact List.map_append ..
    · exact .of_eq hstays (hlock.trans (if_neg hjk))

/-- Every call advances every queue. -/
theorem Tallied.advances (h : m.Tallied) (hconsistent : m.Consistent)
    (haccepts : m.Accepts call) (k : Key) : m.Advances call k := by
  cases call with
  | request mode me j => exact m.advances_request mode me j k
  | release txn order =>
    have hnodup : order.Nodup := haccepts.nodup_iff.mpr (m.held.getD txn ∅).nodup_keys
    have hlock := lockOf_foldl_releaseKey (m.mark txn) txn order hnodup k
    by_cases hk : k ∈ order
    · have hsheds : (m.lockOf k).Sheds _ (fun _ => False) _ :=
        KeyLock.sheds_release _ txn (m.releasedWith txn)
      exact .of_sheds hsheds (fun _ => Iff.rfl) (hlock.trans (if_pos hk))
    · -- The index covers whoever waits, so nobody in this queue is released.
      refine .of_eq (fun w hw htxn => hk ?_) (hlock.trans (if_neg hk))
      exact haccepts.mem_iff.mpr (hconsistent.indexed k txn (.inr ⟨w, hw, htxn⟩))
  | forget txn => exact .of_eq (fun _ _ => id) rfl
  | expire j ticket =>
    have hlock := lockOf_expire m j k ticket
    by_cases hjk : j = k
    · subst hjk
      have hsheds : (m.lockOf j).Sheds _ (fun _ => False) _ :=
        KeyLock.sheds_expire (h.nodup j) ticket m.released
      exact .of_sheds hsheds (fun _ => (and_iff_right rfl).symm) (hlock.trans (if_pos rfl))
    · exact .of_eq (fun _ _ hstruck => hjk hstruck.1) (hlock.trans (if_neg hjk))
  | abandon j ticket =>
    have hlock := lockOf_abandon m j k ticket
    by_cases hjk : j = k
    · subst hjk
      exact .of_sheds (KeyLock.sheds_abandon _ ticket) (fun _ => Iff.rfl)
        (hlock.trans (if_pos rfl))
    · exact .of_eq (fun _ _ => id) (hlock.trans (if_neg hjk))

/-! ## Every queued request ends once -/

/-- A request that is told a ticket is queued under it. -/
theorem mem_queue_of_queued {mode : Mode} {me : Holder}
    (h : (m.request mode me k).2 = .queued n) :
    ⟨me, mode, n, true⟩ ∈ ((m.perform (.request mode me k)).lockOf k).queue := by
  rcases m.request_cases mode me k with ⟨-, heq⟩ | ⟨-, ⟨-, heq⟩ | ⟨-, heq⟩ | ⟨-, heq⟩⟩
  · exact absurd (heq ▸ h) nofun
  · exact absurd (heq ▸ h) nofun
  · exact absurd (heq ▸ h) nofun
  · rw [heq] at h
    cases h
    have hlock : (m.perform (.request mode me k)).lockOf k =
        (m.lockOf k).append ⟨me, mode, m.nextTicket, true⟩ :=
      (congrArg (lockOf · k) (congrArg Prod.fst heq)).trans
        ((lockOf_update (m.record me.txn k mode) k k (_, [])).trans (if_pos rfl))
    rw [hlock]
    exact List.mem_append_right _ List.mem_cons_self

/-- A word to a caller is the last one. -/
theorem Tallied.ended_perform (h : m.Tallied) (hended : m.Ended n wake) (call : Call) :
    (m.perform call).Ended n wake :=
  (h.perform call).ended ((h.follows_perform call).told.subset hended.mem)

/-- After any calls the requests for each key are queued in the order in which they arrived, and
every call lets them go from the front, except those that it strikes out. Whatever calls come later,
a request that is queued either waits, once in the queue of its key and nowhere else with nothing
told to its caller, or it has ended, in no queue and with one word to its caller, and then it stays
so. The word has its reason in the call that ends the request: one that is granted holds its key
right after that call. -/
theorem ends_once {timeout : Option Duration} (run : Reachable timeout m) :
    (∀ k, (m.lockOf k).tickets.Pairwise (· < ·)) ∧
    (∀ call k, m.Accepts call → m.Advances call k) ∧
    ∀ mode me k n calls, (m.request mode me k).2 = .queued n →
      Admits (fun _ _ => True) (m.perform (.request mode me k)) calls →
      let later := calls.foldl Manager.perform (m.perform (.request mode me k))
      ((∃ live, later.Pending k ⟨me, mode, n, live⟩) ∨ ∃ wake, later.Ended n wake) ∧
      (∀ live wake, ¬ (later.Pending k ⟨me, mode, n, live⟩ ∧ later.Ended n wake)) ∧
      (∀ wake call, later.Ended n wake → (later.perform call).Ended n wake) ∧
      ∀ live wake call, later.Pending k ⟨me, mode, n, live⟩ → later.Accepts call →
        (later.perform call).Ended n wake →
        later.Reason calls call k ⟨me, mode, n, live⟩ wake := by
  have htallied := run.tallied
  refine ⟨htallied.ascending, fun call k haccepts => htallied.advances run.consistent haccepts k,
    fun mode me k n calls hqueued hadmits => ?_⟩
  intro later
  have hrequest : Reachable timeout (m.perform (.request mode me k)) :=
    run.perform trivial trivial
  have hlater : Reachable timeout later := hrequest.performAll hadmits
  have hfollows := (hrequest.tallied.follows_performAll calls).queued k _
    (mem_queue_of_queued hqueued)
  refine ⟨?_, fun live wake h => h.1.not_ended h.2,
    fun wake call hended => hlater.tallied.ended_perform hended call,
    fun live wake call hpending haccepts hended => ?_⟩
  · rcases hfollows with htold | ⟨live, hmem, -⟩
    · obtain ⟨⟨_, wake⟩, hr, rfl⟩ := List.mem_map.mp htold
      exact .inr ⟨wake, hlater.tallied.ended hr⟩
    · exact .inl ⟨live, hlater.tallied.pending hmem⟩
  · refine hpending.reason hlater.consistent haccepts ?_ hended
    -- The caller listens unless it was noted as gone in one of the calls.
    rcases hfollows with htold | ⟨live', hmem, hlive⟩
    · obtain ⟨r, hr, hticket⟩ := List.mem_map.mp htold
      exact absurd hticket (hpending.untold r hr)
    · obtain ⟨-, heq⟩ := hpending.eq hmem rfl
      obtain rfl : live' = live := congrArg Waiter.live heq
      exact hlive

/-- For instance, the request of an older transaction that waits for a younger one ends when that
releases its locks. -/
theorem ends_once_handOver :
    let k : Key := ⟨⟨1⟩, .integer 1⟩
    let m := (new none).perform (.request .write ⟨⟨2⟩, ⟨2⟩⟩ k)
    let queued := m.perform (.request .write ⟨⟨1⟩, ⟨1⟩⟩ k)
    Reachable none m ∧ (m.request .write ⟨⟨1⟩, ⟨1⟩⟩ k).2 = .queued 1 ∧
      queued.Pending k ⟨⟨⟨1⟩, ⟨1⟩⟩, .write, 1, true⟩ ∧
      queued.Accepts (.release ⟨2⟩ [k]) ∧
      ∃ wake, (queued.perform (.release ⟨2⟩ [k])).Ended 1 wake := by
  intro k m queued
  have run : Reachable none m := .perform .new trivial trivial
  have htold : (m.request .write ⟨⟨1⟩, ⟨1⟩⟩ k).2 = .queued 1 := by decide
  have haccepts : queued.Accepts (.release ⟨2⟩ [k]) := .of_eq (by decide)
  have hends := (ends_once run).2.2
  refine ⟨run, htold, ?_, haccepts, ?_⟩
  · -- Right after the request nobody has been told anything.
    rcases (hends .write ⟨⟨1⟩, ⟨1⟩⟩ k 1 [] htold trivial).1 with ⟨live, h⟩ | ⟨wake, h⟩
    · have hqueue : (queued.lockOf k).queue = [⟨⟨⟨1⟩, ⟨1⟩⟩, .write, 1, true⟩] := by decide
      obtain ⟨-, heq⟩ := h.eq (v := ⟨⟨⟨1⟩, ⟨1⟩⟩, .write, 1, true⟩)
        (hqueue ▸ List.mem_singleton_self _) rfl
      exact heq ▸ h
    · have hresolved : queued.resolved = [] := by decide
      exact absurd (hresolved ▸ h.mem) List.not_mem_nil
  · have hafter := hends .write ⟨⟨1⟩, ⟨1⟩⟩ k 1 [.release ⟨2⟩ [k]] htold
      ⟨⟨haccepts, trivial⟩, trivial⟩
    refine hafter.1.resolve_left ?_
    rintro ⟨live, h⟩
    have hqueue : ((queued.perform (.release ⟨2⟩ [k])).lockOf k).queue = [] := by decide
    exact absurd (hqueue ▸ h.mem) List.not_mem_nil

end Manager

end TxStore.Lock
