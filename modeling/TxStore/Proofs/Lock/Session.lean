import Mathlib.Data.Finset.Card
import TxStore.Lock.Session
import TxStore.Proofs.Lock.Absence

/-!
# Sessions of a lock manager

Whatever a session does to its manager is a call of it. However its clients act and time passes, the
manager of a session is therefore one of those that calls reach (`Session.Reachable.manager`), and
what is proved of all reachable managers holds of it.

A request that has to wait leaves word with the manager. `Session.Attended` is the invariant that
nobody waits without being attended to: who waits is queued, or has been told how its request ended
and stands in line. A turn takes one request out of the line, and those that join it have just been
told (`Attended.resume_lt`). So the line is empty after the turns that `settle` allows, and who
still waits then is queued and listens (`Session.idle_of_settled`).
-/

namespace TxStore.Lock

namespace Manager

variable {timeout : Option Duration} {m m' : Manager} {mine : Ticket → Prop} {n : Ticket}

/-! ## Turns are calls -/

/-- A call that is accepted leads on. -/
theorem Reachable.call (h : Reachable timeout m) (call : Call) (accepted : m.Accepts call) :
    Reachable timeout (m.perform call) :=
  Run.perform h accepted trivial

/-- Looking for an answer is no call, or that a deadline passes. -/
theorem Reachable.poll (h : Reachable timeout m) (now : Duration) (w : Waiting) :
    Reachable timeout (m.poll now w).1 := by
  unfold Manager.poll
  split
  · exact h
  · split
    · exact h.call (.expire w.key w.ticket) trivial
    · exact h

/-- Asking for a key is a request and perhaps a look for its answer. -/
theorem Reachable.acquire (h : Reachable timeout m) (now : Duration) (mode : Mode) (me : Holder)
    (k : Key) : Reachable timeout (m.acquire now mode me k).1 := by
  have hrequest : Reachable timeout (m.request mode me k).1 := h.call (.request mode me k) trivial
  rcases m.acquire_fst now mode me k with heq | ⟨w, heq⟩
  · rw [heq]
    exact hrequest
  · rw [heq]
    exact hrequest.poll now w

/-- The turn of a request is one of these. -/
theorem Reachable.run (h : Reachable timeout m) (now : Duration) (r : Request) :
    Reachable timeout (r.run m now).1 := by
  unfold Request.run
  split
  · rw [stage_of_fst]
    exact h.acquire now r.mode r.holder r.key
  · rename_i w _
    rw [stage_of_fst]
    exact h.poll now w
  · exact h
  · exact h

/-! ## What a session relies on -/

/-- What a session relies on when its manager changes, for the tickets that are not in `mine`: a
queued request stays queued, or its caller is told and is one of those to be woken. -/
structure Heeds (m m' : Manager) (mine : Ticket → Prop) : Prop where
  /-- A word to a caller stays. -/
  tells : ∀ n, m.Tells n → m'.Tells n
  /-- Tickets are handed out in ascending order. -/
  nextTicket : m.nextTicket ≤ m'.nextTicket
  /-- No queued request is lost. -/
  queued : ∀ k, ∀ w ∈ (m.lockOf k).queue, ¬ mine w.ticket →
    w ∈ (m'.lockOf k).queue ∨ m'.Tells w.ticket ∧ w.ticket ∈ m'.endedSince m

/-- A session can rely on it where no caller goes away. -/
theorem Proceeds.heeds (h : m.Proceeds m' mine) (htallied : m.Tallied) : m.Heeds m' mine where
  tells _ := h.follows.tells
  nextTicket := h.nextTicket
  queued k w hw hmine := by
    have huntold : ¬ m.Tells w.ticket := htallied.untold k w.ticket (List.mem_map_of_mem hw)
    rcases h.follows.queued k w hw with htold | ⟨live, hmem, rfl | hgone⟩
    · exact .inr ⟨htold, h.mem_endedSince huntold htold hmine⟩
    · exact .inl hmem
    · cases hgone

/-- When a caller goes away all other requests stay queued. -/
theorem heeds_abandon (m : Manager) (k : Key) (ticket : Ticket) :
    m.Heeds (m.abandon k ticket) (· = ticket) where
  tells n htold := by
    unfold Tells
    rw [resolved_abandon]
    exact htold
  nextTicket := Nat.le_of_eq (nextTicket_visit ..).symm
  queued j w hw hne := by
    rw [lockOf_abandon]
    split
    · rename_i hkj
      subst hkj
      exact .inl (List.mem_map.mpr ⟨w, hw, if_neg hne⟩)
    · exact .inl hw

/-- Who is to be woken has been told since. -/
theorem Tallied.of_mem_endedSince (h : m'.Tallied) (htold : m.resolved <+: m'.resolved)
    (hn : n ∈ m'.endedSince m) : m'.Tells n ∧ ¬ m.Tells n := by
  obtain ⟨r, hr, rfl⟩ := List.mem_map.mp hn
  have hnew := (List.mem_filter.mp hr).1
  refine ⟨List.mem_map_of_mem (List.mem_of_mem_drop hnew), fun hold => ?_⟩
  obtain ⟨later, hlater⟩ := htold
  have honce := h.once
  rw [← hlater, List.drop_left] at hnew
  rw [← hlater, List.map_append] at honce
  exact List.disjoint_of_nodup_append honce hold (List.mem_map_of_mem hnew)

/-- Nobody is woken twice. -/
theorem Tallied.nodup_endedSince (h : m'.Tallied) (m : Manager) : (m'.endedSince m).Nodup :=
  h.once.sublist ((List.filter_sublist.trans (List.drop_sublist ..)).map _)

end Manager

/-- Whether a waiting request is queued for its key, with a caller who listens. -/
def Request.Queued (r : Request) (m : Manager) (w : Waiting) : Prop :=
  w.key = r.key ∧ ⟨r.holder, r.mode, w.ticket, true⟩ ∈ (m.lockOf w.key).queue

/-- No turn puts a request back to where it has not asked. -/
theorem Request.run_ne_issued (r : Request) (m : Manager) (now : Duration) :
    (r.run m now).2 ≠ .issued := by
  have hof : ∀ turn : Manager × Acquisition, (Stage.of turn).2 ≠ .issued := by
    rintro ⟨m, answer | w⟩
    · exact nofun
    · exact nofun
  unfold Request.run
  split
  · exact hof _
  · exact hof _
  · rename_i hstage
    rw [hstage]
    exact nofun
  · rename_i hstage
    rw [hstage]
    exact nofun

/-- Whether a request has no answer to find. -/
def Request.isOpen (r : Request) (m : Manager) : Bool :=
  match r.stage with
  | .issued => true
  | .waiting w => m.resolution? w.ticket = none
  | .answered _ | .cancelled => false

namespace Session

variable {timeout : Option Duration} {s s' : Session} {m : Manager} {i j : Nat} {r : Request}
  {stage : Stage} {mine : Ticket → Prop}

/-! ## What clients do -/

/-- What happens to a session. -/
inductive Action where
  /-- A client issues a request. -/
  | submit (mode : Mode) (holder : Holder) (key : Key)
  /-- A request has its turn. -/
  | resume (i : Nat)
  /-- A client gives up. -/
  | cancel (i : Nat)
  /-- A transaction releases its locks. -/
  | release (txn : TransactionId)
  /-- A released transaction is forgotten. -/
  | forget (txn : TransactionId)
  /-- The line is run. -/
  | settle
  /-- Time passes. -/
  | advance (span : Duration)

/-- The session after an action. -/
def perform (s : Session) : Action → Session
  | .submit mode holder key => s.submit mode holder key
  | .resume i => s.resume i
  | .cancel i => (s.cancel i).2
  | .release txn => s.release txn
  | .forget txn => s.forget txn
  | .settle => s.settle
  | .advance span => s.advance span

/-- The sessions that are reached from a new one by any actions. -/
inductive Reachable (timeout : Option Duration) : Session → Prop where
  /-- A new session. -/
  | new : Reachable timeout (.new timeout)
  /-- One more action. -/
  | perform {s : Session} (run : Reachable timeout s) (action : Action) :
      Reachable timeout (s.perform action)

/-! ## Nobody waits without being attended to -/

/-- Whether a request is attended to where it stands: it is in line, or queued, or it is over. -/
def Stirs (s : Session) (i : Nat) (r : Request) : Prop :=
  match r.stage with
  | .issued => i ∈ s.ready
  | .waiting w => r.Queued s.manager w ∨ s.manager.Tells w.ticket ∧ i ∈ s.ready
  | .answered _ | .cancelled => True

/-- Every request is attended to, under a ticket of its own. -/
structure Attended (s : Session) (timeout : Option Duration) : Prop where
  /-- The manager is reached by calls. -/
  reachable : Manager.Reachable timeout s.manager
  /-- The tickets of the requests were handed out. -/
  given : ∀ (i : Nat) r w, s.requests[i]? = some r → r.stage = .waiting w →
    w.ticket < s.manager.nextTicket
  /-- No two requests have the same ticket. -/
  apart : ∀ (i j : Nat) r r' w w', s.requests[i]? = some r → s.requests[j]? = some r' →
    r.stage = .waiting w → r'.stage = .waiting w' → w.ticket = w'.ticket → i = j
  /-- The requests are attended to. -/
  stirs : ∀ (i : Nat) r, s.requests[i]? = some r → s.Stirs i r

/-- A request stays attended to if it is not taken out of the line. -/
theorem Stirs.mono (h : s.Stirs i r) (hmanager : s'.manager = s.manager)
    (hready : i ∈ s.ready → i ∈ s'.ready) : s'.Stirs i r := by
  unfold Stirs at h ⊢
  rw [hmanager]
  split
  · rename_i hstage
    rw [hstage] at h
    exact hready h
  · rename_i w hstage
    rw [hstage] at h
    exact h.imp id fun htold => ⟨htold.1, hready htold.2⟩
  · trivial
  · trivial

/-- Setting the stage of a request leaves all others alone. -/
theorem getElem?_setStage (hr : s.requests[i]? = some r) (stage : Stage) (j : Nat) :
    (s.setStage i stage).requests[j]? =
      if j = i then some { r with stage := stage } else s.requests[j]? := by
  unfold setStage
  rw [hr]
  dsimp only
  rw [Array.getElem?_setIfInBounds]
  by_cases hji : i = j
  · rw [if_pos hji, if_pos hji.symm, if_pos (Array.getElem?_eq_some_iff.mp hr).1]
  · rw [if_neg hji, if_neg (Ne.symm hji)]

/-- The manager stays meanwhile. -/
@[simp] theorem manager_setStage (s : Session) (i : Nat) (stage : Stage) :
    (s.setStage i stage).manager = s.manager := by
  unfold setStage
  split <;> rfl

/-- So does the line. -/
@[simp] theorem ready_setStage (s : Session) (i : Nat) (stage : Stage) :
    (s.setStage i stage).ready = s.ready := by
  unfold setStage
  split <;> rfl

/-- Whoever is put in line stands there. -/
theorem mem_ready_wake {woken : List Nat} (h : i ∈ woken) : i ∈ (s.wake woken).ready := by
  by_cases hready : i ∈ s.ready
  · exact List.mem_append_left _ hready
  · exact List.mem_append_right _ (List.mem_filter.mpr ⟨h, decide_eq_true hready⟩)

namespace Attended

/-- The tickets stand apart. -/
theorem tallied (h : s.Attended timeout) : s.manager.Tallied :=
  Manager.Run.tallied h.reachable

/-- The locks and their index agree. -/
theorem consistent (h : s.Attended timeout) : s.manager.Consistent :=
  Manager.Run.consistent h.reachable

/-- A new session has no requests. -/
theorem new (timeout : Option Duration) : (Session.new timeout).Attended timeout where
  reachable := .new
  given _ _ _ hr := by cases hr
  apart _ _ _ _ _ _ hr := by cases hr
  stirs _ _ hr := by cases hr

/-- Requests may be put in line. -/
theorem wake (h : s.Attended timeout) (woken : List Nat) : (s.wake woken).Attended timeout where
  reachable := h.reachable
  given := h.given
  apart := h.apart
  stirs i r hr := (h.stirs i r hr).mono rfl fun hready => List.mem_append_left _ hready

/-- The present may move on. -/
theorem reach (h : s.Attended timeout) (instant : Duration) : (s.reach instant).Attended timeout :=
  ⟨h.reachable, h.given, h.apart, h.stirs⟩

/-- A new request is in line. -/
theorem submit (h : s.Attended timeout) (mode : Mode) (holder : Holder) (key : Key) :
    (s.submit mode holder key).Attended timeout := by
  have hcases : ∀ {i : Nat} {r : Request}, (s.submit mode holder key).requests[i]? = some r →
      i = s.requests.size ∧ r.stage = .issued ∨ s.requests[i]? = some r := by
    intro i r hr
    have hr := Array.getElem?_push.symm.trans hr
    split at hr
    · rename_i hi
      cases hr
      exact .inl ⟨hi, rfl⟩
    · exact .inr hr
  have hold : ∀ {i : Nat} {r : Request} {w : Waiting},
      (s.submit mode holder key).requests[i]? = some r → r.stage = .waiting w →
        s.requests[i]? = some r := by
    intro i r w hr hw
    rcases hcases hr with ⟨-, hissued⟩ | hr
    · rw [hissued] at hw
      cases hw
    · exact hr
  refine ⟨h.reachable, fun i r w hr hw => h.given i r w (hold hr hw) hw,
    fun i j r r' w w' hr hr' hw hw' => h.apart i j r r' w w' (hold hr hw) (hold hr' hw') hw hw',
    fun i r hr => ?_⟩
  rcases hcases hr with ⟨rfl, hissued⟩ | hr
  · unfold Stirs
    rw [hissued]
    exact mem_ready_wake List.mem_cons_self
  · exact (h.stirs i r hr).mono rfl fun hready => List.mem_append_left _ hready

/-- A request is found by its ticket, also while another one that has a ticket of its own has its
turn. -/
theorem findIdx?_eq {requests : Array Request} {w : Waiting} (hr : requests[j]? = some r)
    (hw : r.stage = .waiting w)
    (hapart : ∀ (k : Nat) r' w', requests[k]? = some r' → r'.stage = .waiting w' →
      w'.ticket = w.ticket → k = j) :
    requests.findIdx? (fun r => r.waitsOn w.ticket) = some j := by
  obtain ⟨hlt, hget⟩ := Array.getElem?_eq_some_iff.mp hr
  refine Array.findIdx?_eq_some_iff_getElem.mpr ⟨hlt, ?_, fun k hk hwaits => ?_⟩
  · rw [hget]
    exact r.waitsOn_iff.mpr ⟨w, hw, rfl⟩
  · obtain ⟨w', hw', hticket⟩ := (Request.waitsOn_iff _).mp hwaits
    have hkj := hapart k _ w' (Array.getElem?_eq_getElem (Nat.lt_trans hk hlt)) hw' hticket
    exact absurd hkj (Nat.ne_of_lt hk)

/-- A changed manager may be taken over. The request in hand, if there is one, has put down its
stage before; if it waits then, it is queued under a ticket of its own. -/
theorem withManager (h : s.Attended timeout) (hand : Option Nat)
    (hmanager : s'.manager = s.manager)
    (hold : ∀ (j : Nat) r, some j ≠ hand → s'.requests[j]? = some r → s.requests[j]? = some r)
    (hready : ∀ j, some j ≠ hand → j ∈ s.ready → j ∈ s'.ready)
    (hreachable : Manager.Reachable timeout m) (hheeds : s.manager.Heeds m mine)
    (hmine : ∀ (j : Nat) r w, some j ≠ hand → s.requests[j]? = some r → r.stage = .waiting w →
      ¬ mine w.ticket)
    (hissued : ∀ (i : Nat) r, some i = hand → s'.requests[i]? = some r → r.stage ≠ .issued)
    (hwaiting : ∀ (i : Nat) r w, some i = hand → s'.requests[i]? = some r → r.stage = .waiting w →
      r.Queued m w ∧ ∀ (j : Nat) r' w', some j ≠ hand → s.requests[j]? = some r' →
        r'.stage = .waiting w' → w'.ticket ≠ w.ticket) :
    (s'.withManager m).Attended timeout := by
  have hapart : ∀ (i j : Nat) r r' w w', s'.requests[i]? = some r → s'.requests[j]? = some r' →
      r.stage = .waiting w → r'.stage = .waiting w' → w.ticket = w'.ticket → i = j := by
    intro i j r r' w w' hr hr' hw hw' heq
    by_cases hi : some i = hand
    · by_cases hj : some j = hand
      · exact Option.some.inj (hi.trans hj.symm)
      · exact absurd heq.symm ((hwaiting i r w hi hr hw).2 j r' w' hj (hold j r' hj hr') hw')
    · by_cases hj : some j = hand
      · exact absurd heq ((hwaiting j r' w' hj hr' hw').2 i r w hi (hold i r hi hr) hw)
      · exact h.apart i j r r' w w' (hold i r hi hr) (hold j r' hj hr') hw hw' heq
  refine ⟨hreachable, fun i r w hr hw => ?_, hapart, fun i r hr => ?_⟩
  · by_cases hi : some i = hand
    · have hqueued := (hwaiting i r w hi hr hw).1.2
      exact (Manager.Run.tallied hreachable).ticketed.queued w.key _ hqueued
    · exact Nat.lt_of_lt_of_le (h.given i r w (hold i r hi hr) hw) hheeds.nextTicket
  · by_cases hi : some i = hand
    · unfold Stirs
      split
      · rename_i hstage
        exact absurd hstage (hissued i r hi hr)
      · rename_i w hw
        exact .inl (hwaiting i r w hi hr hw).1
      · trivial
      · trivial
    · have hstirs := h.stirs i r (hold i r hi hr)
      unfold Stirs at hstirs ⊢
      split
      · rename_i hstage
        rw [hstage] at hstirs
        exact List.mem_append_left _ (hready i hi hstirs)
      · rename_i w hw
        rw [hw] at hstirs
        rcases hstirs with ⟨hkey, hqueued⟩ | ⟨htold, hline⟩
        · rcases hheeds.queued w.key _ hqueued (hmine i r w hi (hold i r hi hr) hw) with
            hqueued | ⟨htold, hended⟩
          · exact .inl ⟨hkey, hqueued⟩
          · -- The caller has just been told, and is found by its ticket.
            refine .inr ⟨htold, mem_ready_wake (List.mem_filterMap.mpr ⟨w.ticket, ?_, ?_⟩)⟩
            · rw [hmanager]
              exact hended
            · exact findIdx?_eq hr hw fun k r' w' hr' hw' heq =>
                hapart k i r' r w' w hr' hr hw' hw heq
        · exact .inr ⟨hheeds.tells _ htold, List.mem_append_left _ (hready i hi hline)⟩
      · trivial
      · trivial

/-- So it may where no request is in hand. -/
theorem calls (h : s.Attended timeout) (hreachable : Manager.Reachable timeout m)
    (hheeds : s.manager.Heeds m mine)
    (hmine : ∀ (j : Nat) r w, s.requests[j]? = some r → r.stage = .waiting w → ¬ mine w.ticket) :
    (s.withManager m).Attended timeout :=
  h.withManager none rfl (fun _ _ _ => id) (fun _ _ => id) hreachable hheeds
    (fun j r w _ => hmine j r w) nofun nofun

/-- A transaction may release its locks. -/
theorem release (h : s.Attended timeout) (txn : TransactionId) : (s.release txn).Attended timeout :=
  have hheeds : s.manager.Heeds (s.manager.release txn) fun _ => False :=
    (h.tallied.proceeds_release h.consistent txn).heeds h.tallied
  h.calls (h.reachable.call (.release txn (s.manager.keysOf txn)) (.refl _)) hheeds
    fun _ _ _ _ _ => id

/-- A released transaction may be forgotten. -/
theorem forget (h : s.Attended timeout) (txn : TransactionId) : (s.forget txn).Attended timeout :=
  have hheeds : s.manager.Heeds (s.manager.forget txn) fun _ => False :=
    (h.tallied.proceeds_forget h.consistent txn).heeds h.tallied
  h.calls (h.reachable.call (.forget txn) trivial) hheeds fun _ _ _ _ _ => id

/-- The caller of a request may go away. -/
theorem setStage_cancelled (h : s.Attended timeout) (hr : s.requests[i]? = some r) :
    (s.setStage i .cancelled).Attended timeout := by
  have hcases : ∀ {j : Nat} {r' : Request}, (s.setStage i .cancelled).requests[j]? = some r' →
      r'.stage = .cancelled ∨ s.requests[j]? = some r' := by
    intro j r' hr'
    rw [getElem?_setStage hr] at hr'
    split at hr'
    · cases hr'
      exact .inl rfl
    · exact .inr hr'
  have hold : ∀ {j : Nat} {r' : Request} {w : Waiting},
      (s.setStage i .cancelled).requests[j]? = some r' → r'.stage = .waiting w →
        s.requests[j]? = some r' := by
    intro j r' w hr' hw
    refine (hcases hr').resolve_left fun hcancelled => ?_
    rw [hcancelled] at hw
    cases hw
  refine ⟨?_, fun j r' w hr' hw => ?_,
    fun j k r₁ r₂ w₁ w₂ hr₁ hr₂ hw₁ hw₂ => h.apart j k r₁ r₂ w₁ w₂ (hold hr₁ hw₁) (hold hr₂ hw₂)
      hw₁ hw₂, fun j r' hr' => ?_⟩
  · rw [manager_setStage]
    exact h.reachable
  · rw [manager_setStage]
    exact h.given j r' w (hold hr' hw) hw
  · rcases hcases hr' with hcancelled | hr'
    · unfold Stirs
      rw [hcancelled]
      trivial
    · refine (h.stirs j r' hr').mono (manager_setStage ..) fun hready => ?_
      rw [ready_setStage]
      exact hready

/-- A client may give up. -/
theorem cancel (h : s.Attended timeout) (i : Nat) : (s.cancel i).2.Attended timeout := by
  unfold Session.cancel
  split
  · exact h
  · rename_i r hr
    have hcancelled := h.setStage_cancelled hr
    split
    · exact hcancelled
    · rename_i w hw
      have hreachable : Manager.Reachable timeout (s.manager.abandon w.key w.ticket) :=
        h.reachable.call (.abandon w.key w.ticket) trivial
      have hheeds : (s.setStage i .cancelled).manager.Heeds
          (s.manager.abandon w.key w.ticket) (· = w.ticket) := by
        rw [manager_setStage]
        exact s.manager.heeds_abandon w.key w.ticket
      refine hcancelled.calls hreachable hheeds fun j r' w' hr' hw' heq => ?_
      -- Whoever waits under this ticket is the request itself, which does not wait any more.
      rw [getElem?_setStage hr] at hr'
      split at hr'
      · cases hr'
        cases hw'
      · rename_i hne
        exact hne (h.apart j i r' r w' w hr' hr hw' hw heq)
    · exact h
    · exact h

/-- A turn of a request leads on. -/
theorem resume (h : s.Attended timeout) (i : Nat) : (s.resume i).Attended timeout := by
  have hready : ∀ j, some j ≠ some i → j ∈ s.ready → j ∈ s.ready.erase i := fun j hne hmem =>
    (List.mem_erase_of_ne fun heq => hne (congrArg some heq)).mpr hmem
  unfold Session.resume
  dsimp only
  split
  · rename_i hnone
    refine ⟨h.reachable, h.given, h.apart, fun j r hr => (h.stirs j r hr).mono rfl fun hmem => ?_⟩
    refine hready j (fun heq => ?_) hmem
    cases heq
    cases hnone.symm.trans hr
  · rename_i r hr
    have hr : s.requests[i]? = some r := hr
    have hproceeds := h.tallied.proceeds_run h.consistent s.now r
    have hreachable := h.reachable.run s.now r
    have hset := getElem?_setStage (s := { s with ready := s.ready.erase i }) hr
    have hrun_ne := r.run_ne_issued s.manager s.now
    rcases hrun : r.run s.manager s.now with ⟨m, stage⟩
    rw [hrun] at hproceeds hreachable hrun_ne
    refine h.withManager (some i) (manager_setStage ..) (fun j r' hne hr' => ?_)
      (fun j hne hmem => ?_) hreachable (hproceeds.heeds h.tallied)
      (fun j r' w hne hr' hw hmine => ?_) (fun j r' heq hr' => ?_) (fun j r' w heq hr' hw => ?_)
    · rwa [hset, if_neg fun heq => hne (congrArg some heq)] at hr'
    · rw [ready_setStage]
      exact hready j hne hmem
    · rcases hmine with hnext | hwaits
      · exact Nat.lt_irrefl _ (hnext ▸ h.given j r' w hr' hw)
      · obtain ⟨w', hw', hticket⟩ := r.waitsOn_iff.mp hwaits
        exact hne (congrArg some (h.apart j i r' r w w' hr' hr hw hw' hticket.symm))
    · cases heq
      rw [hset, if_pos rfl] at hr'
      cases hr'
      exact hrun_ne
    · cases heq
      rw [hset, if_pos rfl] at hr'
      cases hr'
      obtain rfl : stage = .waiting w := hw
      rcases Manager.run_parked hrun with ⟨-, hparked⟩ | ⟨hstage, rfl, hnone⟩
      · -- It has just been given the next ticket.
        refine ⟨⟨hparked.key, ?_⟩, fun j r' w' _ hr' hw' heq => ?_⟩
        · rw [hparked.key]
          exact hparked.queued
        · exact Nat.ne_of_lt (h.given j r' w' hr' hw') (heq.trans hparked.ticket)
      · -- It waits on, and has been told nothing.
        have hstirs := h.stirs i r hr
        unfold Stirs at hstirs
        rw [hstage] at hstirs
        refine ⟨hstirs.resolve_right fun htold => Manager.not_tells hnone htold.1,
          fun j r' w' hne hr' hw' heq => hne (congrArg some ?_)⟩
        exact h.apart j i r' r w' w hr' hr hw' hstage heq

/-- So do turns in any number. -/
theorem settleWithin (h : s.Attended timeout) (fuel : Nat) :
    (settleWithin fuel s).Attended timeout := by
  induction fuel generalizing s with
  | zero => exact h
  | succ fuel ih =>
    unfold Session.settleWithin
    split
    · exact h
    · exact ih (h.resume _)

/-- The line may be run. -/
theorem settle (h : s.Attended timeout) : s.settle.Attended timeout :=
  h.settleWithin _

/-- Deadlines may pass. -/
theorem passDeadlines (h : s.Attended timeout) (fuel : Nat) (limit : Duration) :
    (passDeadlines fuel limit s).Attended timeout := by
  induction fuel generalizing s with
  | zero => exact h
  | succ fuel ih =>
    unfold Session.passDeadlines
    split
    · exact h
    · exact ih ((h.reach _).wake _).settle

/-- Time may pass. -/
theorem advance (h : s.Attended timeout) (span : Duration) : (s.advance span).Attended timeout :=
  (h.settle.passDeadlines _ _).reach _

/-- Every action leads on. -/
theorem perform (h : s.Attended timeout) (action : Action) :
    (s.perform action).Attended timeout := by
  cases action with
  | submit mode holder key => exact h.submit mode holder key
  | resume i => exact h.resume i
  | cancel i => exact h.cancel i
  | release txn => exact h.release txn
  | forget txn => exact h.forget txn
  | settle => exact h.settle
  | advance span => exact h.advance span

end Attended

/-- In every session that is reached every request is attended to. -/
theorem Reachable.attended (h : Reachable timeout s) : s.Attended timeout := by
  induction h with
  | new => exact .new timeout
  | perform _ action ih => exact ih.perform action

/-- The manager of every session that is reached is reached by calls. -/
theorem Reachable.manager (h : Reachable timeout s) : Manager.Reachable timeout s.manager :=
  h.attended.reachable

/-! ## The line becomes empty -/

/-- The requests that have no answer to find. -/
def unanswered (s : Session) : Finset Nat :=
  (Finset.range s.requests.size).filter fun i => s.requests[i]?.any fun r => r.isOpen s.manager

/-- These are among the requests of the session. -/
theorem mem_unanswered : i ∈ s.unanswered ↔ ∃ r, s.requests[i]? = some r ∧ r.isOpen s.manager := by
  unfold unanswered
  rw [Finset.mem_filter, Finset.mem_range]
  constructor
  · rintro ⟨hlt, hopen⟩
    rw [Array.getElem?_eq_getElem hlt] at hopen ⊢
    exact ⟨_, rfl, hopen⟩
  · rintro ⟨r, hr, hopen⟩
    rw [hr]
    exact ⟨(Array.getElem?_eq_some_iff.mp hr).1, hopen⟩

/-- There are no more of them than requests. -/
theorem card_unanswered_le (s : Session) : s.unanswered.card ≤ s.requests.size :=
  (Finset.card_filter_le ..).trans (Finset.card_range _).le

/-- The requests that are woken when a changed manager is taken over. -/
def woken (s : Session) (m : Manager) : List Nat :=
  (m.endedSince s.manager).filterMap fun ticket => s.requests.findIdx? fun r => r.waitsOn ticket

/-- The request that is found by a ticket waits under it. -/
theorem waiting_of_found {ticket : Ticket}
    (hfind : s.requests.findIdx? (fun r => r.waitsOn ticket) = some i) :
    ∃ r w, s.requests[i]? = some r ∧ r.stage = .waiting w ∧ w.ticket = ticket := by
  obtain ⟨hlt, hwaits, -⟩ := Array.findIdx?_eq_some_iff_getElem.mp hfind
  obtain ⟨w, hw, hticket⟩ := (Request.waitsOn_iff _).mp hwaits
  exact ⟨_, w, Array.getElem?_eq_getElem hlt, hw, hticket⟩

/-- No request is woken twice. -/
theorem nodup_woken (h : m.Tallied) (s : Session) : (s.woken m).Nodup := by
  refine (h.nodup_endedSince s.manager).filterMap fun n n' i hn hn' => ?_
  obtain ⟨r, w, hr, hw, rfl⟩ := waiting_of_found hn
  obtain ⟨r', w', hr', hw', rfl⟩ := waiting_of_found hn'
  cases hr.symm.trans hr'
  cases hw.symm.trans hw'
  rfl

/-- Those who are woken had no answer to find before, and have one now. -/
theorem card_withManager (htallied : m.Tallied) (htold : s.manager.resolved <+: m.resolved) :
    (s.woken m).length + (s.withManager m).unanswered.card ≤ s.unanswered.card := by
  -- An answer is never taken back, so that who has none now had none before.
  have hnone : ∀ {n : Ticket}, m.resolution? n = none → s.manager.resolution? n = none := by
    intro n hnone
    rw [Manager.resolution?_eq_none] at hnone ⊢
    exact fun wake hmem => hnone wake (htold.subset hmem)
  have hsubset : (s.withManager m).unanswered ⊆ s.unanswered := by
    intro i hi
    obtain ⟨r, hr, hopen⟩ := mem_unanswered.mp hi
    refine mem_unanswered.mpr ⟨r, hr, ?_⟩
    unfold Request.isOpen at hopen ⊢
    split
    · rfl
    · rename_i w hw
      rw [hw] at hopen
      exact decide_eq_true (hnone (of_decide_eq_true hopen))
    · rename_i hw
      rw [hw] at hopen
      exact hopen
    · rename_i hw
      rw [hw] at hopen
      exact hopen
  -- Those who are woken leave the set: their word is among the ones that are new.
  have hwoken : ∀ i ∈ s.woken m, i ∈ s.unanswered ∧ i ∉ (s.withManager m).unanswered := by
    intro i hi
    obtain ⟨n, hn, hfind⟩ := List.mem_filterMap.mp hi
    obtain ⟨r, w, hr, hw, rfl⟩ := waiting_of_found hfind
    obtain ⟨htells, huntold⟩ := htallied.of_mem_endedSince htold hn
    constructor
    · refine mem_unanswered.mpr ⟨r, hr, ?_⟩
      unfold Request.isOpen
      rw [hw]
      refine decide_eq_true (Manager.resolution?_eq_none.mpr fun wake hmem => huntold ?_)
      exact List.mem_map_of_mem hmem
    · intro hmem
      obtain ⟨r', hr', hopen⟩ := mem_unanswered.mp hmem
      cases hr.symm.trans hr'
      unfold Request.isOpen at hopen
      rw [hw] at hopen
      exact Manager.not_tells (of_decide_eq_true hopen) htells
  have hwithin : (s.woken m).toFinset ∪ (s.withManager m).unanswered ⊆ s.unanswered :=
    Finset.union_subset (fun i hi => (hwoken i (List.mem_toFinset.mp hi)).1) hsubset
  have hdisjoint : Disjoint (s.woken m).toFinset (s.withManager m).unanswered :=
    Finset.disjoint_left.mpr fun i hi => (hwoken i (List.mem_toFinset.mp hi)).2
  -- Nobody is woken twice, and so the line grows by no more than the set shrinks.
  calc (s.woken m).length + (s.withManager m).unanswered.card
      = (s.woken m).toFinset.card + (s.withManager m).unanswered.card := by
        rw [List.toFinset_card_of_nodup (nodup_woken htallied s)]
    _ = ((s.woken m).toFinset ∪ (s.withManager m).unanswered).card :=
        (Finset.card_union_of_disjoint hdisjoint).symm
    _ ≤ s.unanswered.card := Finset.card_le_card hwithin

/-- A request that has its turn had no answer to find before if it has none afterwards. -/
theorem unanswered_setStage {now : Duration} (hr : s.requests[i]? = some r)
    (hrun : r.run s.manager now = (m, stage)) :
    (s.setStage i stage).unanswered ⊆ s.unanswered := by
  intro j hj
  obtain ⟨r', hr', hopen⟩ := mem_unanswered.mp hj
  rw [getElem?_setStage hr] at hr'
  split at hr'
  · rename_i heq
    subst heq
    cases hr'
    refine mem_unanswered.mpr ⟨r, hr, ?_⟩
    unfold Request.isOpen at hopen ⊢
    cases stage with
    | issued => exact absurd (congrArg Prod.snd hrun) (r.run_ne_issued s.manager now)
    | waiting w =>
      rcases Manager.run_parked hrun with ⟨hstage, -⟩ | ⟨hstage, -, hnone⟩
      · rw [hstage]
      · rw [hstage]
        exact decide_eq_true hnone
    | answered answer => cases hopen
    | cancelled => cases hopen
  · rw [manager_setStage] at hopen
    exact mem_unanswered.mpr ⟨r', hr', hopen⟩

/-- Every turn takes one request out of the line, and those who join it have just got an answer to
find. -/
theorem Attended.resume_lt {rest : List Nat} (h : s.Attended timeout)
    (hready : s.ready = i :: rest) :
    (s.resume i).ready.length + (s.resume i).unanswered.card <
      s.ready.length + s.unanswered.card := by
  have herase : s.ready.erase i = rest := by
    rw [hready]
    exact List.erase_cons_head i rest
  unfold Session.resume
  dsimp only
  rw [herase, hready, List.length_cons]
  split
  · exact Nat.add_lt_add_right (Nat.lt_succ_self _) _
  · rename_i r hr
    have hr : s.requests[i]? = some r := hr
    have hproceeds := h.tallied.proceeds_run h.consistent s.now r
    rcases hrun : r.run s.manager s.now with ⟨m, stage⟩
    rw [hrun] at hproceeds
    have hset := Finset.card_le_card (unanswered_setStage (s := { s with ready := rest }) hr hrun)
    generalize hs' : ({ s with ready := rest } : Session).setStage i stage = s' at hset ⊢
    have hmanager : s'.manager = s.manager := hs' ▸ manager_setStage ..
    have hline : s'.ready = rest := hs' ▸ ready_setStage ..
    have hcard : (s'.woken m).length + (s'.withManager m).unanswered.card ≤ s'.unanswered.card :=
      card_withManager hproceeds.tallied (hmanager ▸ hproceeds.follows.told)
    have hlength : (s'.withManager m).ready.length ≤ rest.length + (s'.woken m).length := by
      show (s'.ready ++ (s'.woken m).filter _).length ≤ _
      rw [List.length_append, hline]
      exact Nat.add_le_add_left (List.length_filter_le ..) _
    calc (s'.withManager m).ready.length + (s'.withManager m).unanswered.card
        ≤ rest.length + (s'.woken m).length + (s'.withManager m).unanswered.card :=
          Nat.add_le_add_right hlength _
      _ = rest.length + ((s'.woken m).length + (s'.withManager m).unanswered.card) :=
          Nat.add_assoc ..
      _ ≤ rest.length + s'.unanswered.card := Nat.add_le_add_left hcard _
      _ ≤ rest.length + s.unanswered.card := Nat.add_le_add_left hset _
      _ < rest.length + 1 + s.unanswered.card := by omega

/-- The line is empty after as many turns as there are requests in it or without an answer to find.
-/
theorem Attended.ready_settleWithin (h : s.Attended timeout) {fuel : Nat}
    (hfuel : s.ready.length + s.unanswered.card ≤ fuel) :
    (Session.settleWithin fuel s).ready = [] := by
  induction fuel generalizing s with
  | zero => exact List.length_eq_zero_iff.mp (by unfold Session.settleWithin; omega)
  | succ fuel ih =>
    unfold Session.settleWithin
    split
    · rename_i hready
      exact hready
    · rename_i i rest hready
      have hlt := h.resume_lt hready
      exact ih (h.resume i) (by omega)

/-- The line is empty when it has been run. -/
theorem Attended.ready_settle (h : s.Attended timeout) : s.settle.ready = [] :=
  h.ready_settleWithin (Nat.add_le_add_left s.card_unanswered_le _)

/-- The line is empty when time has passed. -/
theorem Attended.ready_advance (h : s.Attended timeout) (span : Duration) :
    (s.advance span).ready = [] := by
  have hpass : ∀ fuel limit (s : Session), s.Attended timeout → s.ready = [] →
      (Session.passDeadlines fuel limit s).ready = [] := by
    intro fuel limit
    induction fuel with
    | zero => exact fun _ _ hready => hready
    | succ fuel ih =>
      intro s h hready
      unfold Session.passDeadlines
      split
      · exact hready
      · rename_i instant _
        have hwoken := (h.reach instant).wake (Deadline.callersAt instant s.deadlines)
        exact ih _ hwoken.settle hwoken.ready_settle
  exact hpass _ _ _ h.settle h.ready_settle

/-- Whether nobody can go on before something happens: every request has its answer or is given up,
or it is queued for its key, under a ticket that has not ended and with a caller who listens. -/
structure Idle (s : Session) : Prop where
  /-- Nobody stands in line. -/
  ready : s.ready = []
  /-- Whoever has no answer is queued. -/
  queued : ∀ (i : Nat) r, s.requests[i]? = some r →
    (∃ answer, r.stage = .answered answer) ∨ r.stage = .cancelled ∨
      ∃ w, r.stage = .waiting w ∧ r.Queued s.manager w ∧ ¬ s.manager.Tells w.ticket

/-- A session is idle when its line is empty. -/
theorem Attended.idle (h : s.Attended timeout) (hready : s.ready = []) : s.Idle := by
  refine ⟨hready, fun i r hr => ?_⟩
  have hstirs := h.stirs i r hr
  unfold Stirs at hstirs
  rw [hready] at hstirs
  cases hstage : r.stage with
  | issued =>
    rw [hstage] at hstirs
    cases hstirs
  | waiting w =>
    rw [hstage] at hstirs
    have hqueued := hstirs.resolve_right fun htold => List.not_mem_nil htold.2
    exact .inr (.inr ⟨w, rfl, hqueued,
      h.tallied.untold w.key w.ticket (List.mem_map_of_mem hqueued.2)⟩)
  | answered answer => exact .inl ⟨answer, rfl⟩
  | cancelled => exact .inr (.inl rfl)

/-- After any actions a session is idle once its line has been run, and whenever time has passed. -/
theorem idle_of_settled (h : Reachable timeout s) :
    s.settle.Idle ∧ ∀ span, (s.advance span).Idle :=
  ⟨h.attended.settle.idle h.attended.ready_settle,
    fun span => (h.attended.advance span).idle (h.attended.ready_advance span)⟩

end Session

end TxStore.Lock
