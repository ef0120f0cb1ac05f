import TxStore.Proofs.Lock.Heads
import TxStore.Proofs.Lock.Outcomes

/-!
# Requests for a key that is held already

A request for a key that its transaction already has, in the same or a stronger mode, is granted at
once and changes no lock. But a transaction may have several requests outstanding, and one of them
may be given the key while another one is parked for it. The parked one is not told: serving a queue
stops at the first request that has to keep waiting, and those behind it are not judged anew. The
request ahead of it then waits for a transaction that waits for its own request.

`redundant_iff` shows that this is the only way to wait for a key in vain: a parked request asks for
what its transaction has exactly if the key was granted to that transaction, by another of its
requests, while the request was parked. The head of a queue never does, nor does any request of
clients that ask for a key only if they have no request parked for it (`Run.not_redundant`).
-/

namespace TxStore.Lock

variable {released : List TransactionId} {t u : TransactionId} {mode mode' : Mode} {me : Holder}

/-- Whether having a key in a mode is having it in `other`. -/
def Mode.Covers (mode other : Mode) : Prop :=
  mode = .write ∨ other = .read

namespace Holders

variable {s : Holders}

/-- Whoever has a key has it in the weaker modes. -/
theorem holds_of_covers (h : s.holds t mode) (hcovers : mode.Covers mode') : s.holds t mode' := by
  cases mode' with
  | read =>
    cases mode with
    | read => exact h
    | write => exact holds_read_iff.mpr (.inl (holds_write_iff.mp h))
  | write =>
    obtain rfl : mode = .write := hcovers.resolve_right nofun
    exact h

/-- Entering gives a key to nobody but the requester, and in no stronger mode than it asked for. -/
theorem covers_of_holds_enter (h : (s.enter me mode').holds t mode) :
    s.holds t mode ∨ me.txn = t ∧ mode'.Covers mode := by
  cases mode with
  | read => exact (holds_of_holds_enter h).imp id fun heq => ⟨heq.symm, .inr rfl⟩
  | write =>
    rw [holds_write_iff] at h ⊢
    unfold enter at h
    split at h
    · exact .inl h
    · cases mode' with
      | read =>
        -- A reader who is let in does not become the writer.
        dsimp only at h
        split at h
        · exact .inl h
        · exact .inl h
      | write =>
        obtain ⟨w, hw, rfl⟩ := writes_iff.mp h
        cases hw
        exact .inr ⟨rfl, .inl rfl⟩

/-- A request for what is held already is granted. -/
theorem judge_of_holds (h : s.holds me.txn mode) : s.judge released me mode = .grant := by
  unfold judge
  rw [if_pos h]

/-- Entering a requester that holds the key already changes nothing. -/
theorem enter_of_holds (h : s.holds me.txn mode) : s.enter me mode = s := by
  unfold enter
  split
  · rfl
  · rename_i hwrites
    cases mode with
    | read => rw [if_pos ((holds_read_iff.mp h).resolve_left hwrites)]
    | write => exact absurd (holds_write_iff.mp h) hwrites

end Holders

namespace KeyLock

variable {s : Holders} {q : List Waiter} {l : KeyLock}

/-- Whether one of the waiters is told that it has been granted the key, and with that `t` has it in
`mode`. -/
def Wins (q : List Waiter) (words : List Resolution) (t : TransactionId) (mode : Mode) : Prop :=
  ∃ v ∈ q, v.holder.txn = t ∧ v.mode.Covers mode ∧ (v.ticket, .granted) ∈ words

/-- Among more waiters, and more words, there are as many winners. -/
theorem Wins.mono {q' : List Waiter} {words words' : List Resolution} (h : Wins q words t mode)
    (hq : q ⊆ q') (hwords : words ⊆ words') : Wins q' words' t mode := by
  obtain ⟨v, hv, htxn, hcovers, htold⟩ := h
  exact ⟨v, hq hv, htxn, hcovers, hwords htold⟩

/-- Whoever has the key after the queue has been served had it before, or is told so. -/
theorem wins_of_holds_serveFrom (hs : (KeyLock.mk s q).Sound released)
    (h : (serveFrom released s q).1.holders.holds t mode) :
    s.holds t mode ∨ Wins q (serveFrom released s q).2 t mode := by
  induction q generalizing s with
  | nil => exact .inl h
  | cons w rest ih =>
    have hrest : (KeyLock.mk s rest).Sound released := ⟨hs.exclusive, hs.unreleased⟩
    unfold serveFrom at h ⊢
    by_cases hw : w.holder.txn ∈ released
    · rw [if_pos hw] at h ⊢
      exact (ih hrest h).imp id fun hwins =>
        hwins.mono (List.subset_cons_self ..) (List.subset_cons_self ..)
    · rw [if_neg hw] at h ⊢
      cases hjudge : s.judge released w.holder w.mode with
      | wait =>
        rw [hjudge] at h
        exact .inl h
      | conflict =>
        rw [hjudge] at h
        exact (ih hrest h).imp id fun hwins =>
          hwins.mono (List.subset_cons_self ..) (List.subset_cons_self ..)
      | grant =>
        rw [hjudge] at h
        dsimp only at h ⊢
        rw [granted_holders hs.unreleased hjudge] at h ⊢
        cases hlive : w.live with
        | false =>
          simp only [hlive, Bool.false_eq_true, if_false] at h ⊢
          exact (ih hrest h).imp id fun hwins =>
            hwins.mono (List.subset_cons_self ..) (List.subset_cons_self ..)
        | true =>
          have hentered : (KeyLock.mk (s.enter w.holder w.mode) rest).Sound released :=
            ⟨hs.exclusive.enter hs.unreleased hjudge, unreleased_enter hs.unreleased hw⟩
          simp only [hlive, if_true] at h ⊢
          rcases ih hentered h with hholds | hwins
          · -- The head itself may be the one that has been let in.
            rcases Holders.covers_of_holds_enter hholds with hheld | hwon
            · exact .inl hheld
            · have htold : w.resolution .granted = (w.ticket, .granted) := by
                simp [Waiter.resolution, hlive]
              exact .inr ⟨w, List.mem_cons_self, hwon.1, hwon.2, htold ▸ List.mem_cons_self⟩
          · exact .inr (hwins.mono (List.subset_cons_self ..) (List.subset_cons_self ..))

/-- Whoever has the key after a release had it before, or is told so. -/
theorem wins_of_holds_release (hs : l.holders.Exclusive)
    (hr : ∀ v, l.Involves v → v ≠ u → v ∉ released)
    (h : (l.release u released).1.holders.holds t mode) :
    l.holders.holds t mode ∨ Wins l.queue (l.release u released).2 t mode := by
  rcases wins_of_holds_serveFrom (sound_without hs hr) h with h | h
  · exact .inl (Holders.holds_drop.mp h).1
  · exact .inr (h.mono List.filter_sublist.subset (List.subset_append_right ..))

/-- Whoever has the key after a deadline had it before, or is told so. -/
theorem wins_of_holds_expire {ticket : Ticket} (hs : l.Sound released)
    (h : (l.expire ticket released).1.holders.holds t mode) :
    l.holders.holds t mode ∨ Wins l.queue (l.expire ticket released).2 t mode := by
  unfold expire at h ⊢
  split at h
  · rename_i hqueued
    rw [if_pos hqueued]
    refine (wins_of_holds_serveFrom (q := l.queue.filter fun w => w.ticket ≠ ticket)
      ⟨hs.exclusive, hs.unreleased⟩ h).imp id fun hwins => ?_
    exact hwins.mono List.filter_sublist.subset (List.subset_cons_self ..)
  · exact .inl h

end KeyLock

namespace Manager

variable {m : Manager} {k : Key} {w : Waiter} {call : Call} {calls : List Call}

/-- Whether a request is parked for a key, with or without its caller. -/
def Parks (m : Manager) (k : Key) (w : Waiter) : Prop :=
  ∃ live, { w with live := live } ∈ (m.lockOf k).queue

/-- Whether a call gives a key to `t` in `mode` or a stronger one: it is a request of `t` that is
granted at once, or a parked request of `t` is told that it is granted. -/
def Grants (m : Manager) (call : Call) (k : Key) (t : TransactionId) (mode : Mode) : Prop :=
  (∃ mode' me, call = .request mode' me k ∧ me.txn = t ∧ mode'.Covers mode ∧
    (m.request mode' me k).2 = .granted) ∨
  KeyLock.Wins (m.lockOf k).queue (m.perform call).resolved t mode

/-! ## Where a key comes from -/

/-- Whoever has a key after a request had it before, or has been given it. -/
theorem grants_of_holds_request {j : Key}
    (h : ((m.perform (.request mode' me j)).lockOf k).holders.holds t mode) :
    (m.lockOf k).holders.holds t mode ∨ m.Grants (.request mode' me j) k t mode := by
  have hrecorded := fun lock => lockOf_update (m.record me.txn j mode') j k (lock, [])
  -- Where only the queue changes, the holders are those of before.
  have hsame : ∀ lock : KeyLock, lock.holders = (m.lockOf j).holders →
      (m.request mode' me j).1.lockOf k = (if j = k then lock else m.lockOf k) →
      (m.lockOf k).holders.holds t mode := by
    intro lock hholders hlock
    rw [show (m.perform (.request mode' me j)).lockOf k = _ from hlock] at h
    split at h
    · rename_i hjk
      rw [hholders, hjk] at h
      exact h
    · exact h
  rcases m.request_cases mode' me j with ⟨-, heq⟩ | ⟨-, ⟨-, heq⟩ | ⟨-, heq⟩ | ⟨-, heq⟩⟩
  · rw [show m.perform (.request mode' me j) = m from congrArg Prod.fst heq] at h
    exact .inl h
  · have hlock := (congrArg (lockOf · k) (congrArg Prod.fst heq)).trans (hrecorded _)
    rw [show (m.perform (.request mode' me j)).lockOf k = _ from hlock] at h
    split at h
    · rename_i hjk
      subst hjk
      refine (Holders.covers_of_holds_enter h).imp id fun ⟨htxn, hcovers⟩ => ?_
      exact .inl ⟨mode', me, rfl, htxn, hcovers, congrArg Prod.snd heq⟩
    · exact .inl h
  · exact .inl (hsame (m.lockOf j) rfl
      ((congrArg (lockOf · k) (congrArg Prod.fst heq)).trans (hrecorded _)))
  · exact .inl (hsame ((m.lockOf j).append _) rfl
      ((congrArg (lockOf · k) (congrArg Prod.fst heq)).trans (hrecorded _)))

/-- Whoever has a key after a call had it before, or has been given it in that call. -/
theorem Consistent.grants_of_holds (h : m.Consistent) (haccepts : m.Accepts call)
    (hholds : ((m.perform call).lockOf k).holders.holds t mode) :
    (m.lockOf k).holders.holds t mode ∨ m.Grants call k t mode := by
  cases call with
  | request mode' me j => exact grants_of_holds_request hholds
  -- A release and a timeout may serve the queue: a holder who is new has won its place there, and
  -- the word that tells so is among the new ones.
  | release u order =>
    have hnodup : order.Nodup := haccepts.nodup_iff.mpr (m.held.getD u ∅).nodup_keys
    have hlock := lockOf_foldl_releaseKey (m.mark u) u order hnodup k
    have hwords := resolved_foldl_releaseKey (m.mark u) u order hnodup
    rw [show (m.perform (.release u order)).lockOf k = _ from hlock] at hholds
    split at hholds
    · rename_i hk
      refine (KeyLock.wins_of_holds_release (h.exclusive k)
        (fun _ hv hne => h.not_mem_releasedWith hv hne) hholds).imp id fun hwins => .inr ?_
      refine hwins.mono (List.Subset.refl _) fun r hr => ?_
      rw [show (m.perform (.release u order)).resolved = _ from hwords]
      exact List.mem_append_right _ (List.mem_flatMap.mpr ⟨k, hk, hr⟩)
    · exact .inl hholds
  | forget u => exact .inl hholds
  | expire j ticket =>
    rw [show (m.perform (.expire j ticket)).lockOf k = _ from lockOf_expire ..] at hholds
    split at hholds
    · rename_i hjk
      subst hjk
      refine (KeyLock.wins_of_holds_expire (h.sound j) hholds).imp id fun hwins => .inr ?_
      refine hwins.mono (List.Subset.refl _) fun r hr => ?_
      rw [show (m.perform (.expire j ticket)).resolved = _ from resolved_expire ..]
      exact List.mem_append_right _ hr
    · exact .inl hholds
  | abandon j ticket =>
    rw [show (m.perform (.abandon j ticket)).lockOf k = _ from lockOf_abandon ..] at hholds
    split at hholds
    · rename_i hjk
      exact .inl (hjk ▸ hholds)
    · exact .inl hholds

/-- A call takes a key from no holder that is not released by then. -/
theorem Consistent.holds_perform (h : m.Consistent) (haccepts : m.Accepts call)
    (hfree : t ∉ (m.perform call).released) (hholds : (m.lockOf k).holders.holds t mode) :
    ((m.perform call).lockOf k).holders.holds t mode := by
  have hunreleased : t ∉ m.released :=
    (h.sound k).unreleased t (Holders.holds_of_covers hholds (.inr rfl))
  cases call with
  | request mode' me j =>
    have htouches := lockOf_perform_request (m := m) mode' me j k
    generalize (m.perform (.request mode' me j)).lockOf k = l' at htouches ⊢
    cases htouches with
    | none => exact hholds
    | enter free granted => exact Holders.holds_enter_of_holds granted hunreleased hholds
    | append free waits => exact hholds
  | release u order => exact (h.evolves_release haccepts).holds k t mode hfree hholds
  | forget u => exact hholds
  | expire j ticket => exact (h.evolves_expire j ticket).holds k t mode hfree hholds
  | abandon j ticket =>
    rw [show (m.perform (.abandon j ticket)).lockOf k = _ from lockOf_abandon ..]
    split
    · rename_i hjk
      exact hjk ▸ hholds
    · exact hholds

/-- Whoever is given a key has it. -/
theorem Consistent.holds_of_grants (h : m.Consistent) (htallied : m.Tallied)
    (haccepts : m.Accepts call) (hgrants : m.Grants call k t mode) :
    ((m.perform call).lockOf k).holders.holds t mode := by
  rcases hgrants with ⟨mode', me, rfl, rfl, hcovers, htold⟩ | ⟨v, hv, rfl, hcovers, htold⟩
  · rcases m.request_cases mode' me k with ⟨-, heq⟩ | ⟨-, ⟨-, heq⟩ | ⟨-, heq⟩ | ⟨-, heq⟩⟩
    · exact absurd (heq ▸ htold) nofun
    · have hlock := (congrArg (lockOf · k) (congrArg Prod.fst heq)).trans
        ((lockOf_update (m.record me.txn k mode') k k (_, [])).trans (if_pos rfl))
      rw [show (m.perform (.request mode' me k)).lockOf k = _ from hlock]
      exact Holders.holds_of_covers (Holders.holds_enter _ me mode') hcovers
    · exact absurd (heq ▸ htold) nofun
    · exact absurd (heq ▸ htold) nofun
  · have hpending := htallied.pending hv
    obtain ⟨j, v', hv', hticket, hword⟩ :=
      h.told haccepts htold fun hmem => hpending.untold _ hmem rfl
    obtain ⟨rfl, rfl⟩ := hpending.eq hv' hticket.symm
    exact Holders.holds_of_covers hword hcovers

/-! ## Parked requests -/

/-- A parked request was parked before the call, or it has just been judged and its transaction does
not have the key. -/
theorem Consistent.parks_of_perform (h : m.Consistent) (haccepts : m.Accepts call)
    (hparks : (m.perform call).Parks k w) :
    m.Parks k w ∨ ¬ ((m.perform call).lockOf k).holders.holds w.holder.txn w.mode := by
  obtain ⟨live, hmem⟩ := hparks
  have htouches := lockOf_perform haccepts k
  generalize (m.perform call).lockOf k = l' at htouches hmem ⊢
  cases htouches with
  | none => exact .inl ⟨live, hmem⟩
  | enter free granted => exact .inl ⟨live, hmem⟩
  | append free waits =>
    rcases List.mem_append.mp hmem with hmem | hmem
    · exact .inl ⟨live, hmem⟩
    · refine .inr ?_
      obtain ⟨hholder, hmode, -, -⟩ := Waiter.mk.inj (List.mem_singleton.mp hmem)
      rw [hholder, hmode]
      exact (Holders.judge_eq_wait waits).1
  | @release u order =>
    have hevolves := KeyLock.evolves_serve (KeyLock.sound_without (t := u) (h.exclusive k)
      fun _ hv hne => h.not_mem_releasedWith hv hne)
    exact .inl ⟨live, (List.mem_filter.mp (hevolves.queue.subset hmem)).1⟩
  | @expire _ ticket =>
    exact .inl ⟨live, (KeyLock.evolves_expire (h.sound k) ticket).queue.subset hmem⟩
  | abandon =>
    obtain ⟨v, hv, heq⟩ := List.mem_map.mp hmem
    split at heq
    · have hsame : v = { w with live := v.live } :=
        congrArg (fun u : Waiter => { u with live := v.live }) heq
      exact .inl ⟨v.live, hsame ▸ hv⟩
    · exact .inl ⟨live, heq ▸ hv⟩

/-- The transaction of a parked request is not released. -/
theorem Consistent.not_released (h : m.Consistent) (hparks : m.Parks k w) :
    w.holder.txn ∉ m.released := by
  obtain ⟨live, hmem⟩ := hparks
  exact fun hreleased => h.not_involves hreleased k (.inr ⟨_, hmem, rfl⟩)

/-- After a call the transaction of a parked request has the key exactly if the request was parked
before, and its transaction had the key then or has been given it by the call. -/
theorem Consistent.holds_perform_iff (h : m.Consistent) (htallied : m.Tallied)
    (haccepts : m.Accepts call) (hparks : (m.perform call).Parks k w) :
    ((m.perform call).lockOf k).holders.holds w.holder.txn w.mode ↔
      m.Parks k w ∧ ((m.lockOf k).holders.holds w.holder.txn w.mode ∨
        m.Grants call k w.holder.txn w.mode) := by
  constructor
  · intro hholds
    exact ⟨(h.parks_of_perform haccepts hparks).resolve_right (not_not_intro hholds),
      h.grants_of_holds haccepts hholds⟩
  · rintro ⟨-, hholds | hgrants⟩
    · exact h.holds_perform haccepts ((h.perform haccepts).not_released hparks) hholds
    · exact h.holds_of_grants htallied haccepts hgrants

/-- Several calls keep the tickets apart. -/
theorem Tallied.performAll (h : m.Tallied) (calls : List Call) :
    (calls.foldl Manager.perform m).Tallied := by
  induction calls generalizing m with
  | nil => exact h
  | cons call rest ih => exact ih (h.perform call)

/-- A request that is parked now and later is parked in between. -/
theorem Tallied.parks_perform (h : m.Tallied) (hparks : m.Parks k w)
    (hlater : (calls.foldl Manager.perform (m.perform call)).Parks k w) :
    (m.perform call).Parks k w := by
  obtain ⟨live, hmem⟩ := hparks
  obtain ⟨_, hlater⟩ := hlater
  rcases (h.follows_perform call).queued k _ hmem with htold | ⟨live', hmem', -⟩
  · -- A word to its caller would still be there later.
    have htold' := (((h.perform call).follows_performAll calls).told.map Prod.fst).subset htold
    have huntold := ((h.perform call).performAll calls).untold k w.ticket
      (List.mem_map.mpr ⟨_, hlater, rfl⟩)
    exact absurd htold' huntold
  · exact ⟨live', hmem'⟩

/-- A member of a list with another one in front of it is that one or a member of the list. -/
theorem exists_split_cons {α : Type} {P : List α → α → Prop} {x : α} {xs : List α} :
    (∃ before y after, x :: xs = before ++ y :: after ∧ P before y) ↔
      P [] x ∨ ∃ before y after, xs = before ++ y :: after ∧ P (x :: before) y := by
  constructor
  · rintro ⟨before, y, after, heq, h⟩
    cases before with
    | nil =>
      cases heq
      exact .inl h
    | cons z before =>
      cases heq
      exact .inr ⟨before, y, after, rfl, h⟩
  · rintro (h | ⟨before, y, after, rfl, h⟩)
    · exact ⟨[], x, xs, rfl, h⟩
    · exact ⟨x :: before, y, after, rfl, h⟩

/-- After several calls the transaction of a parked request has the key exactly if the request was
parked all along and its transaction had the key, or has been given it by a call during which the
request was parked. -/
theorem Run.holds_performAll_iff {P : Manager → Call → Prop} {timeout : Option Duration}
    (run : Run P timeout m) (hadmits : Admits P m calls)
    (hparks : (calls.foldl Manager.perform m).Parks k w) :
    ((calls.foldl Manager.perform m).lockOf k).holders.holds w.holder.txn w.mode ↔
      m.Parks k w ∧ (m.lockOf k).holders.holds w.holder.txn w.mode ∨
      ∃ before call after, calls = before ++ call :: after ∧
        (before.foldl Manager.perform m).Parks k w ∧
        (before.foldl Manager.perform m).Grants call k w.holder.txn w.mode := by
  induction calls generalizing m with
  | nil =>
    constructor
    · exact fun hholds => .inl ⟨hparks, hholds⟩
    · rintro (⟨-, hholds⟩ | ⟨before, _, _, heq, -⟩)
      · exact hholds
      · cases before <;> cases heq
  | cons call rest ih =>
    obtain ⟨⟨haccepts, hpermitted⟩, hrest⟩ := hadmits
    rw [List.foldl_cons, ih (run.perform haccepts hpermitted) hrest hparks, exists_split_cons,
      ← or_assoc]
    refine or_congr ?_ Iff.rfl
    -- What the first call does, if the request is parked by then.
    constructor
    · rintro ⟨hmid, hholds⟩
      obtain ⟨hbefore, hholds | hgrants⟩ :=
        (run.consistent.holds_perform_iff run.tallied haccepts hmid).mp hholds
      · exact .inl ⟨hbefore, hholds⟩
      · exact .inr ⟨hbefore, hgrants⟩
    · intro h
      have hbefore : m.Parks k w := h.elim And.left And.left
      have hmid := run.tallied.parks_perform hbefore hparks
      exact ⟨hmid, (run.consistent.holds_perform_iff run.tallied haccepts hmid).mpr
        ⟨hbefore, h.imp And.right And.right⟩⟩

/-! ## Clients with one request for each key -/

/-- What clients do that ask for a key only if they have no request parked for it. -/
def Single (m : Manager) : Call → Prop
  | .request _ me k => ∀ w ∈ (m.lockOf k).queue, w.holder.txn ≠ me.txn
  | _ => True

/-- A request that joins a queue joins that of its own key. -/
theorem queue_request (m : Manager) (mode : Mode) (me : Holder) (j k : Key) :
    ((m.perform (.request mode me j)).lockOf k).queue = (m.lockOf k).queue ∨
    j = k ∧ ((m.perform (.request mode me j)).lockOf k).queue =
      (m.lockOf k).queue ++ [⟨me, mode, m.nextTicket, true⟩] := by
  have hlock : ∀ {lock : KeyLock},
      (m.request mode me j).1.lockOf k = (if j = k then lock else m.lockOf k) →
      ((m.perform (.request mode me j)).lockOf k).queue = (m.lockOf k).queue ∨
      j = k ∧ ((m.perform (.request mode me j)).lockOf k).queue = lock.queue := by
    intro lock h
    rw [show (m.perform (.request mode me j)).lockOf k = _ from h]
    split
    · rename_i hjk
      exact .inr ⟨hjk, rfl⟩
    · exact .inl rfl
  have hrecorded := fun lock => lockOf_update (m.record me.txn j mode) j k (lock, [])
  rcases m.request_cases mode me j with ⟨-, heq⟩ | ⟨-, ⟨-, heq⟩ | ⟨-, heq⟩ | ⟨-, heq⟩⟩
  · exact .inl (congrArg (fun r => (r.1.lockOf k).queue) heq)
  · rcases hlock ((congrArg (fun r => r.1.lockOf k) heq).trans (hrecorded _)) with h | ⟨rfl, h⟩
    · exact .inl h
    · exact .inl h
  · rcases hlock ((congrArg (fun r => r.1.lockOf k) heq).trans (hrecorded _)) with h | ⟨rfl, h⟩
    · exact .inl h
    · exact .inl h
  · refine (hlock ((congrArg (fun r => r.1.lockOf k) heq).trans
      (hrecorded ((m.lockOf j).append ⟨me, mode, m.nextTicket, true⟩)))).imp id ?_
    rintro ⟨rfl, h⟩
    exact ⟨rfl, h⟩

/-- Such clients have one request in each queue. -/
theorem Run.nodup_queue {timeout : Option Duration} (run : Run Single timeout m) (k : Key) :
    ((m.lockOf k).queue.map fun w => w.holder.txn).Nodup := by
  induction run with
  | new => exact List.nodup_nil
  | @perform m call run haccepts hsingle ih =>
    have hevolves : ∀ {m' : Manager}, m.Evolves m' →
        ((m'.lockOf k).queue.map fun w => w.holder.txn).Nodup :=
      fun h => ih.sublist ((h.queue k).map _)
    cases call with
    | request mode me j =>
      rcases m.queue_request mode me j k with hqueue | ⟨rfl, hqueue⟩
      · rw [hqueue]
        exact ih
      · rw [hqueue, List.map_append, List.nodup_append]
        refine ⟨ih, List.nodup_singleton _, fun t ht u hu heq => ?_⟩
        obtain ⟨w, hw, rfl⟩ := List.mem_map.mp ht
        rw [List.map_singleton, List.mem_singleton] at hu
        exact hsingle w hw (heq.trans hu)
    | release t order => exact hevolves (run.consistent.evolves_release haccepts)
    | forget t => exact hevolves (run.consistent.evolves_forget t)
    | expire j ticket => exact hevolves (run.consistent.evolves_expire j ticket)
    | abandon j ticket =>
      rw [show (m.perform (.abandon j ticket)).lockOf k = _ from lockOf_abandon ..]
      split
      · rename_i hjk
        subst hjk
        -- The request of a caller that has gone keeps its transaction.
        have hsame : ((m.lockOf j).abandon ticket).queue.map (fun w => w.holder.txn) =
            (m.lockOf j).queue.map fun w => w.holder.txn := by
          unfold KeyLock.abandon
          rw [List.map_map]
          refine List.map_congr_left fun w _ => ?_
          show (if w.ticket = ticket then { w with live := false } else w).holder.txn = _
          split <;> rfl
        rw [hsame]
        exact ih
      · exact ih

/-- No parked request of such clients asks for what its transaction has. -/
theorem Run.not_redundant {timeout : Option Duration} (run : Run Single timeout m)
    (hw : w ∈ (m.lockOf k).queue) : ¬ (m.lockOf k).holders.holds w.holder.txn w.mode := by
  induction run generalizing w with
  | new => cases hw
  | @perform m call run haccepts hsingle ih =>
    intro hholds
    have hafter : (m.perform call).Parks k w := ⟨w.live, hw⟩
    obtain ⟨⟨live, hmem⟩, hbefore | hgrants⟩ :=
      (run.consistent.holds_perform_iff run.tallied haccepts hafter).mp hholds
    · exact ih hmem hbefore
    · rcases hgrants with ⟨mode, me, rfl, htxn, -, -⟩ | ⟨v, hv, htxn, -, htold⟩
      · exact hsingle _ hmem htxn.symm
      · -- The request that is granted is the parked one, and so it is not parked any more.
        have hsame := List.inj_on_of_nodup_map (run.nodup_queue k) hv hmem htxn
        have huntold := (run.tallied.perform call).untold k w.ticket (List.mem_map_of_mem hw)
        refine huntold (List.mem_map.mpr ⟨_, htold, ?_⟩)
        exact (congrArg Waiter.ticket hsame).trans rfl

/-! ## When a request waits in vain -/

/-- After any calls a request for a key that its transaction has, in the same or a stronger mode, is
granted at once and changes no lock. The head of a queue never asks for such a key, and any other
parked request does exactly if the key was granted to its transaction, by another request in the
same or a stronger mode, while it was parked. -/
theorem redundant_iff {timeout : Option Duration}
    (h : Admits (fun _ _ => True) (new timeout) calls) :
    let m := calls.foldl Manager.perform (new timeout)
    (∀ mode me k, (m.lockOf k).holders.holds me.txn mode →
      (m.request mode me k).2 = .granted ∧
        ∀ j, (m.perform (.request mode me k)).lockOf j = m.lockOf j) ∧
    (∀ k w rest, (m.lockOf k).queue = w :: rest →
      ¬ (m.lockOf k).holders.holds w.holder.txn w.mode) ∧
    ∀ k, ∀ w ∈ (m.lockOf k).queue, ((m.lockOf k).holders.holds w.holder.txn w.mode ↔
      ∃ before call after, calls = before ++ call :: after ∧
        (before.foldl Manager.perform (new timeout)).Parks k w ∧
        (before.foldl Manager.perform (new timeout)).Grants call k w.holder.txn w.mode) := by
  intro m
  have run : Reachable timeout m := Run.performAll .new h
  refine ⟨fun mode me k hholds => ?_, fun k w rest hqueue hholds => ?_, fun k w hw => ?_⟩
  · have hfree := (run.consistent.sound k).unreleased me.txn
      (Holders.holds_of_covers hholds (.inr rfl))
    rcases m.request_cases mode me k with ⟨hreleased, -⟩ | ⟨-, ⟨-, heq⟩ | ⟨hjudge, -⟩ | ⟨hjudge, -⟩⟩
    · exact absurd hreleased hfree
    · refine ⟨congrArg Prod.snd heq, fun j => ?_⟩
      rw [show m.perform (.request mode me k) = _ from congrArg Prod.fst heq, lockOf_update,
        Holders.enter_of_holds hholds]
      split
      · rename_i hkj
        exact hkj ▸ rfl
      · rfl
    · rw [Holders.judge_of_holds hholds] at hjudge
      cases hjudge
    · rw [Holders.judge_of_holds hholds] at hjudge
      cases hjudge
  · exact (run.blocked_of_head hqueue).1 (Holders.judge_of_holds hholds)
  · refine (Run.holds_performAll_iff .new h ⟨w.live, hw⟩).trans (or_iff_right ?_)
    rintro ⟨⟨_, hmem⟩, -⟩
    cases hmem

/-! ## A request that waits for its own transaction -/

/-- What clients do that use one timestamp for each transaction and never go away. -/
def Steady (age : TransactionId → Timestamp) (_ : Manager) : Call → Prop
  | .request _ me _ => me.timestamp = age me.txn
  | .abandon _ _ => False
  | .release _ _ | .forget _ | .expire _ _ => True

/-- Transaction 5 asks twice for a key that 10 has, and 3 asks for it in between. When 10 releases
the key it goes to 5; 3 has to wait for that, and nobody looks at the second request of 5. -/
def pipelined : List Call :=
  let k : Key := ⟨⟨1⟩, .integer 1⟩
  [ .request .write ⟨⟨10⟩, ⟨10⟩⟩ k, .request .write ⟨⟨5⟩, ⟨5⟩⟩ k, .request .write ⟨⟨3⟩, ⟨3⟩⟩ k,
    .request .write ⟨⟨5⟩, ⟨5⟩⟩ k, .release ⟨10⟩ [k] ]

/-- Clients with such timestamps make these calls. -/
theorem admits_pipelined : Admits (Steady fun t => ⟨.ofNat t.number⟩) (new none) pipelined :=
  ⟨⟨trivial, rfl⟩, ⟨trivial, rfl⟩, ⟨trivial, rfl⟩, ⟨trivial, rfl⟩, ⟨.of_eq (by decide), trivial⟩,
    trivial⟩

/-- So a transaction can have a request parked for a key that it has. -/
theorem pipelined_redundant :
    ¬ ∀ age timeout m, Run (Steady age) timeout m → ∀ k, ∀ w ∈ (m.lockOf k).queue,
      ¬ (m.lockOf k).holders.holds w.holder.txn w.mode := by
  intro hnever
  refine hnever _ none _ (Run.performAll .new admits_pipelined) ⟨⟨1⟩, .integer 1⟩
    ⟨⟨⟨5⟩, ⟨5⟩⟩, .write, 3, true⟩ (by decide) (by decide)

/-- The second request was parked when the first one was granted. -/
theorem redundant_iff_pipelined :
    let m := pipelined.foldl Manager.perform (new none)
    Admits (fun _ _ => True) (new none) pipelined ∧
      (m.lockOf ⟨⟨1⟩, .integer 1⟩).holders.holds ⟨5⟩ .write ∧
      ∃ before call after, pipelined = before ++ call :: after ∧
        (before.foldl Manager.perform (new none)).Parks ⟨⟨1⟩, .integer 1⟩
          ⟨⟨⟨5⟩, ⟨5⟩⟩, .write, 3, true⟩ ∧
        (before.foldl Manager.perform (new none)).Grants call ⟨⟨1⟩, .integer 1⟩ ⟨5⟩ .write := by
  intro m
  have hadmits : Admits (fun _ _ => True) (new none) pipelined :=
    ⟨⟨trivial, trivial⟩, ⟨trivial, trivial⟩, ⟨trivial, trivial⟩, ⟨trivial, trivial⟩,
      ⟨.of_eq (by decide), trivial⟩, trivial⟩
  have hholds : (m.lockOf ⟨⟨1⟩, .integer 1⟩).holders.holds ⟨5⟩ .write := by decide
  exact ⟨hadmits, hholds, ((redundant_iff hadmits).2.2 ⟨⟨1⟩, .integer 1⟩
    ⟨⟨⟨5⟩, ⟨5⟩⟩, .write, 3, true⟩ (by decide)).mp hholds⟩

end Manager

end TxStore.Lock
