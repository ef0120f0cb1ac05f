import TxStore.Lock.Manager
import TxStore.Proofs.Lock.Serving

/-!
# Runs of a lock manager

A run of a lock manager is any sequence of calls (`Call`), by any transactions, in any order.
Deadlines and vanished callers are calls of their own, since they come from outside. A release names
the keys in the order in which it visits them, which is any order of the keys that the transaction
has asked for (`Manager.Accepts`). `Manager.Run` restricts the calls further where a statement is
about clients who keep to a discipline.

Every call changes the locks of the keys one at a time. `request_cases` says what a request does,
and `lockOf_foldl_releaseKey` and `lockOf_expire` what becomes of each key in a release and at a
deadline. `lockOf_perform` sums up what a call can do to a single key.
-/

namespace TxStore.Lock

/-- A call of a lock manager, or an event that reaches it from outside. -/
inductive Call where
  /-- A transaction asks for a key. -/
  | request (mode : Mode) (me : Holder) (k : Key)
  /-- A transaction releases its locks, key by key in this order. -/
  | release (txn : TransactionId) (order : List Key)
  /-- A released transaction is forgotten. -/
  | forget (txn : TransactionId)
  /-- The deadline of a queued request passes. -/
  | expire (k : Key) (ticket : Ticket)
  /-- The caller of a queued request goes away. -/
  | abandon (k : Key) (ticket : Ticket)

namespace Manager

/-- The manager after a call. -/
def perform (m : Manager) : Call → Manager
  | .request mode me k => (m.request mode me k).1
  | .release txn order => m.releaseInOrder txn order
  | .forget txn => m.forget txn
  | .expire k ticket => m.expire k ticket
  | .abandon k ticket => m.abandon k ticket

/-- The keys that a transaction has asked for. -/
def keysOf (m : Manager) (t : TransactionId) : List Key :=
  (m.held.getD t ∅).keys

/-- A release visits each key that its transaction has asked for once. -/
def Accepts (m : Manager) : Call → Prop
  | .release txn order => order.Perm (m.keysOf txn)
  | _ => True

/-- The managers that are reached from a new one by calls that are permitted in the state in which
they are made. -/
inductive Run (Permitted : Manager → Call → Prop) (timeout : Option Duration) : Manager → Prop where
  /-- A new manager. -/
  | new : Run Permitted timeout (.new timeout)
  /-- One more call. -/
  | perform {m : Manager} {call : Call} (run : Run Permitted timeout m) (accepted : m.Accepts call)
      (permitted : Permitted m call) : Run Permitted timeout (m.perform call)

/-- The managers that are reached by any calls. -/
def Reachable (timeout : Option Duration) (m : Manager) : Prop :=
  Run (fun _ _ => True) timeout m

variable {m : Manager} {k j : Key} {t u : TransactionId} {mode : Mode} {me : Holder}

/-- Whether each of several calls is accepted and permitted when its turn comes. -/
def Admits (Permitted : Manager → Call → Prop) (m : Manager) : List Call → Prop
  | [] => True
  | call :: rest =>
    (m.Accepts call ∧ Permitted m call) ∧ Admits Permitted (m.perform call) rest

/-- A run goes on with several calls. -/
theorem Run.performAll {P : Manager → Call → Prop} {timeout : Option Duration} {calls : List Call}
    (run : Run P timeout m) (h : Admits P m calls) : Run P timeout (calls.foldl Manager.perform m) := by
  induction calls generalizing m with
  | nil => exact run
  | cons call rest ih => exact ih (run.perform h.1.1 h.1.2) h.2

/-! ## Changing one key -/

/-- Setting the lock of one key leaves every other key alone. -/
theorem lockOf_update (m : Manager) (k j : Key) (change : KeyLock × List Resolution) :
    (m.update k change).lockOf j = if k = j then change.1 else m.lockOf j := by
  unfold lockOf update Dict.getD
  rw [Dict.get?_insert]
  split <;> rfl

/-- Recording a request changes no lock. -/
@[simp] theorem lockOf_record (m : Manager) (t : TransactionId) (k j : Key) (mode : Mode) :
    (m.record t k mode).lockOf j = m.lockOf j := rfl

/-- A transaction that asks for a key is recorded with it, and no record is lost. -/
theorem mem_keysOf_record :
    j ∈ (m.record t k mode).keysOf u ↔ j ∈ m.keysOf u ∨ (t = u ∧ k = j) := by
  unfold keysOf record Dict.getD
  simp only [Dict.mem_keys, Dict.get?_insert]
  by_cases htu : t = u
  · subst htu
    rw [if_pos rfl, Option.getD_some, Dict.get?_insert]
    by_cases hkj : k = j
    · simp [hkj]
    · simp [hkj]
  · simp [htu]

/-- What a request does. The request of a released transaction changes nothing. Any other is
recorded, and then granted, refused or queued, as it is judged. -/
theorem request_cases (m : Manager) (mode : Mode) (me : Holder) (k : Key) :
    me.txn ∈ m.released ∧ m.request mode me k = (m, .refused .released) ∨
    me.txn ∉ m.released ∧
      ((m.lockOf k).holders.judge m.released me mode = .grant ∧
        m.request mode me k =
          ((m.record me.txn k mode).update k
            (⟨(m.lockOf k).holders.enter me mode, (m.lockOf k).queue⟩, []), .granted) ∨
      (m.lockOf k).holders.judge m.released me mode = .conflict ∧
        m.request mode me k =
          ((m.record me.txn k mode).update k (m.lockOf k, []), .refused .conflict) ∨
      (m.lockOf k).holders.judge m.released me mode = .wait ∧
        m.request mode me k =
          ({ (m.record me.txn k mode).update k
              ((m.lockOf k).append ⟨me, mode, m.nextTicket, true⟩, []) with
            nextTicket := m.nextTicket + 1 }, .queued m.nextTicket)) := by
  unfold request isReleased
  by_cases hreleased : me.txn ∈ m.released
  · exact .inl ⟨hreleased, by simp [hreleased]⟩
  · refine .inr ⟨hreleased, ?_⟩
    simp only [hreleased, decide_false, Bool.false_eq_true, if_false, lockOf_record]
    have hsame : (m.record me.txn k mode).released = m.released := rfl
    rw [hsame]
    cases hjudge : (m.lockOf k).holders.judge m.released me mode with
    | grant => exact .inl ⟨rfl, rfl⟩
    | conflict => exact .inr (.inl ⟨rfl, rfl⟩)
    | wait => exact .inr (.inr ⟨rfl, rfl⟩)

/-- Visiting a key changes its lock and no other, if a free lock stays free. -/
theorem lockOf_visit {change : KeyLock → KeyLock × List Resolution}
    (hfree : change .free = (.free, [])) (m : Manager) (k j : Key) :
    (m.visit k change).lockOf j = if k = j then (change (m.lockOf k)).1 else m.lockOf j := by
  unfold visit
  cases hk : m.locks.get? k with
  | none =>
    -- A key without an entry is free and gets none.
    have hlock : m.lockOf k = .free := by
      unfold lockOf Dict.getD
      rw [hk]
      rfl
    rw [hlock, hfree]
    by_cases hkj : k = j
    · rw [if_pos hkj, ← hkj]
      exact hlock
    · rw [if_neg hkj]
  | some lock =>
    have hlock : m.lockOf k = lock := by
      unfold lockOf Dict.getD
      rw [hk]
      rfl
    rw [hlock]
    exact lockOf_update m k j (change lock)

/-- Visiting a key adds the words to the waiters that leave its queue. -/
theorem resolved_visit {change : KeyLock → KeyLock × List Resolution}
    (hfree : change .free = (.free, [])) (m : Manager) (k : Key) :
    (m.visit k change).resolved = m.resolved ++ (change (m.lockOf k)).2 := by
  unfold visit lockOf Dict.getD
  cases hk : m.locks.get? k with
  | none => simp [hfree]
  | some lock => rfl

/-- Visiting a key releases and forgets nobody. -/
@[simp] theorem released_visit (m : Manager) (k : Key)
    (change : KeyLock → KeyLock × List Resolution) : (m.visit k change).released = m.released := by
  unfold visit
  split <;> rfl

/-- Visiting a key records nothing. -/
@[simp] theorem held_visit (m : Manager) (k : Key)
    (change : KeyLock → KeyLock × List Resolution) : (m.visit k change).held = m.held := by
  unfold visit
  split <;> rfl

/-- Visiting a key hands out no ticket. -/
@[simp] theorem nextTicket_visit (m : Manager) (k : Key)
    (change : KeyLock → KeyLock × List Resolution) :
    (m.visit k change).nextTicket = m.nextTicket := by
  unfold visit
  split <;> rfl

/-- A free key stays free when a transaction is struck from it. -/
theorem release_free (t : TransactionId) (released : List TransactionId) :
    KeyLock.free.release t released = (.free, []) := rfl

/-- A free key stays free when a deadline passes. -/
theorem expire_free (ticket : Ticket) (released : List TransactionId) :
    KeyLock.free.expire ticket released = (.free, []) := rfl

/-- At a deadline the lock of the request's key changes, and no other. -/
theorem lockOf_expire (m : Manager) (k j : Key) (ticket : Ticket) :
    (m.expire k ticket).lockOf j =
      if k = j then ((m.lockOf k).expire ticket m.released).1 else m.lockOf j :=
  lockOf_visit (expire_free ticket m.released) m k j

/-- The words that are said then are those of this lock. -/
theorem resolved_expire (m : Manager) (k : Key) (ticket : Ticket) :
    (m.expire k ticket).resolved = m.resolved ++ ((m.lockOf k).expire ticket m.released).2 :=
  resolved_visit (expire_free ticket m.released) m k

/-- When a caller goes away the lock of its key changes, and no other. -/
theorem lockOf_abandon (m : Manager) (k j : Key) (ticket : Ticket) :
    (m.abandon k ticket).lockOf j =
      if k = j then (m.lockOf k).abandon ticket else m.lockOf j :=
  lockOf_visit rfl m k j

/-! ## Releasing -/

/-- The transactions that are released once `t` is. -/
def releasedWith (m : Manager) (t : TransactionId) : List TransactionId :=
  if t ∈ m.released then m.released else m.released ++ [t]

/-- Those that were released, and `t`. -/
theorem mem_releasedWith : u ∈ m.releasedWith t ↔ u ∈ m.released ∨ u = t := by
  unfold releasedWith
  split
  · rename_i h
    exact ⟨.inl, fun h' => h'.elim id fun e => e ▸ h⟩
  · simp

/-- The manager in which `t` is marked as released and has no record, before its keys are visited.
-/
def mark (m : Manager) (t : TransactionId) : Manager :=
  { m with released := m.releasedWith t, held := m.held.erase t }

/-- A release marks the transaction and then visits its keys. -/
theorem releaseInOrder_eq (m : Manager) (t : TransactionId) (order : List Key) :
    m.releaseInOrder t order = order.foldl (releaseKey t) (m.mark t) := rfl

/-- Visiting the keys of a release changes no mark, no record and no ticket. -/
theorem foldl_releaseKey_frame (m : Manager) (t : TransactionId) (order : List Key) :
    (order.foldl (releaseKey t) m).released = m.released ∧
      (order.foldl (releaseKey t) m).held = m.held ∧
      (order.foldl (releaseKey t) m).nextTicket = m.nextTicket := by
  induction order generalizing m with
  | nil => exact ⟨rfl, rfl, rfl⟩
  | cons k rest ih =>
    obtain ⟨hr, hh, hn⟩ := ih (releaseKey t m k)
    rw [List.foldl_cons, hr, hh, hn]
    exact ⟨released_visit .., held_visit .., nextTicket_visit ..⟩

/-- Each visited key is released once, and all others are left alone. -/
theorem lockOf_foldl_releaseKey (m : Manager) (t : TransactionId) (order : List Key)
    (hnodup : order.Nodup) (j : Key) :
    (order.foldl (releaseKey t) m).lockOf j =
      if j ∈ order then ((m.lockOf j).release t m.released).1 else m.lockOf j := by
  induction order generalizing m with
  | nil => simp
  | cons k rest ih =>
    obtain ⟨hk, hrest⟩ := List.nodup_cons.mp hnodup
    have hvisit : ∀ i, (releaseKey t m k).lockOf i =
        if k = i then ((m.lockOf k).release t m.released).1 else m.lockOf i :=
      lockOf_visit (release_free t m.released) m k
    have hreleased : (releaseKey t m k).released = m.released := released_visit ..
    -- Without repetitions no later visit comes back to `k`.
    rw [List.foldl_cons, ih _ hrest, hvisit, hreleased]
    by_cases hkj : k = j
    · subst hkj
      simp [hk]
    · simp [hkj, Ne.symm hkj]

/-- Every word of a release belongs to a waiter of one of the visited keys. -/
theorem resolved_foldl_releaseKey (m : Manager) (t : TransactionId) (order : List Key)
    (hnodup : order.Nodup) :
    (order.foldl (releaseKey t) m).resolved =
      m.resolved ++ order.flatMap fun k => ((m.lockOf k).release t m.released).2 := by
  induction order generalizing m with
  | nil => simp
  | cons k rest ih =>
    obtain ⟨hk, hrest⟩ := List.nodup_cons.mp hnodup
    have hreleased : (releaseKey t m k).released = m.released := released_visit ..
    have hresolved : (releaseKey t m k).resolved =
        m.resolved ++ ((m.lockOf k).release t m.released).2 :=
      resolved_visit (release_free t m.released) m k
    -- The keys that are still to be visited are as they were at the beginning.
    have hother : ∀ i ∈ rest, (releaseKey t m k).lockOf i = m.lockOf i := by
      intro i hi
      refine (lockOf_visit (release_free t m.released) m k i).trans (if_neg ?_)
      rintro rfl
      exact hk hi
    rw [List.foldl_cons, ih _ hrest, hresolved, hreleased, List.flatMap_cons, List.append_assoc]
    congr 2
    rw [List.flatMap_def, List.flatMap_def]
    congr 1
    exact List.map_congr_left fun i hi => by rw [hother i hi]

/-! ## What a call can do to one key -/

/-- What becomes of the lock `l` in a call: it stays, a granted request is entered, a request joins
the queue, the queue is served after a transaction or a request has been struck out, or a caller is
noted as gone. -/
inductive Touches (m : Manager) (l : KeyLock) : Call → KeyLock → Prop where
  /-- The lock stays as it is. -/
  | none {call : Call} : Touches m l call l
  /-- A granted request is entered. -/
  | enter {mode : Mode} {me : Holder} {k : Key} (free : me.txn ∉ m.released)
      (granted : l.holders.judge m.released me mode = .grant) :
      Touches m l (.request mode me k) ⟨l.holders.enter me mode, l.queue⟩
  /-- A request joins the queue. -/
  | append {mode : Mode} {me : Holder} {k : Key} (free : me.txn ∉ m.released)
      (waits : l.holders.judge m.released me mode = .wait) :
      Touches m l (.request mode me k) (l.append ⟨me, mode, m.nextTicket, true⟩)
  /-- A transaction is struck out and the queue is served. -/
  | release {t : TransactionId} {order : List Key} :
      Touches m l (.release t order) (l.release t (m.releasedWith t)).1
  /-- A request is struck out at its deadline and the queue is served. -/
  | expire {k : Key} {ticket : Ticket} :
      Touches m l (.expire k ticket) (l.expire ticket m.released).1
  /-- A caller is noted as gone. -/
  | abandon {k : Key} {ticket : Ticket} : Touches m l (.abandon k ticket) (l.abandon ticket)

/-- A call that changes the lock of one key touches all others by leaving them alone. -/
theorem Touches.of_update {call : Call} {j : Key} {l' : KeyLock}
    (htouches : m.Touches (m.lockOf j) call l')
    (hlock : (m.perform call).lockOf k = if j = k then l' else m.lockOf k) :
    m.Touches (m.lockOf k) call ((m.perform call).lockOf k) := by
  rw [hlock]
  split
  · rename_i hjk
    exact hjk ▸ htouches
  · exact .none

/-- A request touches every key in one of these ways. -/
theorem lockOf_perform_request (mode : Mode) (me : Holder) (j k : Key) :
    m.Touches (m.lockOf k) (.request mode me j) ((m.perform (.request mode me j)).lockOf k) := by
  have hrecorded : ∀ lock : KeyLock,
      ((m.record me.txn j mode).update j (lock, [])).lockOf k =
        if j = k then lock else m.lockOf k :=
    fun lock => lockOf_update (m.record me.txn j mode) j k (lock, [])
  have hperform : m.perform (.request mode me j) = (m.request mode me j).1 := rfl
  rcases m.request_cases mode me j with ⟨-, heq⟩ | ⟨hfree, ⟨hjudge, heq⟩ | ⟨-, heq⟩ | ⟨hjudge, heq⟩⟩
  · rw [hperform, heq]
    exact .none
  · refine Touches.of_update (.enter hfree hjudge) ?_
    rw [hperform, heq]
    exact hrecorded _
  · refine Touches.of_update (j := j) .none ?_
    rw [hperform, heq]
    exact hrecorded _
  · refine Touches.of_update (.append hfree hjudge) ?_
    rw [hperform, heq]
    exact hrecorded _

/-- A call touches every key in one of these ways. -/
theorem lockOf_perform {call : Call} (haccepts : m.Accepts call) (k : Key) :
    m.Touches (m.lockOf k) call ((m.perform call).lockOf k) := by
  cases call with
  | request mode me j => exact lockOf_perform_request mode me j k
  | release t order =>
    -- A record has no key twice, so a release visits no key twice.
    have hnodup : order.Nodup := haccepts.nodup_iff.mpr (m.held.getD t ∅).nodup_keys
    have hlock : (m.releaseInOrder t order).lockOf k =
        if k ∈ order then ((m.lockOf k).release t (m.releasedWith t)).1 else m.lockOf k :=
      lockOf_foldl_releaseKey (m.mark t) t order hnodup k
    have hperform : m.perform (.release t order) = m.releaseInOrder t order := rfl
    rw [hperform, hlock]
    split
    · exact .release
    · exact .none
  | forget t => exact .none
  | expire j ticket => exact Touches.of_update .expire (lockOf_expire ..)
  | abandon j ticket => exact Touches.of_update .abandon (lockOf_abandon ..)

end Manager

end TxStore.Lock
