import TxStore.Proofs.Database.Fates

/-!
# Nobody waits without being attended to

An operation that has to wait leaves word with somebody: its request is in a lock queue, or it is
parked with its transaction. Whoever ends the request or is the last to leave the transaction puts
it back in line. `Attended` is the invariant that no operation waits otherwise. In the middle of a
turn it holds of all other tasks, and what the operation in hand knows of its own request is kept in
mind with it (`Grasps`).
-/

namespace TxStore

/-- A task waits under a ticket if it has a place in a queue with that ticket. -/
theorem Task.waitsOn_iff (task : Task) {n : Lock.Ticket} :
    task.waitsOn n ↔ ∃ w, task.waiting? = some w ∧ w.ticket = n := by
  cases task with
  | operation op =>
    unfold Task.waitsOn Task.waiting?
    dsimp only
    cases op.stand with
    | locking target w =>
      exact ⟨fun h => ⟨w, rfl, of_decide_eq_true h⟩, fun ⟨_, rfl, h⟩ => decide_eq_true h⟩
    | issued => exact ⟨nofun, nofun⟩
    | reading target => exact ⟨nofun, nofun⟩
    | fetched target row => exact ⟨nofun, nofun⟩
    | draining purpose result => exact ⟨nofun, nofun⟩
    | applying plan result => exact ⟨nofun, nofun⟩
    | applied errors result => exact ⟨nofun, nofun⟩
    | finished result => exact ⟨nofun, nofun⟩
  | request r =>
    unfold Task.waitsOn Task.waiting? Lock.Request.waitsOn
    dsimp only
    cases r.stage with
    | waiting w =>
      exact ⟨fun h => ⟨w, rfl, of_decide_eq_true h⟩, fun ⟨_, rfl, h⟩ => decide_eq_true h⟩
    | issued => exact ⟨nofun, nofun⟩
    | answered answer => exact ⟨nofun, nofun⟩
    | cancelled => exact ⟨nofun, nofun⟩

namespace Lock.Manager

variable {m m' : Manager} {me : Holder} {w : Waiting} {n : Ticket}

/-- Whether a caller's request to write is queued. -/
def Queues (m : Manager) (me : Holder) (w : Waiting) : Prop :=
  ⟨me, .write, w.ticket, true⟩ ∈ (m.lockOf w.key).queue

/-- A queued request stays so, or its caller is told. -/
theorem Follows.queues (h : m.Follows m' fun _ _ => False) (hqueues : m.Queues me w) :
    m'.Queues me w ∨ m'.Tells w.ticket := by
  rcases h.queued w.key _ hqueues with htold | ⟨live, hmem, rfl | hgone⟩
  · exact .inr htold
  · exact .inl hmem
  · cases hgone

end Lock.Manager

namespace Database

variable {σ : Type} {db mid db' : Database σ} {i j : TaskId} {op : Operation} {me : Lock.Holder}
  {t u : TransactionId} {txn txn' : Transaction} {stand stand' : Stand} {writes : List WriteEntry}
  {held : Option TaskId} {m : Lock.Manager} {mine : Lock.Ticket → Prop} {c : ConnectionId}
  {task : Task}

/-- Whether an operation is attended to where it stands: it is in line, or queued for a lock, or
parked with its transaction, or it is over. -/
def Stirs (db : Database σ) (i : TaskId) (me : Lock.Holder) : Stand → Prop
  | .locking _ w => db.locks.Queues me w ∨ db.locks.Tells w.ticket ∧ i ∈ db.ready
  | .draining _ _ =>
    i ∈ db.ready ∨ ∃ txn, db.directory.find? me.txn = some txn ∧ i ∈ txn.parked
  | .finished _ => True
  | .issued | .reading _ | .fetched _ _ | .applying _ _ | .applied _ _ => i ∈ db.ready

/-- Whether a ticket was handed out, and to no other task than `i`. -/
def Apart (db : Database σ) (i : TaskId) (n : Lock.Ticket) : Prop :=
  n < db.locks.nextTicket ∧ ∀ (j : TaskId) task w, j ≠ i → db.tasks[j]? = some task →
    task.waiting? = some w → w.ticket ≠ n

/-- What is known of the request of the operation in hand. -/
def Grasps (db : Database σ) (i : TaskId) (me : Lock.Holder) : Stand → Prop
  | .locking _ w => (db.locks.Queues me w ∨ db.locks.Tells w.ticket) ∧ db.Apart i w.ticket
  | .issued | .reading _ | .fetched _ _ | .draining _ _ | .applying _ _ | .applied _ _
  | .finished _ => True

/-- No operation waits without being attended to, except perhaps one that is held. -/
structure Attended (db : Database σ) (held : Option TaskId) : Prop where
  /-- The tickets stand apart. -/
  tallied : db.locks.Tallied
  /-- The locks and their index agree. -/
  consistent : db.locks.Consistent
  /-- The tickets of the tasks were handed out. -/
  given : ∀ (j : TaskId) task w, db.tasks[j]? = some task → task.waiting? = some w →
    w.ticket < db.locks.nextTicket
  /-- No two tasks have the same ticket. -/
  apart : ∀ (j k : TaskId) task task' w w', db.tasks[j]? = some task → db.tasks[k]? = some task' →
    task.waiting? = some w → task'.waiting? = some w' → w.ticket = w'.ticket → j = k
  /-- Transactions are made for statements only. -/
  opened : ∀ (j : TaskId) (op : Operation), db.tasks[j]? = some (.operation op) → op.opened →
    op.call.isStatement
  /-- The operations are attended to. -/
  stirs : ∀ j op me, some j ≠ held → db.Runs j op me → db.Stirs j me op.stand
  /-- Operations are parked with a transaction only while others are in flight. -/
  parked : ∀ t txn, db.directory.find? t = some txn → txn.parked ≠ [] → txn.inFlight ≠ 0
  /-- A transaction that is aborted has released its locks if operations of it are in flight. -/
  aborting : ∀ t txn, db.directory.find? t = some txn → txn.phase = .aborting →
    txn.inFlight = 0 ∨ t ∈ db.locks.released

/-- An operation stays attended to if it is not taken out of the line, and if its request stays
queued and it stays parked or it is in line then. -/
theorem Stirs.mono (h : db.Stirs j me stand) (hready : j ∈ db.ready → j ∈ db'.ready)
    (hqueues : ∀ target w, stand = .locking target w → db.locks.Queues me w →
      db'.locks.Queues me w ∨ db'.locks.Tells w.ticket ∧ j ∈ db'.ready)
    (htells : ∀ n, db.locks.Tells n → db'.locks.Tells n)
    (hparked : ∀ txn, db.directory.find? me.txn = some txn → j ∈ txn.parked →
      j ∈ db'.ready ∨ ∃ txn', db'.directory.find? me.txn = some txn' ∧ j ∈ txn'.parked) :
    db'.Stirs j me stand := by
  cases stand with
  | locking target w =>
    rcases h with hqueued | ⟨htold, hmem⟩
    · exact hqueues target w rfl hqueued
    · exact .inr ⟨htells w.ticket htold, hready hmem⟩
  | draining purpose result =>
    rcases h with hmem | ⟨txn, hfound, hmem⟩
    · exact .inl (hready hmem)
    · exact hparked txn hfound hmem
  | finished result => trivial
  | issued => exact hready h
  | reading target => exact hready h
  | fetched target row => exact hready h
  | applying plan result => exact hready h
  | applied errors result => exact hready h

/-- Whoever is put in line stands there. -/
theorem mem_ready_wake {woken : List TaskId} (h : j ∈ woken) : j ∈ (db.wake woken).ready := by
  by_cases hready : j ∈ db.ready
  · exact List.mem_append_left _ hready
  · exact List.mem_append_right _ (List.mem_filter.mpr ⟨h, decide_eq_true hready⟩)

namespace Attended

/-- Whether an operation is held makes no difference if all are attended to. -/
theorem hold (h : db.Attended none) (i : TaskId) : db.Attended (some i) :=
  { h with stirs := fun j op me _ => h.stirs j op me nofun }

/-- An operation may be let go if it is attended to. -/
theorem letGo (h : db.Attended (some i))
    (hstirs : ∀ op me, db.Runs i op me → db.Stirs i me op.stand) : db.Attended none := by
  refine { h with stirs := fun j op me _ hruns => ?_ }
  by_cases hj : j = i
  · subst hj
    exact hstirs op me hruns
  · exact h.stirs j op me (fun heq => hj (Option.some.inj heq)) hruns

/-- The ticket of a task is its own. -/
theorem apart_of_waiting (h : db.Attended held) {w : Lock.Waiting}
    (htask : db.tasks[i]? = some task) (hw : task.waiting? = some w) : db.Apart i w.ticket :=
  ⟨h.given i task w htask hw, fun j task' w' hne htask' hw' heq =>
    hne (h.apart j i task' task w' w htask' htask hw' hw heq)⟩

/-- A task is found by its ticket. -/
theorem findIdx?_eq (h : db.Attended held) {w : Lock.Waiting} (htask : db.tasks[j]? = some task)
    (hw : task.waiting? = some w) :
    db.tasks.findIdx? (fun task => task.waitsOn w.ticket) = some j := by
  obtain ⟨hlt, hget⟩ := Array.getElem?_eq_some_iff.mp htask
  refine Array.findIdx?_eq_some_iff_getElem.mpr ⟨hlt, ?_, fun k hk hwaits => ?_⟩
  · rw [hget]
    exact task.waitsOn_iff.mpr ⟨w, hw, rfl⟩
  · obtain ⟨w', hw', hticket⟩ := (Task.waitsOn_iff _).mp hwaits
    have hkj := h.apart k j _ task w' w (Array.getElem?_eq_getElem (Nat.lt_trans hk hlt)) htask hw'
      hw hticket
    exact absurd hkj (Nat.ne_of_lt hk)

/-- An aborted transaction has released its locks under changed locks, too, if these know the same
releases. -/
theorem aborting_of_released (h : db.Attended held) (hreleased : m.released = db.locks.released) :
    ∀ t txn, db.directory.find? t = some txn → txn.phase = .aborting →
      txn.inFlight = 0 ∨ t ∈ m.released := by
  rw [hreleased]
  exact h.aborting

/-! ## Change of state -/

/-- Changed locks may be taken over, if the requests of others have gone on. -/
theorem withLocks (h : db.Attended held) (hproceeds : db.locks.Proceeds m mine)
    (hmine : ∀ (j : TaskId) task w, some j ≠ held → db.tasks[j]? = some task →
      task.waiting? = some w → ¬ mine w.ticket)
    (haborting : ∀ t txn, db.directory.find? t = some txn → txn.phase = .aborting →
      txn.inFlight = 0 ∨ t ∈ m.released) : (db.withLocks m).Attended held where
  tallied := hproceeds.tallied
  consistent := hproceeds.consistent
  given j task w htask hw := Nat.lt_of_lt_of_le (h.given j task w htask hw) hproceeds.nextTicket
  apart := h.apart
  opened := h.opened
  stirs j op me hheld hruns := by
    refine (h.stirs j op me hheld hruns).mono (fun hready => List.mem_append_left _ hready)
      (fun target w hstand hqueues => ?_) (fun _ => hproceeds.follows.tells)
      fun txn hfound hparked => .inr ⟨txn, hfound, hparked⟩
    have hwaiting : (Task.operation op).waiting? = some w := by
      unfold Task.waiting?
      dsimp only
      rw [hstand]
    refine (hproceeds.follows.queues hqueues).imp id fun htold => ⟨htold, ?_⟩
    -- The caller has just been told, and is found by its ticket.
    have huntold : ¬ db.locks.Tells w.ticket :=
      h.tallied.untold w.key w.ticket (List.mem_map_of_mem hqueues)
    have hended := hproceeds.mem_endedSince huntold htold (hmine j _ w hheld hruns.1 hwaiting)
    exact mem_ready_wake (List.mem_filterMap.mpr ⟨_, hended, h.findIdx?_eq hruns.1 hwaiting⟩)
  parked := h.parked
  aborting := haborting

/-- Transactions may change while the locks and the tasks stay, if nobody is taken out of the line
and those who were parked are parked still or in line. -/
theorem change (h : db.Attended held) (hlocks : db'.locks = db.locks)
    (htasks : db'.tasks = db.tasks) (hready : ∀ j ∈ db.ready, j ∈ db'.ready)
    (hkept : ∀ t txn, db.directory.find? t = some txn →
      ∃ txn', db'.directory.find? t = some txn' ∧ ∀ j ∈ txn.parked, j ∈ db'.ready ∨ j ∈ txn'.parked)
    (hnew : ∀ t txn, db'.directory.find? t = some txn →
      (txn.parked ≠ [] → txn.inFlight ≠ 0) ∧
        (txn.phase = .aborting → txn.inFlight = 0 ∨ t ∈ db.locks.released)) :
    db'.Attended held where
  tallied := hlocks ▸ h.tallied
  consistent := hlocks ▸ h.consistent
  given := by
    rw [hlocks, htasks]
    exact h.given
  apart := htasks ▸ h.apart
  opened := htasks ▸ h.opened
  stirs j op me hheld hruns := by
    refine (h.stirs j op me hheld ⟨htasks ▸ hruns.1, hruns.2⟩).mono (hready j)
      (fun _ _ _ hqueues => .inl (hlocks ▸ hqueues)) (fun _ htold => hlocks ▸ htold)
      fun txn hfound hparked => ?_
    obtain ⟨txn', hfound', hstill⟩ := hkept me.txn txn hfound
    exact (hstill j hparked).imp id fun hparked => ⟨txn', hfound', hparked⟩
  parked t txn hfound := (hnew t txn hfound).1
  aborting t txn hfound haborting := hlocks ▸ (hnew t txn hfound).2 haborting

/-- What concerns neither locks nor tasks nor transactions may change, and the line may grow. -/
theorem of_eq (h : db.Attended held) (hlocks : db'.locks = db.locks) (htasks : db'.tasks = db.tasks)
    (hready : ∀ j ∈ db.ready, j ∈ db'.ready)
    (hfind : db'.directory.find? = db.directory.find?) : db'.Attended held := by
  refine h.change hlocks htasks hready (fun t txn hfound => ⟨txn, hfind ▸ hfound, fun _ => .inr⟩)
    fun t txn hfound => ?_
  rw [hfind] at hfound
  exact ⟨h.parked t txn hfound, h.aborting t txn hfound⟩

/-- Tasks may be put in line. -/
theorem wake (h : db.Attended held) (woken : List TaskId) : (db.wake woken).Attended held :=
  h.of_eq rfl rfl (fun _ => List.mem_append_left _) rfl

/-- A transaction may change. -/
theorem set (h : db.Attended held) (hfound : db.directory.find? t = some txn)
    (txn' : Transaction)
    (hfind : ∀ u, db'.directory.find? u = if t = u then some txn' else db.directory.find? u)
    (hlocks : db'.locks = db.locks) (htasks : db'.tasks = db.tasks)
    (hready : ∀ j ∈ db.ready, j ∈ db'.ready)
    (hkept : ∀ j ∈ txn.parked, j ∈ db'.ready ∨ j ∈ txn'.parked)
    (hparked : txn'.parked ≠ [] → txn'.inFlight ≠ 0)
    (haborting : txn'.phase = .aborting → txn'.inFlight = 0 ∨ t ∈ db.locks.released) :
    db'.Attended held := by
  refine h.change hlocks htasks hready (fun u found hu => ?_) fun u found hu => ?_
  · rw [hfind]
    split
    · rename_i heq
      subst heq
      rw [hfound] at hu
      cases hu
      exact ⟨txn', rfl, hkept⟩
    · exact ⟨found, hu, fun _ => .inr⟩
  · rw [hfind] at hu
    split at hu
    · rename_i heq
      subst heq
      cases hu
      exact ⟨hparked, haborting⟩
    · exact ⟨h.parked u found hu, h.aborting u found hu⟩

/-- A transaction may be placed. -/
theorem place (h : db.Attended held) (ts : Timestamp) (clock : Clock) (origin : Origin) :
    (db.placed c ts clock origin).Attended held := by
  refine h.change rfl rfl (fun _ => id) (fun t txn hfound => ?_) fun t txn hfound => ?_
  · exact ⟨txn, Directory.find?_place_of_some _ _ hfound, fun _ => .inr⟩
  · have hfound := (Directory.find?_place ..).symm.trans hfound
    split at hfound
    · cases hfound
      exact ⟨fun hparked => absurd rfl hparked, nofun⟩
    · exact ⟨h.parked t txn hfound, h.aborting t txn hfound⟩

/-- A task may be put down where it is attended to, with a ticket of its own if it waits for a lock.
-/
theorem setTask (h : db.Attended (some i)) (task : Task)
    (hapart : ∀ w, task.waiting? = some w → db.Apart i w.ticket)
    (hopened : ∀ op, task = .operation op → op.opened → op.call.isStatement)
    (hstirs : ∀ op me, task = .operation op → op.holder = some me → db.Stirs i me op.stand) :
    ({ db with tasks := db.tasks.setIfInBounds i task } : Database σ).Attended none := by
  -- A task that is found afterwards is the one that was put down, or it was there before.
  have hcases : ∀ {j : TaskId} {task' : Task},
      ({ db with tasks := db.tasks.setIfInBounds i task } : Database σ).tasks[j]? = some task' →
        j = i ∧ task' = task ∨ j ≠ i ∧ db.tasks[j]? = some task' := by
    intro j task' htask
    have htask := Array.getElem?_setIfInBounds.symm.trans htask
    split at htask
    · rename_i heq
      split at htask
      · cases htask
        exact .inl ⟨heq.symm, rfl⟩
      · cases htask
    · rename_i hne
      exact .inr ⟨Ne.symm hne, htask⟩
  refine ⟨h.tallied, h.consistent, fun j task' w htask hw => ?_,
    fun j k task₁ task₂ w₁ w₂ htask₁ htask₂ hw₁ hw₂ heq => ?_, fun j op htask hop => ?_,
    fun j op me _ hruns => ?_, h.parked, h.aborting⟩
  · rcases hcases htask with ⟨-, rfl⟩ | ⟨-, htask⟩
    · exact (hapart w hw).1
    · exact h.given j task' w htask hw
  · rcases hcases htask₁ with ⟨hj, rfl⟩ | ⟨hj, hold₁⟩
    · rcases hcases htask₂ with ⟨hk, -⟩ | ⟨hk, hold₂⟩
      · exact hj.trans hk.symm
      · exact absurd heq.symm ((hapart w₁ hw₁).2 k task₂ w₂ hk hold₂ hw₂)
    · rcases hcases htask₂ with ⟨-, rfl⟩ | ⟨-, hold₂⟩
      · exact absurd heq ((hapart w₂ hw₂).2 j task₁ w₁ hj hold₁ hw₁)
      · exact h.apart j k task₁ task₂ w₁ w₂ hold₁ hold₂ hw₁ hw₂ heq
  · rcases hcases htask with ⟨-, heq⟩ | ⟨-, htask⟩
    · exact hopened op heq.symm hop
    · exact h.opened j op htask hop
  · rcases hcases hruns.1 with ⟨rfl, heq⟩ | ⟨hne, htask⟩
    · exact hstirs op me heq.symm hruns.2
    · exact h.stirs j op me (fun heq => hne (Option.some.inj heq)) ⟨htask, hruns.2⟩

/-- A task that waits for no lock may be added, and is then held. -/
theorem push (h : db.Attended none) (task : Task) (hwaiting : task.waiting? = none)
    (hopened : ∀ op, task = .operation op → op.opened → op.call.isStatement) :
    (db.push task).Attended (some db.tasks.size) := by
  have hcases : ∀ {j : TaskId} {task' : Task} {w : Lock.Waiting},
      (db.push task).tasks[j]? = some task' → task'.waiting? = some w →
        db.tasks[j]? = some task' := by
    intro j task' w htask hw
    rcases getElem?_push_cases htask with rfl | htask
    · rw [hwaiting] at hw
      cases hw
    · exact htask
  refine ⟨h.tallied, h.consistent, fun j task' w htask hw => h.given j task' w (hcases htask hw) hw,
    fun j k task₁ task₂ w₁ w₂ htask₁ htask₂ hw₁ hw₂ => ?_, fun j op htask hop => ?_,
    fun j op me hne hruns => ?_, h.parked, h.aborting⟩
  · exact h.apart j k task₁ task₂ w₁ w₂ (hcases htask₁ hw₁) (hcases htask₂ hw₂) hw₁ hw₂
  · rcases getElem?_push_cases htask with heq | htask
    · exact hopened op heq.symm hop
    · exact h.opened j op htask hop
  · have hop := Array.getElem?_push.symm.trans hruns.1
    split at hop
    · rename_i hj
      exact absurd (congrArg some hj) hne
    · exact h.stirs j op me nofun ⟨hop, hruns.2⟩

/-- A task leaves the line when it is given a turn. -/
theorem erase (h : db.Attended none) (i : TaskId) :
    ({ db with ready := db.ready.erase i } : Database σ).Attended (some i) := by
  refine { h with stirs := fun j op me hne hruns => ?_ }
  refine (h.stirs j op me nofun hruns).mono (fun hmem => ?_) (fun _ _ _ => .inl) (fun _ => id)
    fun txn hfound hparked => .inr ⟨txn, hfound, hparked⟩
  exact (List.mem_erase_of_ne fun heq => hne (congrArg some heq)).mpr hmem

end Attended

/-- What is known of a request stays known when others have gone on. -/
theorem Grasps.withLocks (h : db.Grasps i me stand) (hproceeds : db.locks.Proceeds m mine) :
    (db.withLocks m).Grasps i me stand := by
  cases stand with
  | locking target w =>
    obtain ⟨hrequest, hgiven, hothers⟩ := h
    refine ⟨?_, Nat.lt_of_lt_of_le hgiven hproceeds.nextTicket, hothers⟩
    rcases hrequest with hqueues | htold
    · exact hproceeds.follows.queues hqueues
    · exact .inr (hproceeds.follows.tells htold)
  | issued => trivial
  | reading target => trivial
  | fetched target row => trivial
  | draining purpose result => trivial
  | applying plan result => trivial
  | applied errors result => trivial
  | finished result => trivial

/-- What an operation knows of its request when it is given a turn. -/
theorem Attended.grasps (h : db.Attended none) (hruns : db.Runs i op me) :
    db.Grasps i me op.stand := by
  have hstirs := h.stirs i op me nofun hruns
  cases hstand : op.stand with
  | locking target w =>
    rw [hstand] at hstirs
    refine ⟨hstirs.imp id And.left, h.apart_of_waiting hruns.1 ?_⟩
    unfold Task.waiting?
    dsimp only
    rw [hstand]
  | issued => trivial
  | reading target => trivial
  | fetched target row => trivial
  | draining purpose result => trivial
  | applying plan result => trivial
  | applied errors result => trivial
  | finished result => trivial

/-- An operation that ends its transaction's life has no request. -/
theorem Ends.grasps (h : db.Ends t stand) : db'.Grasps i me stand := by
  cases stand with
  | locking target w => cases h
  | issued => trivial
  | reading target => trivial
  | fetched target row => trivial
  | draining purpose result => trivial
  | applying plan result => trivial
  | applied errors result => trivial
  | finished result => trivial

/-! ## Moves -/

namespace Attended

/-- An operation may leave its transaction. The last one to leave puts those who are parked in line.
-/
theorem leave (h : db.Attended held) (hfound : db.directory.find? t = some txn) :
    (db.leave t).Attended held := by
  have heq : db.leave t =
      (db.withDirectory (db.directory.set t txn.deregister.1)).wake txn.deregister.2 := by
    unfold Database.leave
    rw [hfound]
  have hwoken : ∀ j ∈ txn.deregister.2, j ∈ (db.leave t).ready := by
    intro j hj
    rw [heq]
    exact mem_ready_wake hj
  rw [heq] at hwoken ⊢
  have hparked := h.parked t txn hfound
  have haborting := h.aborting t txn hfound
  -- If this operation is the last one, all who are parked are woken; otherwise they stay parked,
  -- and others are in flight still.
  refine h.set hfound _ (Directory.find?_set hfound _) rfl rfl (fun _ => List.mem_append_left _)
    (fun j hj => ?_) (fun hstill => ?_) fun hphase => ?_
  · unfold Transaction.deregister at hwoken ⊢
    split
    · rename_i hlast
      rw [if_pos hlast] at hwoken
      exact .inl (hwoken j hj)
    · exact .inr hj
  · unfold Transaction.deregister at hstill ⊢
    split
    · rename_i hlast
      rw [if_pos hlast] at hstill
      exact absurd rfl hstill
    · rename_i hmore
      rw [if_neg hmore] at hstill
      have hbusy := hparked hstill
      show txn.inFlight - 1 ≠ 0
      omega
  · rw [txn.deregister_spec.2.1] at hphase
    rw [txn.inFlight_deregister]
    exact (haborting hphase).imp (fun hidle => by rw [hidle]) id

/-- Locks may be released. -/
theorem releaseLocks (h : db.Attended held) (t : TransactionId) :
    (db.releaseLocks t).Attended held := by
  have hproceeds : db.locks.Proceeds (db.locks.release t) fun _ => False :=
    h.tallied.proceeds_release h.consistent t
  refine h.withLocks hproceeds (fun _ _ _ _ _ _ => id) fun u txn hfound hphase => ?_
  exact (h.aborting u txn hfound hphase).imp id fun hreleased =>
    (db.locks.mem_released_release t).mpr (.inl hreleased)

/-- A release may be forgotten when no operation of an aborted transaction is in flight. -/
theorem forgetLocks (h : db.Attended held)
    (hidle : ∀ txn, db.directory.find? t = some txn → txn.phase = .aborting → txn.inFlight = 0) :
    (db.forgetLocks t).Attended held := by
  have heq : db.withLocks (db.locks.forget t) = db.forgetLocks t := withLocks_of_resolved rfl
  have hproceeds : db.locks.Proceeds (db.locks.forget t) fun _ => False :=
    h.tallied.proceeds_forget h.consistent t
  rw [← heq]
  refine h.withLocks hproceeds (fun _ _ _ _ _ _ => id) fun u txn hfound hphase => ?_
  by_cases hu : u = t
  · subst hu
    exact .inl (hidle txn hfound hphase)
  · exact (h.aborting u txn hfound hphase).imp id fun hreleased =>
      List.mem_filter.mpr ⟨hreleased, decide_eq_true hu⟩

/-- A transaction may move out of its active life, unless that is to abort. -/
theorem turnTo {target : Phase} (h : db.Attended held) (hturn : db.turnTo t target = .ok db')
    (hother : target ≠ .aborting) : db'.Attended held := by
  obtain ⟨txn, hfound, -, rfl⟩ := turnTo_ok hturn
  exact h.set hfound _ (Directory.find?_set hfound _) rfl rfl (fun _ => id) (fun _ => .inr)
    (h.parked t txn hfound) fun hphase => absurd hphase hother

/-- A transaction may move on to abort if it releases its locks at once. -/
theorem discard (h : db.Attended held) (hturn : db.turnTo t .aborting = .ok db') :
    (db'.releaseLocks t).Attended held := by
  obtain ⟨txn, hfound, -, rfl⟩ := turnTo_ok hturn
  have hreleased := (db.locks.mem_released_release t).mpr (.inr rfl)
  have hset : ((db.releaseLocks t).withDirectory
      (db.directory.set t { txn with phase := .aborting })).Attended held :=
    (h.releaseLocks t).set hfound _ (Directory.find?_set hfound _) rfl rfl (fun _ => id)
      (fun _ => .inr) (h.parked t txn hfound) fun _ => .inr hreleased
  exact hset

/-- An operation may be parked while others are in flight. -/
theorem park (h : db.Attended held) (hfound : db.directory.find? t = some txn)
    (hbusy : txn.inFlight ≠ 0) (i : TaskId) :
    (db.withDirectory (db.directory.set t (txn.awaitIdle i).1)).Attended held := by
  obtain ⟨hphase, hinFlight, -⟩ := txn.awaitIdle_spec i
  refine h.set hfound _ (Directory.find?_set hfound _) rfl rfl (fun _ => id) (fun j hj => .inr ?_)
    (fun _ => hinFlight.symm ▸ hbusy) fun haborting => ?_
  · unfold Transaction.awaitIdle
    split
    · exact hj
    · split
      · exact hj
      · exact List.mem_append_left _ hj
  · rw [hinFlight]
    exact h.aborting t txn hfound (hphase.symm.trans haborting)

/-- A discarded transaction may be replaced. -/
theorem replace {restart : Bool} {result : Result} (h : db.Attended held)
    (hturn : db.InTurn i op me (.draining (.discard restart) result)) (c : ConnectionId) :
    (db.replace c me.txn).1.Attended held := by
  obtain ⟨txn, hfound, -⟩ := hturn.found
  by_cases hattached : db.attached.get? c = some me.txn
  · have hagree := hturn.lifecycle.attached c
    rw [directory_setStand, attached_setStand, hattached] at hagree
    rw [replace_eq hattached hagree.symm hfound]
    have hcleared : (db.withDirectory
        (db.directory.set me.txn { txn with log := .empty })).Attended held :=
      h.set hfound _ (Directory.find?_set hfound _) rfl rfl (fun _ => id) (fun _ => .inr)
        (h.parked me.txn txn hfound) (h.aborting me.txn txn hfound)
    exact hcleared.place ..
  · have hsame : (db.replace c me.txn).1 = db := by
      unfold Database.replace
      rw [if_neg hattached]
    rw [hsame]
    exact h

end Attended

section

variable [Backend σ]

omit [Backend σ] in
/-- A statement may ask for the lock of its row. -/
theorem Attended.ask {target : Target} {k : Lock.Key} {a : Lock.Acquisition}
    (h : db.Attended (some i)) (hasked : db.locks.acquire db.now .write me k = (m, a)) :
    (db.withLocks m).Attended (some i) ∧
      (db.withLocks m).Grasps i me (a.standAt target .issued) := by
  have hproceeds := h.tallied.proceeds_acquire h.consistent db.now .write me k
  have hreleased := db.locks.released_acquire db.now .write me k
  rw [hasked] at hproceeds hreleased
  have hothers : ∀ (j : TaskId) task w, db.tasks[j]? = some task → task.waiting? = some w →
      w.ticket ≠ db.locks.nextTicket :=
    fun j task w htask hw => Nat.ne_of_lt (h.given j task w htask hw)
  refine ⟨h.withLocks hproceeds (fun j task w _ => hothers j task w)
    (h.aborting_of_released hreleased), ?_⟩
  · cases a with
    | answered answer => trivial
    | waiting w =>
      have hparked := Lock.Manager.acquire_waiting hasked
      refine ⟨.inl ?_, hparked.ticket ▸ hparked.given, fun j task w' _ htask hw' => ?_⟩
      · show (⟨me, .write, w.ticket, true⟩ : Lock.Waiter) ∈ (m.lockOf w.key).queue
        rw [hparked.key]
        exact hparked.queued
      · rw [hparked.ticket]
        exact hothers j task w' htask hw'

omit [Backend σ] in
/-- A statement may look for the answer. -/
theorem Attended.look {target : Target} {w : Lock.Waiting} {a : Lock.Acquisition}
    (h : db.Attended (some i)) (hgrasps : db.Grasps i me (.locking target w))
    (hlooked : db.locks.poll db.now w = (m, a)) :
    (db.withLocks m).Attended (some i) ∧
      (db.withLocks m).Grasps i me (a.standAt target (.locking target w)) := by
  have hproceeds := h.tallied.proceeds_poll h.consistent db.now w
  have hreleased := db.locks.released_poll db.now w
  rw [hlooked] at hproceeds hreleased
  have hothers := hgrasps.2.2
  refine ⟨h.withLocks hproceeds (fun j task w' hne htask hw' => ?_)
    (h.aborting_of_released hreleased), ?_⟩
  · exact hothers j task w' (fun heq => hne (congrArg some heq)) htask hw'
  · cases a with
    | answered answer => exact hgrasps.withLocks hproceeds
    | waiting w' =>
      obtain ⟨-, rfl, -⟩ := Lock.Manager.poll_waiting hlooked
      exact hgrasps.withLocks hproceeds

/-- A move leaves nobody unattended. -/
theorem Move.attended (hmove : Move i op me db stand writes db' stand')
    (hturn : db.InTurn i op me stand) (h : db.Attended (some i)) (hgrasps : db.Grasps i me stand) :
    db'.Attended (some i) ∧ db'.Grasps i me stand' := by
  obtain ⟨txn, hfound, -, hfits⟩ := hturn.found
  -- By cases on the move: the locks change in four of them, and a transaction in five; what is left
  -- leaves all that matters alone.
  cases hmove with
  | ask call aims asked => exact h.ask asked
  | look call looked => exact h.look hgrasps looked
  | read call working aims => exact ⟨h, trivial⟩
  | fetch call working aims row => exact ⟨h, trivial⟩
  | @buffer s _ call working target write =>
    refine ⟨?_, hgrasps⟩
    refine h.set hfound { txn with log := txn.log.append target.id s.key write } (fun u => ?_)
      rfl rfl (fun _ => id) (fun _ => .inr) (h.parked me.txn txn hfound)
      (h.aborting me.txn txn hfound)
    exact (Directory.find?_modify ..).trans (by rw [hfound]; rfl)
  | leave call working result => exact ⟨h.leave hfound, trivial⟩
  | tell idle result => exact ⟨h, trivial⟩
  | close idle own attached turned result => exact ⟨h.turnTo turned nofun, trivial⟩
  | discard idle attached turned restart result => exact ⟨h.discard turned, trivial⟩
  | park found busy => exact ⟨h.park found busy i, trivial⟩
  | snapshot found idle => exact ⟨h, trivial⟩
  | apply errors => exact ⟨h.of_eq rfl rfl (fun _ => id) rfl, trivial⟩
  | release => exact ⟨h.releaseLocks _, trivial⟩
  | forget ends =>
    refine ⟨h.forgetLocks fun found hu hphase => ?_, ends.grasps⟩
    rw [hfound] at hu
    cases hu
    -- Only a commit that has been applied, or a discard without operations in flight, comes to this
    -- point.
    cases stand with
    | applied errors result => exact absurd (hfits.1.symm.trans hphase) nofun
    | draining purpose result =>
      cases purpose with
      | commit => cases ends
      | discard restart =>
        obtain ⟨found, hu, hidle⟩ := ends
        rw [hfound] at hu
        cases hu
        exact hidle
    | issued => cases ends
    | locking target w => cases ends
    | reading target => cases ends
    | fetched target row => cases ends
    | applying plan result => cases ends
    | finished result => cases ends
  | separate ends =>
    rw [separate_eq]
    exact ⟨h.of_eq rfl rfl (fun _ => id) rfl, ends.grasps⟩
  | replace ends => exact ⟨h.replace hturn _, ends.grasps⟩
  | retire ends result =>
    refine ⟨?_, trivial⟩
    refine h.set hfound txn.finish (fun u => ?_) rfl rfl (fun _ => id) (fun _ => .inr)
      (h.parked me.txn txn hfound) nofun
    exact (Directory.find?_modify ..).trans (by rw [hfound]; rfl)

omit [Backend σ] in
/-- An operation may be put down where it may wait. -/
theorem Attended.putDown (h : db.Attended (some i)) (hruns : db.Runs i op me)
    (hgrasps : db.Grasps i me stand) (hwaits : db.Waits i me.txn stand) :
    (db.putDown i stand).Attended none := by
  have hset : ∀ (db : Database σ), db.Attended (some i) → db.Runs i op me →
      (∀ w, (Task.operation { op with stand := stand }).waiting? = some w → db.Apart i w.ticket) →
      db.Stirs i me stand → (db.setStand i stand).Attended none := by
    intro db h hruns hapart hstirs
    rw [setStand_eq, modify_eq_set hruns.1]
    refine h.setTask _ hapart (fun op' heq hopened => ?_) fun op' me' heq hholder => ?_
    · cases heq
      exact h.opened i op hruns.1 hopened
    · cases heq
      have hme := hruns.2.symm.trans hholder
      cases hme
      exact hstirs
  -- Who is put in line may as well be before it moves.
  have hline : (Task.operation { op with stand := stand }).waiting? = none →
      ((db.wake [i]).Stirs i me stand) → ((db.setStand i stand).wake [i]).Attended none := by
    intro hwaiting hstirs
    have hcomm : (db.setStand i stand).wake [i] = (db.wake [i]).setStand i stand := by
      rw [setStand_eq, setStand_eq]
      rfl
    rw [hcomm]
    refine hset _ (h.wake [i]) hruns (fun w hw => ?_) hstirs
    rw [hwaiting] at hw
    cases hw
  have hmem : i ∈ (db.wake [i]).ready := mem_ready_wake (List.mem_singleton_self i)
  -- A parked operation is attended to by its request or its transaction, one that is over needs
  -- nobody, and all others are put in line.
  cases stand with
  | issued => cases hwaits
  | locking target w =>
    refine hset db h hruns (fun w' hw' => ?_) (.inl (hgrasps.1.resolve_right ?_))
    · cases hw'
      exact hgrasps.2
    · exact Lock.Manager.not_tells hwaits
  | draining purpose result => exact hset db h hruns nofun (.inr hwaits)
  | finished result => exact hset db h hruns nofun trivial
  | reading target => exact hline rfl hmem
  | fetched target row => exact hline rfl hmem
  | applying plan result => exact hline rfl hmem
  | applied errors result => exact hline rfl hmem

/-- A turn leaves nobody unattended. -/
theorem Leads.attended (hleads : Leads i op me db stand writes db')
    (hturn : db.InTurn i op me stand) (h : db.Attended (some i)) (hgrasps : db.Grasps i me stand) :
    db'.Attended none := by
  obtain ⟨mid, stand', hmoves, hwaits, rfl⟩ := hleads
  obtain ⟨hmid, hgrasps'⟩ := hmoves.keeps
    (P := fun mid stand => mid.Attended (some i) ∧ mid.Grasps i me stand)
    (fun move hturn hmid => move.attended hturn hmid.1 hmid.2) hturn ⟨h, hgrasps⟩
  exact hmid.putDown (hmoves.inTurn hturn).runs hgrasps' hwaits

/-! ## Runs -/

omit [Backend σ] in
/-- A task that is over or waits for nobody may be added. -/
theorem Attended.push_over (h : db.Attended none) (task : Task)
    (htask : ∀ op, task = .operation op → op.opened = false ∧ ∃ result, op.stand = .finished result)
    (hwaiting : task.waiting? = none) : (db.push task).Attended none := by
  refine (h.push task hwaiting fun op heq hopened => ?_).letGo fun op me hruns => ?_
  · rw [(htask op heq).1] at hopened
    cases hopened
  · have hop := Array.getElem?_push_size.symm.trans hruns.1
    cases hop
    obtain ⟨-, result, hstand⟩ := htask op rfl
    rw [hstand]
    trivial

omit [Backend σ] in
/-- A transaction may be started. -/
theorem Attended.start (h : db.Attended none) (c : ConnectionId) (origin : Origin) :
    (db.start c origin).2.Attended none := by
  rcases db.start_cases c origin with hcurrent | ⟨e, heq⟩
  · rw [start_eq hcurrent]
    exact h.place db.clock.read.1 db.clock.read.2 origin
  · rw [heq]
    exact h.of_eq rfl rfl (fun _ => id) rfl

omit [Backend σ] in
/-- A connection may be attached. -/
theorem Attended.attach (h : db.Attended none) (c : ConnectionId) :
    (db.attach c).2.Attended none := by
  rcases db.attach_cases c with heq | heq
  · rw [heq]
    exact h
  · rw [heq]
    exact h.start c .implicit

omit [Backend σ] in
/-- A statement may be issued. -/
theorem Attended.statement (h : db.Attended none) (c : ConnectionId) (s : Statement) :
    (db.submit c (.statement s)).Attended none := by
  have hattach := h.attach c
  rcases db.submit_statement_cases c s with ⟨e, heq⟩ | ⟨t, opened, txn, -, hfound, hactive, heq⟩
  · rw [heq]
    refine hattach.push_over _ (fun op hop => ?_) rfl
    cases hop
    exact ⟨rfl, _, rfl⟩
  · rw [heq]
    have hentered : ((db.attach c).2.withDirectory ((db.attach c).2.directory.set t
        { txn with inFlight := txn.inFlight + 1 })).Attended none :=
      hattach.set hfound _ (Directory.find?_set hfound _) rfl rfl (fun _ => id) (fun _ => .inr)
        (fun _ => Nat.succ_ne_zero _) fun hphase => absurd (hactive.symm.trans hphase) nofun
    have hpushed := (hentered.push (.operation ⟨c, .statement s, some txn.holder, opened, .issued⟩)
      rfl fun op hop _ => by cases hop; rfl).wake [(db.attach c).2.tasks.size]
    rw [← db.tasks_attach c]
    refine hpushed.letGo fun op me hruns => ?_
    have hop := Array.getElem?_push_size.symm.trans hruns.1
    cases hop
    exact mem_ready_wake (List.mem_singleton_self _)

/-- A call that finishes a transaction may be made. -/
theorem Attended.finisher (h : db.Attended none) (hlifecycle : db.Lifecycle)
    (htwoPhase : db.TwoPhase) {call : Call} (hcall : call.isStatement = false) (c : ConnectionId) :
    (db.submit c call).Attended none := by
  rcases hlifecycle.submit_cases htwoPhase hcall c with
    ⟨-, result, heq⟩ | ⟨me, hholder, hknown, hleads⟩
  · rw [heq]
    refine h.push_over _ (fun op hop => ?_) rfl
    cases hop
    exact ⟨rfl, _, rfl⟩
  · have hturn := hlifecycle.take ⟨c, call, some me, false, .issued⟩ rfl hknown (.ok none)
    have hpushed := h.push (.operation ⟨c, call, some me, false, .issued⟩) rfl
      fun op hop hopened => by cases hop; cases hopened
    refine (hleads (.ok none)).attended ?_ ?_ trivial
    · exact (issue_eq hholder call).symm ▸ hturn
    · exact (issue_eq hholder call).symm ▸ hpushed

omit [Backend σ] in
/-- A bare request may have a turn. -/
theorem Attended.runRequest {r : Lock.Request} (h : db.Attended none)
    (hr : db.tasks[i]? = some (.request r)) {stage : Lock.Stage}
    (hrun : r.run db.locks db.now = (m, stage)) :
    (({ db with tasks := db.tasks.setIfInBounds i (.request { r with stage := stage }) } :
      Database σ).withLocks m).Attended none := by
  have hproceeds := h.tallied.proceeds_run h.consistent db.now r
  have hreleased := db.locks.released_run db.now r
  rw [hrun] at hproceeds hreleased
  have haborting := h.aborting_of_released hreleased
  -- The request takes a new ticket or looks under its own, and no other task has either.
  have hothers : ∀ (j : TaskId) task w, j ≠ i → db.tasks[j]? = some task → task.waiting? = some w →
      ¬ (w.ticket = db.locks.nextTicket ∨ r.waitsOn w.ticket) := by
    rintro j task w hne htask hw (hnext | hwaits)
    · exact absurd hnext (Nat.ne_of_lt (h.given j task w htask hw))
    · obtain ⟨w', hw', hticket⟩ := (Task.request r).waitsOn_iff.mp hwaits
      exact hne (h.apart j i task _ w w' htask hr hw hw' hticket.symm)
  -- If the request is queued the locks are taken over before it moves, since only they know its
  -- ticket. If it is over it moves first, since others may be told then.
  by_cases hwaiting : ∃ w, stage = .waiting w
  · obtain ⟨w, rfl⟩ := hwaiting
    obtain ⟨hresolved, hticket⟩ := Lock.Manager.run_waiting hrun
    have hlocks := (h.hold i).withLocks hproceeds
      (fun j task w hne => hothers j task w fun heq => hne (congrArg some heq)) haborting
    have hmine : w.ticket < m.nextTicket ∧
        (w.ticket = db.locks.nextTicket ∨ r.waitsOn w.ticket) := by
      rcases hticket with ⟨hnext, hgiven⟩ | ⟨hwaits, rfl⟩
      · exact ⟨hgiven, .inl hnext⟩
      · obtain ⟨w', hw', hticket⟩ := (Task.request r).waitsOn_iff.mp hwaits
        exact ⟨hticket ▸ h.given i _ w' hr hw', .inr hwaits⟩
    rw [withLocks_of_resolved hresolved] at hlocks
    have hmoved : ({ db with
        tasks := db.tasks.setIfInBounds i (.request { r with stage := .waiting w }) } :
          Database σ).withLocks m = { db with
        tasks := db.tasks.setIfInBounds i (.request { r with stage := .waiting w })
        locks := m } :=
      withLocks_of_resolved hresolved
    rw [hmoved]
    refine hlocks.setTask _ (fun w' hw' => ?_) (fun _ heq => nomatch heq) fun _ _ heq => nomatch heq
    cases hw'
    refine ⟨hmine.1, fun j task w' hne htask hw' heq => hothers j task w' hne htask hw' ?_⟩
    rw [heq]
    exact hmine.2
  · have hnone : (Task.request { r with stage := stage }).waiting? = none := by
      unfold Task.waiting?
      cases stage with
      | waiting w => exact absurd ⟨w, rfl⟩ hwaiting
      | issued => rfl
      | answered answer => rfl
      | cancelled => rfl
    -- Whoever the request's end lets go on is told when the locks are taken over.
    have hset := (h.hold i).setTask (.request { r with stage := stage })
      (fun w hw => by rw [hnone] at hw; cases hw) (fun _ heq => nomatch heq)
      fun _ _ heq => nomatch heq
    refine hset.withLocks hproceeds (fun j task w _ htask hw => ?_) haborting
    have htask := Array.getElem?_setIfInBounds.symm.trans htask
    split at htask
    · split at htask
      · cases htask
        rw [hnone] at hw
        cases hw
      · cases htask
    · rename_i hne
      exact hothers j task w (Ne.symm hne) htask hw

/-- A turn may be given to any task. -/
theorem Attended.resume (h : db.Attended none) (hlifecycle : db.Lifecycle) (i : TaskId) :
    (db.resume i).Attended none := by
  have hturn := h.erase i
  have hidle : (∀ op me, db.Runs i op me → ∃ result, op.stand = .finished result) →
      ({ db with ready := db.ready.erase i } : Database σ).Attended none := by
    intro hover
    refine hturn.letGo fun op me hruns => ?_
    obtain ⟨result, hstand⟩ := hover op me hruns
    rw [hstand]
    trivial
  rcases db.resume_cases i with ⟨op, me, hruns⟩ | ⟨r, hr⟩ | ⟨hnone, heq⟩
  · rcases hlifecycle.resume_cases hruns with ⟨heq, hover⟩ | ⟨-, hleads⟩
    · rw [heq]
      refine hidle fun op' me' hruns' => ?_
      obtain ⟨rfl, -⟩ := hruns.unique hruns'
      exact hover
    · exact hleads.attended (hlifecycle.inTurn hruns) hturn (h.grasps hruns)
  · rw [resume_eq_of_request hr]
    refine Attended.runRequest (hidle fun op me hruns => ?_) hr rfl
    rw [hruns.1] at hr
    cases hr
  · rw [heq]
    exact hidle fun op me hruns => absurd hruns (hnone op me)

/-- Every action leaves nobody unattended. -/
theorem Attended.perform (h : db.Attended none) (hlifecycle : db.Lifecycle)
    (htwoPhase : db.TwoPhase) (action : Action σ) : (db.perform action).Attended none := by
  -- Only calls and turns touch tasks, transactions and locks together; what else happens puts
  -- nobody in need of attention.
  cases action with
  | connect => exact h.of_eq rfl rfl (fun _ => id) rfl
  | createTable table =>
    show (db.createTable table).2.Attended none
    obtain ⟨store, registry, heq⟩ := db.exists_createTable table
    rw [heq]
    exact h.of_eq rfl rfl (fun _ => id) rfl
  | dropTable name =>
    show (db.dropTable name).2.Attended none
    obtain ⟨registry, heq⟩ := db.exists_dropTable name
    rw [heq]
    exact h.of_eq rfl rfl (fun _ => id) rfl
  | beginTransaction c =>
    show (db.beginTransaction c).2.Attended none
    rcases db.beginTransaction_cases c with heq | heq
    · rw [heq]
      exact h
    · rw [heq]
      exact h.start c .explicit
  | submit c call =>
    show (db.submit c call).Attended none
    cases call with
    | statement s => exact h.statement c s
    | commit => exact h.finisher hlifecycle htwoPhase rfl c
    | rollback => exact h.finisher hlifecycle htwoPhase rfl c
    | disconnect => exact h.finisher hlifecycle htwoPhase rfl c
  | requestLock mode holder key =>
    have hpushed := h.push_over (.request ⟨mode, holder, key, .issued⟩)
      (fun _ heq => by cases heq) rfl
    exact hpushed.wake _
  | resume i => exact h.resume hlifecycle i
  | reach instant => exact h.of_eq rfl rfl (fun _ => id) rfl

end

end Database

end TxStore
