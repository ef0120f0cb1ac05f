import TxStore.Proofs.Database.Seclusion
import TxStore.Proofs.Lock.Footprint

/-!
# Every queued request has a caller

A waiting operation has a request in a lock queue as long as nobody has told it anything
(`Attended`). Here is the converse: a request that is queued is that of an operation that waits
under its ticket (`Awaited`). So no queue keeps a request of a statement that is over, and a
transaction on a connection whose calls are all over waits for no lock (`Awaited.not_queued`).

An operation leaves its request behind in no turn: it finds the word that has ended it, or ends it
itself since its deadline has passed, or waits on. For this it does not matter what the statement
does with its lock, as it asks for no other in the same turn.
-/

namespace TxStore.Database

variable {σ : Type} {db db' : Database σ} {i j : TaskId} {op : Operation} {me : Lock.Holder}
  {stand stand' : Stand} {writes : List WriteEntry} {k : Lock.Key} {v : Lock.Waiter}
  {c : ConnectionId} {clock : Clock} {s : Statement} {target : Target} {ending : Ending}

/-- Every queued request is that of an operation that waits under its ticket. -/
def Awaited (db : Database σ) : Prop :=
  ∀ k, ∀ v ∈ (db.locks.lockOf k).queue, ∃ j op me target w,
    db.Runs j op me ∧ op.stand = .locking target w ∧ w.ticket = v.ticket

/-- No request is queued in a new database. -/
theorem awaited_new (config : Config) (clock : Clock) (hasher : Hasher) :
    (new config clock hasher : Database σ).Awaited :=
  fun _ _ hv => nomatch hv

section

variable [Backend σ] {action : Action σ}

/-! ## How a statement begins -/

/-- How the body of a statement ends that does not get as far as to its lock: its table is not
there, or the row does not fit it. -/
def rejection? (db : Database σ) (s : Statement) : Option Ending :=
  match db.registry.lookUp s.table with
  | .error e => some (.failed (.one e))
  | .ok (_, entry) =>
    match db.store[entry.table]? with
    | none => some (.failed (.one (.tableNotFound s.table)))
    | some table =>
      match Backend.validate table s.key s.value? with
      | .failed e => some (.failed (.one (.table e)))
      | .broken text => some (.broken text)
      | .done () => none

/-- A statement that is rejected is concluded at once. -/
theorem begin_of_rejection (h : db.rejection? s = some ending) :
    db.begin i op me s = db.conclude i op me.txn ending := by
  unfold rejection? at h
  unfold Database.begin
  cases hlook : db.registry.lookUp s.table with
  | error e =>
    rw [hlook] at h
    cases h
    rfl
  | ok found =>
    rw [hlook] at h
    dsimp only at h ⊢
    cases hstore : db.store[found.2.table]? with
    | none =>
      rw [hstore] at h
      cases h
      rfl
    | some table =>
      rw [hstore] at h
      dsimp only at h ⊢
      cases hvalid : Backend.validate table s.key s.value? with
      | failed e =>
        rw [hvalid] at h
        cases h
        rfl
      | broken text =>
        rw [hvalid] at h
        cases h
        rfl
      | done checked =>
        rw [hvalid] at h
        cases h

/-- So its body ends. -/
theorem bodyEnding?_of_rejection (hcall : op.call = .statement s) (hstand : op.stand = .issued)
    (h : db.rejection? s = some ending) : db.bodyEnding? op me = some ending := by
  rw [← h]
  unfold rejection? at h
  unfold bodyEnding? rejection?
  rw [hcall]
  dsimp only
  rw [hstand]
  dsimp only
  cases hlook : db.registry.lookUp s.table with
  | error e => rfl
  | ok found =>
    rw [hlook] at h
    dsimp only at h ⊢
    cases hstore : db.store[found.2.table]? with
    | none => rfl
    | some table =>
      rw [hstore] at h
      dsimp only at h ⊢
      cases hvalid : Backend.validate table s.key s.value? with
      | failed e => rfl
      | broken text => rfl
      | done checked =>
        rw [hvalid] at h
        cases h

/-- Any other one asks for the lock of its row. -/
theorem begin_of_accepted (i : TaskId) (me : Lock.Holder) (h : db.rejection? s = none) :
    ∃ target : Target, target.id = db.registry.tableId s.table ∧
      db.begin i op me s = db.acquired i op me.txn s target
        (db.locks.acquire db.now .write me (s.place db.registry)) ∧
      (op.call = .statement s → op.stand = .issued → db.bodyEnding? op me =
        db.acquiredEnding? me.txn target s
          (db.locks.acquire db.now .write me (s.place db.registry)).2) := by
  unfold rejection? at h
  -- The turn and what it is expected to come to make the same checks in the same order; each must
  -- pass, or the statement would have been rejected.
  unfold Database.begin bodyEnding?
  cases hlook : db.registry.lookUp s.table with
  | error e =>
    rw [hlook] at h
    cases h
  | ok found =>
    have hid : found.1 = db.registry.tableId s.table := (Registry.tableId_of_lookUp hlook).symm
    have hplace : (⟨found.1, s.key⟩ : Lock.Key) = s.place db.registry :=
      congrArg (Lock.Key.mk · s.key) hid
    rw [hlook] at h
    dsimp only at h ⊢
    cases hstore : db.store[found.2.table]? with
    | none =>
      rw [hstore] at h
      cases h
    | some table =>
      rw [hstore] at h
      dsimp only at h ⊢
      cases hvalid : Backend.validate table s.key s.value? with
      | failed e =>
        rw [hvalid] at h
        cases h
      | broken text =>
        rw [hvalid] at h
        cases h
      | done checked =>
        refine ⟨⟨found.1, found.2.table⟩, hid, hplace ▸ rfl, fun hcall hstand => ?_⟩
        rw [hcall, hstand, ← hplace]
        dsimp only
        rw [hlook]
        dsimp only
        rw [hstore]
        dsimp only
        rw [hvalid]

/-- What a statement at work does in its turn, by where it stands. -/
inductive BodyTurn (db : Database σ) (i : TaskId) (op : Operation) (me : Lock.Holder)
    (s : Statement) : Prop where
  /-- It is rejected. -/
  | rejected {ending : Ending} (issued : op.stand = .issued)
      (rejection : db.rejection? s = some ending) (ends : db.bodyEnding? op me = some ending)
      (resume : db.resume i = (db.pop i).conclude i op me.txn ending)
  /-- It asks for the lock of its row. -/
  | asks {target : Target} (issued : op.stand = .issued)
      (aims : target.id = db.registry.tableId s.table) (accepted : db.rejection? s = none)
      (ending : db.bodyEnding? op me = db.acquiredEnding? me.txn target s
        (db.locks.acquire db.now .write me (s.place db.registry)).2)
      (resume : db.resume i = (db.pop i).acquired i op me.txn s target
        (db.locks.acquire db.now .write me (s.place db.registry)))
  /-- It looks for the answer. -/
  | looks {target : Target} {w : Lock.Waiting} (waits : op.stand = .locking target w)
      (ending : db.bodyEnding? op me = db.acquiredEnding? me.txn target s
        (db.locks.poll db.now w).2)
      (resume : db.resume i = (db.pop i).acquired i op me.txn s target (db.locks.poll db.now w))
  /-- It has its row read. -/
  | reads {target : Target} (reading : op.stand = .reading target)
      (ending : db.bodyEnding? op me = none)
      (resume : db.resume i = ((db.pop i).setStand i
        (.fetched target (db.readRow target s.key))).wake [i])
  /-- It goes on with its row. -/
  | ends {target : Target} {row : Outcome Value} (fetched : op.stand = .fetched target row)
      (ending : db.bodyEnding? op me = some (fetchedEnding s row))
      (resume : db.resume i = (db.pop i).fetched i op me.txn s target row)

/-- A statement at work does one of these. -/
theorem bodyTurn (hruns : db.Runs i op me) (hcall : op.call = .statement s)
    (hworking : op.stand.isWorking) : BodyTurn db i op me s := by
  have hresume : db.resume i = (db.pop i).resumeOperation i op me := resume_eq hruns
  unfold Database.resumeOperation at hresume
  have hending : db.bodyEnding? op me = db.bodyEnding? op me := rfl
  nth_rewrite 2 [bodyEnding?] at hending
  rw [hcall] at hresume hending
  cases hstand : op.stand with
  | issued =>
    rw [hstand] at hresume
    cases hrejection : db.rejection? s with
    | some ending =>
      have hpop : (db.pop i).rejection? s = some ending := hrejection
      exact .rejected hstand hrejection (bodyEnding?_of_rejection hcall hstand hrejection)
        (hresume.trans (begin_of_rejection hpop))
    | none =>
      have hpop : (db.pop i).rejection? s = none := hrejection
      obtain ⟨target, haims, hacquired, hending⟩ := begin_of_accepted i me hpop
      exact .asks hstand haims hrejection (hending hcall hstand) (hresume.trans hacquired)
  | locking target w =>
    rw [hstand] at hresume hending
    exact .looks hstand hending hresume
  | reading target =>
    rw [hstand] at hresume hending
    exact .reads hstand hending hresume
  | fetched target row =>
    rw [hstand] at hresume hending
    exact .ends hstand hending hresume
  | draining purpose result | applying plan result | applied errors result | finished result =>
    rw [hstand] at hworking
    cases hworking

/-! ## What a turn leaves in the queues -/

omit [Backend σ] in
/-- An operation that has begun lets nobody join a queue. -/
theorem Contends.queue {m : Lock.Manager} (hcontends : Contends op me db stand m)
    (h : db.locks.Consistent) (hbegun : stand ≠ .issued) (k : Lock.Key) :
    (m.lockOf k).queue.Sublist (db.locks.lockOf k).queue := by
  cases hcontends with
  | idle => exact List.Sublist.refl _
  | ask call aims begins => exact absurd begins hbegun
  | look waits => exact (h.evolves_poll _ _).queue k
  | release => exact (h.evolves_release (List.Perm.refl (db.locks.keysOf me.txn))).queue k
  | forget ends => exact List.Sublist.refl _

/-- Nor does it in several moves. -/
theorem Moves.queue (hmoves : Moves i op me db stand writes db' stand') (h : db.locks.Consistent)
    (hbegun : stand ≠ .issued) (k : Lock.Key) :
    (db'.locks.lockOf k).queue.Sublist (db.locks.lockOf k).queue := by
  induction hmoves with
  | nil => exact List.Sublist.refl _
  | cons move rest ih =>
    have hrest := ih (move.contends.consistent h).1 fun hissued => hbegun (move.issued hissued)
    exact List.Sublist.trans hrest (move.contends.queue h hbegun k)

/-- Nor does it in a turn. -/
theorem Leads.queue (hleads : Leads i op me db stand writes db') (h : db.locks.Consistent)
    (hbegun : stand ≠ .issued) (k : Lock.Key) :
    (db'.locks.lockOf k).queue.Sublist (db.locks.lockOf k).queue := by
  obtain ⟨mid, last, hmoves, -, rfl⟩ := hleads
  rw [locks_putDown]
  exact hmoves.queue h hbegun k

omit [Backend σ] in
/-- Leaving a transaction has nothing to do with the locks. -/
theorem locks_leave (db : Database σ) (t : TransactionId) : (db.leave t).locks = db.locks := by
  unfold Database.leave
  split <;> rfl

/-- The end of a statement lets nobody join a queue. -/
theorem queue_conclude (db : Database σ) (h : db.locks.Consistent) (ending : Ending)
    (k : Lock.Key) :
    ((db.conclude i op me.txn ending).locks.lockOf k).queue.Sublist (db.locks.lockOf k).queue := by
  obtain ⟨result, hleads⟩ := leads_conclude db i op me ending
  have hleft : (db.leave me.txn).locks = db.locks := db.locks_leave me.txn
  rw [← hleft] at h ⊢
  exact hleads.queue h nofun k

omit [Backend σ] in
/-- A statement with its lock is concluded, perhaps after it has buffered its write, or has its row
read. -/
theorem locked_cases (db : Database σ) (i : TaskId) (op : Operation) (t : TransactionId)
    (s : Statement) (target : Target) :
    (∃ (mid : Database σ) (ending : Ending), mid.locks = db.locks ∧
      (∀ why, ending ≠ .refused why) ∧
      db.locked i op t s target = mid.conclude i op t ending) ∨
    db.locked i op t s target = (db.setStand i (.reading target)).wake [i] := by
  unfold Database.locked
  cases s with
  | put table key value => exact .inl ⟨db.buffer t target key _, .done none, rfl, nofun, rfl⟩
  | get table key =>
    dsimp only
    split
    · exact .inl ⟨db, .done _, rfl, nofun, rfl⟩
    · exact .inl ⟨db, .failed _, rfl, nofun, rfl⟩
    · exact .inr rfl
  | delete table key =>
    dsimp only
    split
    · exact .inl ⟨db.buffer t target key .delete, .done none, rfl, nofun, rfl⟩
    · exact .inl ⟨db, .failed _, rfl, nofun, rfl⟩
    · exact .inr rfl

/-- Nor does what a statement does with its lock. -/
theorem queue_locked (db : Database σ) (h : db.locks.Consistent) (k : Lock.Key) :
    ((db.locked i op me.txn s target).locks.lockOf k).queue.Sublist
      (db.locks.lockOf k).queue := by
  rcases db.locked_cases i op me.txn s target with ⟨mid, ending, hlocks, -, heq⟩ | heq
  · rw [heq, ← hlocks]
    exact queue_conclude mid (hlocks ▸ h) ending k
  · rw [heq, setStand_eq]
    exact List.Sublist.refl _

/-- What is queued when a statement has asked for its lock, or looked for the answer, was queued
before it went on, and if it goes on at all it does not wait. -/
theorem queued_acquired {turn : Lock.Manager × Lock.Acquisition} (hruns : db.Runs i op me)
    (h : turn.1.Consistent)
    (hv : v ∈ ((db.acquired i op me.txn s target turn).locks.lockOf k).queue) :
    v ∈ (turn.1.lockOf k).queue ∧ ∀ w, turn.2 = .waiting w →
      (db.acquired i op me.txn s target turn).Runs i { op with stand := .locking target w } me := by
  obtain ⟨m, answer⟩ := turn
  match answer with
  | .answered (.ok ()) => exact ⟨(queue_locked (db.withLocks m) h k).subset hv, nofun⟩
  | .answered (.error why) => exact ⟨(queue_conclude (db.withLocks m) h _ k).subset hv, nofun⟩
  | .waiting w =>
    refine ⟨hv, fun w' hw' => ?_⟩
    cases hw'
    exact hruns.setStand (.locking target w)

/-- A request that is queued after a turn of an operation is the one for which the operation waits
then, or it was queued before and is not the one for which the operation waited. -/
theorem Regular.queued_resume (h : db.Regular clock) (hruns : db.Runs i op me)
    (hv : v ∈ ((db.resume i).locks.lockOf k).queue) :
    (∃ target w, (db.resume i).Runs i { op with stand := .locking target w } me ∧
      w.ticket = v.ticket) ∨
    v ∈ (db.locks.lockOf k).queue ∧
      ∀ target w, op.stand = .locking target w → w.ticket ≠ v.ticket := by
  have hpop : (db.pop i).Runs i op me := hruns
  have hconsistent : db.locks.Consistent := h.tidy.consistent
  rcases h.lifecycle.resume_cases hruns with ⟨heq, result, hstand⟩ | ⟨-, hleads⟩
  · rw [heq] at hv
    refine .inr ⟨hv, fun target w hlocking => ?_⟩
    cases hstand.symm.trans hlocking
  -- Only a statement that asks for its lock, or looks for the answer, deals with its request.
  have hmoved : op.stand ≠ .issued → (∀ target w, op.stand ≠ .locking target w) →
      v ∈ (db.locks.lockOf k).queue ∧
        ∀ target w, op.stand = .locking target w → w.ticket ≠ v.ticket :=
    fun hbegun hnone => ⟨(hleads.queue hconsistent hbegun k).subset hv,
      fun target w hlocking => absurd hlocking (hnone target w)⟩
  by_cases hworking : op.stand.isWorking
  · obtain ⟨s, hcall⟩ := Call.exists_statement (h.lifecycle.placed i op hruns.1 hworking)
    cases bodyTurn hruns hcall hworking with
    | rejected issued rejection ends resume =>
      rw [resume] at hv
      refine .inr ⟨(queue_conclude (db.pop i) hconsistent _ k).subset hv, ?_⟩
      rw [issued]
      exact nofun
    | asks issued aims accepted ending resume =>
      rw [resume] at hv ⊢
      -- The request is new, and then the operation waits for it, or it was queued for somebody
      -- else.
      obtain ⟨hqueued, hwaits⟩ := queued_acquired hpop (hconsistent.acquire ..) hv
      rcases hconsistent.queue_acquire h.attended.tallied hqueued with hold | ⟨w, hanswer, hticket⟩
      · refine .inr ⟨hold, ?_⟩
        rw [issued]
        exact nofun
      · exact .inl ⟨_, w, hwaits w hanswer, hticket⟩
    | @looks target w waits ending resume =>
      -- Its own request has left the queue, unless it waits on.
      have hgrasps := h.attended.grasps hruns
      rw [waits] at hgrasps
      have hknown : db.locks.resolution? w.ticket = none →
          w.ticket ∈ (db.locks.lockOf w.key).tickets := fun hnone =>
        List.mem_map_of_mem (hgrasps.1.resolve_right (Lock.Manager.not_tells hnone))
      rw [resume] at hv ⊢
      obtain ⟨hqueued, hwaits⟩ := queued_acquired hpop (hconsistent.poll ..) hv
      obtain ⟨hold, hanswer⟩ := hconsistent.queue_of_poll h.attended.tallied hknown hqueued
      by_cases hticket : w.ticket = v.ticket
      · exact .inl ⟨target, w, hwaits w (hanswer.resolve_right fun hne => hne hticket.symm),
          hticket⟩
      · refine .inr ⟨hold, fun target' w' hlocking => ?_⟩
        cases waits.symm.trans hlocking
        exact hticket
    | reads reading ending resume =>
      rw [reading] at hmoved ⊢
      exact .inr (hmoved nofun nofun)
    | ends fetched ending resume =>
      rw [fetched] at hmoved ⊢
      exact .inr (hmoved nofun nofun)
  · refine .inr (hmoved (fun hissued => hworking ?_) fun target w hlocking => hworking ?_)
    · rw [hissued]
      rfl
    · rw [hlocking]
      rfl

/-! ## Runs -/

/-- Whatever happens every queued request has its caller. -/
theorem Awaited.perform (hawaited : db.Awaited) (h : db.Regular clock)
    (hcoordinated : db.Coordinated action) : (db.perform action).Awaited := by
  intro k v hv
  rcases h.perform_cases hcoordinated with
    hcalm | ⟨i, op, me, first, stand, writes, htakes, hleads⟩
  · rw [hcalm.locks] at hv
    obtain ⟨j, other, you, target, w, hother, hwaits⟩ := hawaited k v hv
    exact ⟨j, other, you, target, w, ⟨hcalm.quiet.operations j other hother.1, hother.2⟩, hwaits⟩
  · cases htakes.begins with
    | resume runs =>
      rcases h.queued_resume runs hv with ⟨target, w, hnow, hticket⟩ | ⟨hold, hothers⟩
      · exact ⟨i, _, me, target, w, hnow, rfl, hticket⟩
      · obtain ⟨j, other, you, target, w, hother, hstand, hticket⟩ := hawaited k v hold
        have hne : j ≠ i := by
          rintro rfl
          obtain ⟨rfl, -⟩ := hother.unique runs
          exact hothers target w hstand hticket
        exact ⟨j, other, you, target, w, h.lifecycle.runs_resume h.twoPhase hother hne, hstand,
          hticket⟩
    | submit new made finishes holder result =>
      have hold := (hleads.queue htakes.acquainted.consistent nofun k).subset hv
      obtain ⟨j, other, you, target, w, hother, hwaits⟩ := hawaited k v hold
      have hlt : j < db.tasks.size := (Array.getElem?_eq_some_iff.mp hother.1).1
      refine ⟨j, other, you, target, w, h.lifecycle.runs_perform h.twoPhase hother ?_, hwaits⟩
      exact fun hactor => absurd (Option.some.inj hactor) (Nat.ne_of_gt hlt)

/-- So it is in every run. -/
theorem Run.awaited {config : Config} {clock : Clock} {hasher : Hasher}
    (run : Run Coordinated (new config clock hasher) db) : db.Awaited := by
  induction run with
  | start => exact awaited_new config clock hasher
  | perform further hcoordinated ih =>
    exact ih.perform (further.regular (regular_new config clock hasher)) hcoordinated

omit [Backend σ] in
/-- A queued request is the one for which its transaction's own operation waits. -/
theorem Awaited.caller (hawaited : db.Awaited) (h : db.Regular clock)
    (hv : v ∈ (db.locks.lockOf k).queue) :
    ∃ j op target w, db.Runs j op v.holder ∧ op.stand = .locking target w ∧ w.ticket = v.ticket ∧
      w.key = k := by
  obtain ⟨j, op, me, target, w, hruns, hstand, hticket⟩ := hawaited k v hv
  have hstirs := h.attended.stirs j op me nofun hruns
  rw [hstand] at hstirs
  have hqueued : v.ticket ∈ (db.locks.lockOf k).tickets := List.mem_map_of_mem hv
  -- Nobody has told the caller anything, so the request of the operation is queued, too.
  have hqueues : db.locks.Queues me w := by
    refine hstirs.resolve_right fun htold => h.attended.tallied.untold k v.ticket hqueued ?_
    rw [← hticket]
    exact htold.1
  have hkey : w.key = k :=
    h.attended.tallied.apart w.key k v.ticket (hticket ▸ List.mem_map_of_mem hqueues) hqueued
  subst hkey
  have hsame := Lock.KeyLock.eq_of_ticket_eq (h.attended.tallied.nodup w.key) hqueues hv hticket
  exact ⟨j, op, target, w, hsame ▸ hruns, hstand, hticket, rfl⟩

omit [Backend σ] in
/-- A transaction waits for no lock when the calls on its connection are over. -/
theorem Awaited.not_queued {t : TransactionId} {txn : Transaction} (hawaited : db.Awaited)
    (h : db.Regular clock) (hfound : db.directory.find? t = some txn)
    (hover : ∀ (j : TaskId) (op : Operation), db.tasks[j]? = some (.operation op) →
      op.connection = txn.connection → op.IsOver)
    (hv : v ∈ (db.locks.lockOf k).queue) : v.holder.txn ≠ t := by
  rintro rfl
  obtain ⟨j, op, target, w, hruns, hstand, -⟩ := hawaited.caller h hv
  obtain ⟨own, hown, hconnection⟩ := h.tidy.placed j op v.holder hruns
  cases hfound.symm.trans hown
  obtain ⟨r, hresult⟩ := hover j op hruns.1 hconnection.symm
  cases hstand.symm.trans hresult

end

end TxStore.Database
