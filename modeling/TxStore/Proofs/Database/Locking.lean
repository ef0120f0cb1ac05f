import TxStore.Proofs.Database.TwoPhase
import TxStore.Table.Memory

/-!
# Every action keeps to two-phase locking

Each function of a turn keeps the invariant `TwoPhase`, by one lemma each, in the order in which
they are defined. Only one of them needs a detour: a commit ends by releasing the locks before it
retires the transaction. The two steps commute (`endCommit_eq`), and in the other order the
transaction is shut when its locks go. So the invariant holds after every run, and with it the two
statements about buffered writes that clients rely on (`writes_of_buffered`).
-/

namespace TxStore.Database

variable {σ : Type} {db db' : Database σ} {i : TaskId} {t u : TransactionId} {c : ConnectionId}
  {txn : Transaction} {op : Operation}

/-! ## Finishing transactions -/

/-- An operation may leave. -/
theorem TwoPhase.leave (h : db.TwoPhase) (t : TransactionId) : (db.leave t).TwoPhase := by
  unfold Database.leave
  split
  · exact h
  · rename_i txn hfound
    obtain ⟨hid, hphase, hlog⟩ := txn.deregister_spec
    refine TwoPhase.wake (h.set hfound hid (fun hopen => ?_) fun e he => .inl (hlog ▸ he)) _
    unfold Transaction.IsOpen at hopen ⊢
    rw [hphase] at hopen
    exact hopen

/-- A transaction that is shut may release its locks. -/
theorem TwoPhase.releaseLocks (h : db.TwoPhase) (ht : db.Shut t) : (db.releaseLocks t).TwoPhase :=
  h.withLocks (h.locks.release ht)

/-- A release may be forgotten. -/
theorem TwoPhase.forgetLocks (h : db.TwoPhase) (t : TransactionId) :
    (db.forgetLocks t).TwoPhase :=
  (h.withLocks (h.locks.forget t)).of_eq rfl rfl rfl

/-- A transaction may be separated from its connection. -/
theorem TwoPhase.separate (h : db.TwoPhase) (c : ConnectionId) (t : TransactionId) :
    (db.separate c t).TwoPhase := by
  rw [separate_eq]
  exact h.of_eq rfl rfl rfl

/-- A transaction may be retired. -/
theorem TwoPhase.retire (h : db.TwoPhase) (t : TransactionId) : (db.retire t).TwoPhase :=
  h.modify (fun _ => rfl) (fun txn hopen => absurd hopen txn.not_isOpen_finish) fun _ _ he => .inl he

/-- A retired transaction is shut. -/
theorem shut_retire (h : db.Known t) : (db.retire t).Shut t := by
  obtain ⟨txn, hfound⟩ := h
  have hfind : (db.retire t).directory.find? t = some txn.finish := by
    have hmodify := db.directory.find?_modify t t Transaction.finish
    rw [if_pos rfl, hfound] at hmodify
    exact hmodify
  exact ⟨txn.finish, hfind, txn.not_isOpen_finish⟩

/-- The locks of a transaction may be released after it is retired instead of before. -/
theorem endCommit_eq (db : Database σ) (i : TaskId) (c : ConnectionId) (t : TransactionId)
    (errors : List Error) (result : Result) :
    db.endCommit i c t errors result =
      ((((db.retire t).releaseLocks t).forgetLocks t).separate c t).finish i
        (result.join errors) := by
  unfold endCommit
  rw [separate_retire]
  rfl

/-- A commit may end. -/
theorem TwoPhase.endCommit (h : db.TwoPhase) (hknown : db.Known t) (i : TaskId) (c : ConnectionId)
    (errors : List Error) (result : Result) : (db.endCommit i c t errors result).TwoPhase := by
  -- Retired before its locks go, the transaction is shut when they do.
  rw [endCommit_eq]
  have hreleased := (h.retire t).releaseLocks (shut_retire hknown)
  exact ((hreleased.forgetLocks t).separate c t).finish i _

/-- A connection's transaction may be replaced by a fresh one. -/
theorem TwoPhase.replace (h : db.TwoPhase) (c : ConnectionId) (t : TransactionId) :
    (db.replace c t).1.TwoPhase := by
  unfold Database.replace
  split
  · cases hclear : db.directory.clearLog c with
    | error e => exact h
    | ok d =>
      have hcleared : (db.withDirectory d).TwoPhase := by
        unfold Directory.clearLog at hclear
        split at hclear
        · cases hclear
        · cases hclear
          exact h.modify (fun _ => rfl) (fun _ hopen => hopen) fun _ _ he => by cases he
      dsimp only
      cases hrestart : d.restart c db.clock.read.1 with
      | error e => exact hcleared.of_eq rfl rfl rfl
      | ok placed =>
        unfold Directory.restart at hrestart
        split at hrestart
        · cases hrestart
        · rename_i old hold
          cases hrestart
          exact (hcleared.place (c := c) db.clock.read.1 old.origin).of_eq rfl rfl rfl
  · exact h

/-- A rollback or an abort may end. -/
theorem TwoPhase.endDiscard (h : db.TwoPhase) (i : TaskId) (c : ConnectionId) (t : TransactionId)
    (restart : Bool) (result : Result) : (db.endDiscard i c t restart result).TwoPhase := by
  have hforgotten := h.forgetLocks t
  unfold Database.endDiscard
  dsimp only
  split
  · exact ((hforgotten.replace c t).retire t).finish i _
  · exact ((hforgotten.separate c t).retire t).finish i _

/-- A call may go on when no operation is in flight. -/
theorem TwoPhase.afterDrain (h : db.TwoPhase) (hknown : db.Known t) (i : TaskId)
    (c : ConnectionId) (purpose : Purpose) (result : Result) :
    (db.afterDrain i c t purpose result).TwoPhase := by
  unfold Database.afterDrain
  cases purpose with
  | discard restart => exact h.endDiscard i c t restart result
  | commit =>
    dsimp only
    split
    · have hrecorded : (db.recordCommit t []).TwoPhase := h.of_eq rfl rfl rfl
      exact hrecorded.endCommit hknown i c [] result
    · refine TwoPhase.wake ?_ _
      exact h.setStand fun _ _ _ _ _ => trivial

/-- A call may wait until no operation is in flight. -/
theorem TwoPhase.drain (h : db.TwoPhase) (i : TaskId) (c : ConnectionId) (t : TransactionId)
    (purpose : Purpose) (result : Result) : (db.drain i c t purpose result).TwoPhase := by
  unfold Database.drain
  split
  · exact h
  · rename_i txn hfound
    unfold Transaction.awaitIdle
    by_cases hidle : txn.inFlight = 0
    · rw [if_pos hidle]
      exact h.afterDrain ⟨txn, hfound⟩ i c purpose result
    · rw [if_neg hidle]
      split
      · rename_i heq
        split at heq
        · cases heq
        · cases heq
      · rename_i parked heq
        -- Parking the call leaves everything but the list of parked calls.
        have hparked : parked.id = txn.id ∧ parked.phase = txn.phase ∧ parked.log = txn.log := by
          split at heq
          · cases heq
            exact ⟨rfl, rfl, rfl⟩
          · cases heq
            exact ⟨rfl, rfl, rfl⟩
        obtain ⟨hid, hphase, hlog⟩ := hparked
        have hset := h.set hfound hid
          (fun hopen => by unfold Transaction.IsOpen at hopen ⊢; rw [hphase] at hopen; exact hopen)
          fun e he => .inl (hlog ▸ he)
        exact hset.setStand fun _ _ _ _ _ => trivial

/-- What a transaction that moves out of its active life becomes. -/
theorem turnTo_ok {target : Phase} (h : db.turnTo t target = .ok db') :
    ∃ txn, db.directory.find? t = some txn ∧ txn.phase = .active ∧
      db' = db.withDirectory (db.directory.set t { txn with phase := target }) := by
  unfold Database.turnTo at h
  split at h
  · cases h
  · rename_i txn hfound
    unfold Transaction.turnTo at h
    by_cases hactive : txn.phase = .active
    · rw [if_pos hactive] at h
      cases h
      exact ⟨txn, hfound, hactive, rfl⟩
    · rw [if_neg hactive] at h
      cases h

/-- A transaction may move out of its active life. -/
theorem TwoPhase.turnTo {target : Phase} (h : db.TwoPhase) (hok : db.turnTo t target = .ok db') :
    db'.TwoPhase := by
  obtain ⟨txn, hfound, hactive, rfl⟩ := turnTo_ok hok
  exact h.set hfound rfl (fun _ => .inl hactive) fun _ he => .inl he

/-- A transaction that begins to abort is shut. -/
theorem shut_of_turnTo (hok : db.turnTo t .aborting = .ok db') : db'.Shut t := by
  obtain ⟨txn, hfound, -, rfl⟩ := turnTo_ok hok
  exact ⟨{ txn with phase := .aborting }, (Directory.find?_set hfound _ t).trans (if_pos rfl),
    Transaction.not_isOpen_of_aborting rfl⟩

/-- A connection may commit. -/
theorem TwoPhase.commit (h : db.TwoPhase) (i : TaskId) (c : ConnectionId)
    (expected : Option TransactionId) (result : Result) :
    (db.commit i c expected result).TwoPhase := by
  unfold Database.commit
  split
  · exact h.finish i _
  · rename_i t hattached
    split
    · cases hturn : db.turnTo t .committing with
      | error e => exact h.finish i _
      | ok db' => exact (h.turnTo hturn).drain i c t .commit result
    · exact h.finish i _

/-- A transaction that is shut may be discarded. -/
theorem TwoPhase.discard (h : db.TwoPhase) (ht : db.Shut t) (i : TaskId) (c : ConnectionId)
    (restart : Bool) (result : Result) : (db.discard i c t restart result).TwoPhase :=
  (h.releaseLocks ht).drain i c t (.discard restart) result

/-- A connection may roll back. -/
theorem TwoPhase.rollback (h : db.TwoPhase) (i : TaskId) (c : ConnectionId) :
    (db.rollback i c).TwoPhase := by
  unfold Database.rollback
  split
  · exact h.finish i _
  · rename_i t hattached
    cases hturn : db.turnTo t .aborting with
    | error e => exact h.finish i _
    | ok db' => exact (h.turnTo hturn).discard (shut_of_turnTo hturn) i c false _

/-- A connection may disconnect. -/
theorem TwoPhase.disconnect (h : db.TwoPhase) (i : TaskId) (c : ConnectionId) :
    (db.disconnect i c).TwoPhase := by
  unfold Database.disconnect
  split
  · exact h.rollback i c
  · exact h.finish i _

/-- A transaction may be aborted. -/
theorem TwoPhase.abort (h : db.TwoPhase) (i : TaskId) (c : ConnectionId) (t : TransactionId)
    (why : Lock.Refusal) : (db.abort i c t why).TwoPhase := by
  unfold Database.abort
  dsimp only
  split
  · cases hturn : db.turnTo t .aborting with
    | error e => exact h.finish i _
    | ok db' => exact (h.turnTo hturn).discard (shut_of_turnTo hturn) i c _ _
  · exact h.finish i _

/-! ## Running statements -/

/-- A statement may end. -/
theorem TwoPhase.conclude (h : db.TwoPhase) (i : TaskId) (op : Operation) (t : TransactionId)
    (ending : Ending) : (db.conclude i op t ending).TwoPhase := by
  have hleft := h.leave t
  have hclose : ∀ result : Result, TwoPhase
      (if op.opened then (db.leave t).commit i op.connection (some t) result
        else (db.leave t).finish i result) := by
    intro result
    split
    · exact hleft.commit i op.connection (some t) result
    · exact hleft.finish i result
  cases ending with
  | done value => exact hclose (.ok value)
  | failed e => exact hclose (.error e)
  | refused why =>
    cases why with
    | released => exact hleft.finish i _
    | conflict => exact hleft.abort i op.connection t .conflict
    | timeout => exact hleft.abort i op.connection t .timeout
  | broken text => exact hleft.finish i _

/-- A covered write may be buffered. -/
theorem TwoPhase.buffer {target : Target} {key : Value} (h : db.TwoPhase)
    (hcovers : db.Covers t ⟨target.id, key⟩) (write : Write) :
    (db.buffer t target key write).TwoPhase := by
  refine h.modify (fun _ => rfl) (fun _ hopen => hopen) fun txn e he => ?_
  rcases WriteBuffer.mem_entries_append he with he | rfl
  · exact .inl he
  · exact .inr hcovers

section

variable {me : Lock.Holder} {s : Statement} {target : Target}

/-- An operation may move to where its own statement is backed. -/
theorem TwoPhase.setStand_of_runs {stand : Stand} (h : db.TwoPhase) (hruns : db.Runs i op me)
    (hcall : op.call = .statement s) (hbacks : db.Backs me.txn s.key stand) :
    (db.setStand i stand).TwoPhase := by
  refine h.setStand fun op' me' s' hruns' hcall' => ?_
  obtain ⟨rfl, rfl⟩ := hruns.unique hruns'
  rw [hcall] at hcall'
  cases hcall'
  exact hbacks

/-- A statement may go on with its lock. -/
theorem TwoPhase.locked (h : db.TwoPhase) (hruns : db.Runs i op me)
    (hcall : op.call = .statement s) (hcovers : db.Covers me.txn ⟨target.id, s.key⟩) :
    (db.locked i op me.txn s target).TwoPhase := by
  have hmoved : (db.setStand i (.reading target)).TwoPhase :=
    h.setStand_of_runs hruns hcall hcovers
  unfold Database.locked
  cases s with
  | put table key value => exact (h.buffer hcovers _).conclude i op me.txn _
  | get table key =>
    dsimp only
    split
    · exact h.conclude i op me.txn _
    · exact h.conclude i op me.txn _
    · exact hmoved.wake [i]
  | delete table key =>
    dsimp only
    split
    · exact (h.buffer hcovers _).conclude i op me.txn _
    · exact h.conclude i op me.txn _
    · exact hmoved.wake [i]

/-- A statement may go on with its row. -/
theorem TwoPhase.fetched (h : db.TwoPhase) (hcovers : db.Covers me.txn ⟨target.id, s.key⟩)
    (i : TaskId) (op : Operation) (row : Outcome Value) :
    (db.fetched i op me.txn s target row).TwoPhase := by
  unfold Database.fetched
  cases row with
  | failed e => exact h.conclude i op me.txn _
  | broken text => exact h.conclude i op me.txn _
  | done value =>
    cases s with
    | delete table key => exact (h.buffer hcovers _).conclude i op me.txn _
    | get table key => exact h.conclude i op me.txn _
    | put table key value => exact h.conclude i op me.txn _

/-- A statement may go on when it has asked for its lock, or looked for the answer. -/
theorem TwoPhase.acquired {turn : Lock.Manager × Lock.Acquisition} (h : db.TwoPhase)
    (hruns : db.Runs i op me) (hcall : op.call = .statement s)
    (hsettles : db.locks.Settles db.Shut me.txn ⟨target.id, s.key⟩ turn) :
    (db.acquired i op me.txn s target turn).TwoPhase := by
  obtain ⟨m, acquisition⟩ := turn
  have htaken := h.withLocks hsettles.continues
  cases acquisition with
  | answered answer =>
    cases answer with
    | ok got =>
      have hcovers : (db.withLocks m).Covers me.txn ⟨target.id, s.key⟩ := hsettles.granted rfl
      have hruns' : (db.withLocks m).Runs i op me := hruns
      exact htaken.locked hruns' hcall hcovers
    | error why => exact htaken.conclude i op me.txn _
  | waiting w =>
    -- The request is queued in the new locks, so they have to be taken over first.
    have hbacks : (db.withLocks m).Backs me.txn s.key (.locking target w) := hsettles.waiting w rfl
    have hruns' : (db.withLocks m).Runs i op me := hruns
    have hmoved := htaken.setStand_of_runs hruns' hcall hbacks
    show ((db.setStand i (.locking target w)).withLocks m).TwoPhase
    refine hmoved.of_eq ?_ ?_ ?_
    all_goals
      rw [setStand_eq, setStand_eq]
      rfl

/-- A bare request may move on. -/
theorem TwoPhase.setRequest (h : db.TwoPhase) (i : TaskId) (r : Lock.Request) :
    ({ db with tasks := db.tasks.setIfInBounds i (.request r) } : Database σ).TwoPhase := by
  have hruns : ∀ j op me,
      ({ db with tasks := db.tasks.setIfInBounds i (.request r) } : Database σ).Runs j op me →
        db.Runs j op me := by
    rintro j op me ⟨hop, hme⟩
    have hcases := Array.getElem?_setIfInBounds.symm.trans hop
    split at hcases
    · split at hcases
      · cases hcases
      · cases hcases
    · exact ⟨hcases, hme⟩
  exact ⟨h.numbered, h.locks, h.logged, fun j op me hop => h.known j op me (hruns j op me hop),
    fun j op me s hop hcall => h.backed j op me s (hruns j op me hop) hcall⟩

variable [Backend σ]

/-- A statement may begin. -/
theorem TwoPhase.begin (h : db.TwoPhase) (hruns : db.Runs i op me)
    (hcall : op.call = .statement s) : (db.begin i op me s).TwoPhase := by
  unfold Database.begin
  split
  · exact h.conclude i op me.txn _
  · split
    · exact h.conclude i op me.txn _
    · split
      · exact h.conclude i op me.txn _
      · exact h.conclude i op me.txn _
      · exact h.acquired hruns hcall (h.locks.acquire db.now me _)

/-- An operation may be given a turn. -/
theorem TwoPhase.resumeOperation (h : db.TwoPhase) (hruns : db.Runs i op me) :
    (db.resumeOperation i op me).TwoPhase := by
  have hbacked := fun s => h.backed i op me s hruns
  unfold Database.resumeOperation
  -- The cases are the branches of a turn: begin, look for the lock, read, go on with the row, and
  -- the three stages of finishing.
  split
  · rename_i s hstand hcall
    exact h.begin hruns hcall
  · rename_i target w s hstand hcall
    have hparked := hbacked s hcall
    rw [hstand] at hparked
    obtain ⟨hkey, hawaits⟩ := hparked
    have hpoll := h.locks.poll db.now hawaits
    rw [hkey] at hpoll
    exact h.acquired hruns hcall hpoll
  · rename_i target s hstand hcall
    have hcovers := hbacked s hcall
    rw [hstand] at hcovers
    refine TwoPhase.wake ?_ _
    exact h.setStand_of_runs hruns hcall hcovers
  · rename_i target row s hstand hcall
    have hcovers := hbacked s hcall
    rw [hstand] at hcovers
    exact h.fetched hcovers i op row
  · exact h.drain i op.connection me.txn _ _
  · rename_i plan result _
    unfold Database.apply
    have hrecorded : (({ db with store := (applyPlan db.store plan).1 } :
        Database σ).recordCommit me.txn plan).TwoPhase := h.of_eq rfl rfl rfl
    refine TwoPhase.wake ?_ _
    exact hrecorded.setStand fun _ _ _ _ _ => trivial
  · exact h.endCommit (h.known i op me hruns) i op.connection _ _
  · exact h

/-- A task may be given a turn. -/
theorem TwoPhase.resume (h : db.TwoPhase) (i : TaskId) : (db.resume i).TwoPhase := by
  have hturn : ({ db with ready := db.ready.erase i } : Database σ).TwoPhase := h.of_eq rfl rfl rfl
  rcases db.resume_cases i with ⟨op, me, hruns⟩ | ⟨r, hr⟩ | ⟨-, heq⟩
  · rw [resume_eq hruns]
    exact hturn.resumeOperation hruns
  · -- A bare request moves the locks on and has no part in the invariant itself.
    rw [resume_eq_of_request hr]
    exact (hturn.setRequest i { r with stage := (r.run db.locks db.now).2 }).withLocks
      (h.locks.continues_run db.now r)
  · rw [heq]
    exact hturn

end

/-! ## Calls -/

/-- A transaction may be started. -/
theorem TwoPhase.start (h : db.TwoPhase) (c : ConnectionId) (origin : Origin) :
    (db.start c origin).2.TwoPhase := by
  rcases db.start_cases c origin with hcurrent | ⟨e, heq⟩
  · rw [start_eq hcurrent]
    exact (h.place (c := c) db.clock.read.1 origin).of_eq rfl rfl rfl
  · rw [heq]
    exact h.of_eq rfl rfl rfl

/-- A connection may be attached to a transaction. -/
theorem TwoPhase.attach (h : db.TwoPhase) (c : ConnectionId) : (db.attach c).2.TwoPhase := by
  rcases db.attach_cases c with heq | heq
  · rw [heq]
    exact h
  · rw [heq]
    exact h.start c .implicit

/-- What an enrolled operation is told, and what becomes of its transaction. -/
theorem enroll_ok {me : Lock.Holder} (h : db.enroll t = .ok (me, db')) :
    ∃ txn, db.directory.find? t = some txn ∧ txn.phase = .active ∧ me = txn.holder ∧
      db' = db.withDirectory (db.directory.set t { txn with inFlight := txn.inFlight + 1 }) := by
  unfold enroll at h
  split at h
  · cases h
  · rename_i txn hfound
    unfold Transaction.register at h
    by_cases hactive : txn.phase = .active
    · rw [if_pos hactive] at h
      cases h
      exact ⟨txn, hfound, hactive, rfl, rfl⟩
    · rw [if_neg hactive] at h
      cases h

/-- An operation may be registered, and its transaction is known. -/
theorem TwoPhase.register (h : db.TwoPhase) (c : ConnectionId) :
    (db.register c).2.TwoPhase ∧
      ∀ me opened, (db.register c).1 = .ok (me, opened) → (db.register c).2.Known me.txn := by
  have hattached := h.attach c
  unfold Database.register
  split
  · rename_i heq
    rw [heq] at hattached
    exact ⟨hattached, nofun⟩
  · rename_i t opened db' heq
    rw [heq] at hattached
    cases henroll : db'.enroll t with
    | error e => exact ⟨hattached, nofun⟩
    | ok enrolled =>
      obtain ⟨me, entered⟩ := enrolled
      obtain ⟨txn, hfound, hactive, rfl, rfl⟩ := enroll_ok henroll
      have hset : (db'.withDirectory (db'.directory.set t
          { txn with inFlight := txn.inFlight + 1 })).TwoPhase :=
        hattached.set hfound rfl (fun hopen => hopen) fun _ he => .inl he
      refine ⟨hset, fun me opened hok => ?_⟩
      cases hok
      -- The locks will know the operation by the identifier of its transaction.
      have hid : txn.id = t := hattached.numbered t txn hfound
      have hfind := Directory.find?_set hfound { txn with inFlight := txn.inFlight + 1 } txn.id
      exact ⟨_, hfind.trans (if_pos hid.symm)⟩

/-- An operation that is issued is bound to the transaction of its connection. -/
theorem issue_eq {holder : Option Lock.Holder} (h : db.attachedHolder c = holder) (call : Call) :
    db.issue c call = db.push (.operation ⟨c, call, holder, false, .issued⟩) := by
  unfold Database.issue
  rw [h]

/-- The locks know nobody of a connection without a transaction. -/
theorem attachedHolder_of_detached (hdetached : db.attached.get? c = none) :
    db.attachedHolder c = none := by
  unfold Database.attachedHolder
  rw [hdetached]
  rfl

/-- The locks know the transaction of a connection. -/
theorem attachedHolder_of_attached (hattached : db.attached.get? c = some t)
    (hfound : db.directory.find? t = some txn) : db.attachedHolder c = some txn.holder := by
  unfold Database.attachedHolder
  rw [hattached, Option.bind_some, hfound]
  rfl

/-- A call that finishes a transaction may be issued. -/
theorem TwoPhase.issue (h : db.TwoPhase) (c : ConnectionId) (call : Call) :
    (db.issue c call).TwoPhase := by
  refine h.push fun op hop => ?_
  cases hop
  refine ⟨fun me hme => ?_, fun _ _ => trivial⟩
  obtain ⟨txn, hfound, rfl⟩ := Option.map_eq_some_iff.mp hme
  obtain ⟨t, -, hfound⟩ := Option.bind_eq_some_iff.mp hfound
  have hid : txn.id = t := h.numbered t txn hfound
  refine ⟨txn, ?_⟩
  show db.directory.find? txn.id = some txn
  rw [hid]
  exact hfound

/-- A call may be made. -/
theorem TwoPhase.submit (h : db.TwoPhase) (c : ConnectionId) (call : Call) :
    (db.submit c call).TwoPhase := by
  unfold Database.submit
  dsimp only
  cases call with
  | statement s =>
    obtain ⟨hregistered, hknown⟩ := h.register c
    dsimp only
    split
    · rename_i e db' heq
      rw [heq] at hregistered
      refine hregistered.push fun op hop => ?_
      cases hop
      exact ⟨nofun, fun _ _ => trivial⟩
    · rename_i me opened db' heq
      rw [heq] at hregistered hknown
      refine TwoPhase.wake (hregistered.push fun op hop => ?_) _
      cases hop
      refine ⟨fun me' hme => ?_, fun _ _ => trivial⟩
      cases hme
      exact hknown me opened rfl
  | commit => exact (h.issue c .commit).commit _ c none _
  | rollback => exact (h.issue c .rollback).rollback _ c
  | disconnect => exact (h.issue c .disconnect).disconnect _ c

/-! ## Runs -/

/-- A new database keeps the discipline. -/
theorem twoPhase_new (config : Config) (clock : Clock) (hasher : Hasher) :
    (new config clock hasher : Database σ).TwoPhase where
  numbered := nofun
  locks := Lock.Manager.orderly_new config.lockTimeout
  logged := nofun
  known _ _ _ hop := by cases hop.1
  backed _ _ _ _ hop := by cases hop.1

section

variable [Backend σ]

/-- Every action keeps the discipline. -/
theorem TwoPhase.perform (h : db.TwoPhase) (action : Action σ) : (db.perform action).TwoPhase := by
  cases action with
  | connect => exact h.of_eq rfl rfl rfl
  | createTable table =>
    show (db.createTable table).2.TwoPhase
    obtain ⟨store, registry, heq⟩ := db.exists_createTable table
    rw [heq]
    exact h.of_eq rfl rfl rfl
  | dropTable name =>
    show (db.dropTable name).2.TwoPhase
    obtain ⟨registry, heq⟩ := db.exists_dropTable name
    rw [heq]
    exact h.of_eq rfl rfl rfl
  | beginTransaction c =>
    show (db.beginTransaction c).2.TwoPhase
    rcases db.beginTransaction_cases c with heq | heq
    · rw [heq]
      exact h
    · rw [heq]
      exact h.start c .explicit
  | submit c call => exact h.submit c call
  | requestLock mode holder key =>
    refine TwoPhase.wake (h.push fun op hop => ?_) _
    cases hop
  | resume i => exact h.resume i
  | reach instant => exact h.of_eq rfl rfl rfl

/-- The discipline holds after any run. -/
theorem Run.twoPhase {P : Database σ → Action σ → Prop} {first : Database σ}
    (run : Run P first db) (hfirst : first.TwoPhase) : db.TwoPhase := by
  induction run with
  | start => exact hfirst
  | perform _ _ ih => exact ih.perform _

/-- In every database that is reached by any actions, whatever its tables, an open transaction is
the writer of the key of every write that it has buffered; and so no two open transactions have
buffered a write of the same row. -/
theorem writes_of_buffered (run : db.Reachable) :
    (∀ t txn, db.directory.find? t = some txn → txn.phase = .active ∨ txn.phase = .committing →
      ∀ e ∈ txn.log.entries, (db.locks.lockOf ⟨e.table, e.key⟩).holders.writes t) ∧
    ∀ t u txn other, db.directory.find? t = some txn → db.directory.find? u = some other → t ≠ u →
      txn.phase = .active ∨ txn.phase = .committing →
      other.phase = .active ∨ other.phase = .committing →
      ∀ e ∈ txn.log.entries, ∀ f ∈ other.log.entries, ¬ (e.table = f.table ∧ e.key = f.key) := by
  obtain ⟨config, clock, hasher, run⟩ := run
  have h := run.twoPhase (twoPhase_new config clock hasher)
  have hwrites : ∀ t txn, db.directory.find? t = some txn → txn.IsOpen →
      ∀ e ∈ txn.log.entries, (db.locks.lockOf ⟨e.table, e.key⟩).holders.writes t := by
    intro t txn hfound hopen e he
    refine h.logged t txn hfound e he ?_
    rintro ⟨other, hother, hclosed⟩
    rw [hfound] at hother
    cases hother
    exact hclosed hopen
  refine ⟨hwrites, fun t u txn other ht hu hne htxn hother e he f hf hsame => ?_⟩
  -- A key has one writer at most.
  have hfirst := hwrites t txn ht htxn e he
  have hsecond := hwrites u other hu hother f hf
  rw [hsame.1, hsame.2] at hfirst
  exact hne (Lock.Holders.eq_of_writes hfirst hsecond)

end

/-- Two connections that have each written a row of one table and not yet committed. -/
def twoWriters : Database MemoryTable :=
  [ .createTable ⟨"t", .any, .any, .empty⟩, .beginTransaction 0, .beginTransaction 1,
    .submit 0 (.statement (.put "t" (.integer 1) .null)),
    .submit 1 (.statement (.put "t" (.integer 2) .null)),
    .resume 0, .resume 1 ].foldl perform (.new .standard default ⟨"Constant", fun _ => ⟨7⟩⟩)

/-- For instance, each of two connections is the writer of the row that it has written. -/
theorem writes_of_buffered_twoWriters :
    twoWriters.Reachable ∧
      (twoWriters.locks.lockOf ⟨⟨7⟩, .integer 1⟩).holders.writes ⟨0⟩ ∧
      (twoWriters.locks.lockOf ⟨⟨7⟩, .integer 2⟩).holders.writes ⟨1⟩ := by
  have run : twoWriters.Reachable := reachable_performAll _ _ _ _
  obtain ⟨hwrites, -⟩ := writes_of_buffered run
  exact ⟨run, hwrites ⟨0⟩ _ rfl (by decide) ⟨⟨7⟩, .integer 1, .put .null⟩ (by decide),
    hwrites ⟨1⟩ _ rfl (by decide) ⟨⟨7⟩, .integer 2, .put .null⟩ (by decide)⟩

end TxStore.Database
