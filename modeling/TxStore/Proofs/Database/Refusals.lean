import TxStore.Proofs.Database.Frames

/-!
# What a refused lock means for its transaction

A statement that is refused its lock, because it conflicts with an older transaction or because its
deadline has passed, aborts its transaction if that is still active. The abort releases the locks in
the same turn, and so every other statement of the transaction that is parked ends, too; when none
is in flight any more, the connection gets a fresh transaction or none. If the transaction is being
finished already, the refused statement only leaves it.
-/

namespace TxStore.Database

variable {σ : Type} {db mid later : Database σ} {i j : TaskId} {op other : Operation}
  {me you : Lock.Holder} {t u : TransactionId} {txn : Transaction} {c : ConnectionId}
  {why : Lock.Refusal} {clock : Clock} {restart : Bool} {result : Result} {target : Target}
  {w : Lock.Waiting}

/-! ## The turn that is refused -/

/-- The line after a task has been taken out of it. -/
def pop (db : Database σ) (i : TaskId) : Database σ :=
  { db with ready := db.ready.erase i }

/-- What a refused statement changes before it is told so: the locks, but neither who holds a key
nor the other requests of the transaction. -/
structure Refused [Backend σ] (db : Database σ) (i : TaskId) (op : Operation) (me : Lock.Holder)
    (why : Lock.Refusal) (m : Lock.Manager) : Prop where
  /-- It is at work. -/
  working : op.stand.isWorking
  /-- It is a statement. -/
  statement : ∃ s, op.call = .statement s
  /-- It asks for its lock, or looks for the answer. -/
  move : Move i op me (db.pop i) op.stand [] ((db.pop i).withLocks m) op.stand
  /-- No key changes hands. -/
  holders : ∀ k, (m.lockOf k).holders = (db.locks.lockOf k).holders
  /-- The other parked statements of the transaction are parked as they were. -/
  parked : ∀ j other you target w, j ≠ i → db.Runs j other you → you.txn = me.txn →
    other.stand = .locking target w → db.locks.Queues you w → m.Queues you w
  /-- Then the statement ends. -/
  resume : db.resume i = ((db.pop i).withLocks m).conclude i op me.txn (.refused why)

section

variable [Backend σ]

omit [Backend σ] in
/-- A statement in a lock queue has its place there. -/
theorem waiting?_of_locking (h : op.stand = .locking target w) :
    (Task.operation op).waiting? = some w := by
  simp only [Task.waiting?, h]

omit [Backend σ] in
/-- A body that is refused its lock has been told so. -/
theorem acquiredEnding?_refused {s : Statement} {a : Lock.Acquisition} {t : TransactionId}
    (h : db.acquiredEnding? t target s a = some (.refused why)) : a = .answered (.error why) := by
  unfold acquiredEnding? at h
  split at h
  · unfold lockedEnding? at h
    split at h
    · cases h
    · split at h <;> cases h
    · split at h <;> cases h
  · cases h
    rfl
  · cases h

omit [Backend σ] in
/-- The requests of a transaction other than the one under a ticket are spared if they have other
tickets. -/
theorem Acquainted.queues {m : Lock.Manager} {n : Lock.Ticket} (h : db.Acquainted)
    (hruns : db.Runs i op me) (hspares : db.locks.Spares m me n) (hother : db.Runs j other you)
    (htxn : you.txn = me.txn) (hticket : w.ticket ≠ n) (hqueues : db.locks.Queues you w) :
    m.Queues you w :=
  hspares.waiters w.key _ hqueues ((h.named j other you hother).eq (h.named i op me hruns) htxn)
    hticket

/-- What happens in a turn in which a statement asks for its lock and is refused. -/
theorem Regular.refused_asking (h : db.Regular clock) (hruns : db.Runs i op me) {s : Statement}
    (hcall : op.call = .statement s) (hstand : op.stand = .issued)
    (hending : db.bodyEnding? op me = some (.refused why)) : ∃ m, db.Refused i op me why m := by
  have hworking : op.stand.isWorking := by
    rw [hstand]
    rfl
  -- Its body ends with a refusal only if the table is there and the row fits it, and if the manager
  -- answers so.
  unfold bodyEnding? at hending
  rw [hcall, hstand] at hending
  dsimp only at hending
  split at hending
  · cases hending
  · rename_i id entry hlook
    split at hending
    · cases hending
    · rename_i table hstore
      split at hending
      · cases hending
      · cases hending
      · rename_i hvalidate
        have hanswer := acquiredEnding?_refused hending
        have hacquire : db.locks.acquire db.now .write me ⟨id, s.key⟩ =
            ((db.locks.acquire db.now .write me ⟨id, s.key⟩).1, .answered (.error why)) :=
          Prod.ext rfl hanswer
        have hspares := h.acquainted.written.spares_acquire h.acquainted.consistent
          h.attended.tallied (h.acquainted.named i op me hruns) hacquire
        refine ⟨(db.locks.acquire db.now .write me ⟨id, s.key⟩).1, hworking, ⟨s, hcall⟩, ?_,
          hspares.holders, fun j other you target w hne hother htxn hlocking hqueues => ?_, ?_⟩
        · have hmove : Move i op me (db.pop i) .issued []
              ((db.pop i).withLocks (db.locks.acquire db.now .write me ⟨id, s.key⟩).1)
              ((db.locks.acquire db.now .write me ⟨id, s.key⟩).2.standAt ⟨id, entry.table⟩
                .issued) :=
            .ask hcall (.inr ⟨s, entry, hcall, hlook⟩) rfl
          rw [hanswer] at hmove
          rw [hstand]
          exact hmove
        · -- The request gets a ticket that nobody has yet.
          have hgiven := h.attended.given j _ w hother.1 (waiting?_of_locking hlocking)
          exact h.acquainted.queues hruns hspares hother htxn (Nat.ne_of_lt hgiven) hqueues
        · -- The turn takes the same branches.
          have hresume : db.resume i = (db.pop i).resumeOperation i op me := resume_eq hruns
          rw [hresume]
          unfold Database.resumeOperation
          rw [hstand, hcall]
          dsimp only
          unfold Database.begin
          rw [show (db.pop i).registry.lookUp s.table = .ok (id, entry) from hlook]
          dsimp only
          rw [show (db.pop i).store[entry.table]? = some table from hstore]
          dsimp only
          rw [hvalidate]
          show (db.pop i).acquired i op me.txn s ⟨id, entry.table⟩
            (db.locks.acquire db.now .write me ⟨id, s.key⟩) = _
          rw [hacquire]
          rfl

/-- What happens in a turn in which a parked statement looks for its lock and is refused. -/
theorem Regular.refused_parked (h : db.Regular clock) (hruns : db.Runs i op me) {s : Statement}
    (hcall : op.call = .statement s) (hstand : op.stand = .locking target w)
    (hending : db.bodyEnding? op me = some (.refused why)) : ∃ m, db.Refused i op me why m := by
  have hworking : op.stand.isWorking := by
    rw [hstand]
    rfl
  have hgrasps := h.attended.grasps hruns
  unfold bodyEnding? at hending
  rw [hcall, hstand] at hending
  rw [hstand] at hgrasps
  have hanswer := acquiredEnding?_refused hending
  have hpoll : db.locks.poll db.now w = ((db.locks.poll db.now w).1, .answered (.error why)) :=
    Prod.ext rfl hanswer
  -- As long as it has not been told anything it is queued, and so its end at a deadline takes the
  -- key from nobody else.
  have hspares : db.locks.Spares (db.locks.poll db.now w).1 me w.ticket := by
    refine h.acquainted.written.spares_poll h.acquainted.consistent h.attended.tallied db.now
      fun hnone => ?_
    rcases hgrasps.1 with hqueues | htells
    · exact hqueues
    · exact absurd htells (Lock.Manager.not_tells hnone)
  refine ⟨(db.locks.poll db.now w).1, hworking, ⟨s, hcall⟩, ?_, hspares.holders,
    fun j other you target' w' hne hother htxn hlocking hqueues => ?_, ?_⟩
  · have hmove : Move i op me (db.pop i) (.locking target w) []
        ((db.pop i).withLocks (db.locks.poll db.now w).1)
        ((db.locks.poll db.now w).2.standAt target (.locking target w)) :=
      .look hcall rfl
    rw [hanswer] at hmove
    rw [hstand]
    exact hmove
  · exact h.acquainted.queues hruns hspares hother htxn
      (hgrasps.2.2 j _ w' hne hother.1 (waiting?_of_locking hlocking)) hqueues
  · -- The turn looks for the same answer.
    have hresume : db.resume i = (db.pop i).resumeOperation i op me := resume_eq hruns
    rw [hresume]
    unfold Database.resumeOperation
    rw [hstand, hcall]
    show (db.pop i).acquired i op me.txn s target (db.locks.poll db.now w) = _
    rw [hpoll]
    rfl

/-- A statement is refused its lock only in such turns. -/
theorem Regular.refused (h : db.Regular clock) (hruns : db.Runs i op me)
    (hending : db.bodyEnding? op me = some (.refused why)) : ∃ m, db.Refused i op me why m := by
  have hworking : op.stand.isWorking := by
    by_contra hidle
    rw [bodyEnding?_of_not_working (Bool.eq_false_iff.mpr hidle)] at hending
    cases hending
  obtain ⟨s, hcall⟩ := Call.exists_statement (h.lifecycle.placed i op hruns.1 hworking)
  cases hstand : op.stand with
  | issued => exact h.refused_asking hruns hcall hstand hending
  | locking target w => exact h.refused_parked hruns hcall hstand hending
  | reading target =>
    unfold bodyEnding? at hending
    rw [hcall, hstand] at hending
    cases hending
  | fetched target row =>
    unfold bodyEnding? at hending
    rw [hcall, hstand] at hending
    cases row with
    | failed e => cases hending
    | broken text => cases hending
    | done value => cases s <;> cases hending
  | draining purpose result | applying plan result | applied errors result | finished result =>
    rw [hstand] at hworking
    cases hworking

/-! ## The abort -/

/-- The transaction `u` that a connection is attached to after its former one was aborted: it was
not there before, it is explicit and active, without writes and locks, and younger than all that
were there, if the readings of the clock increase that far. -/
structure Renews (clock : Clock) (before after : Database σ) (c : ConnectionId)
    (u : TransactionId) (fresh : Transaction) : Prop where
  /-- The connection is attached to it. -/
  attached : after.attached.get? c = some u
  /-- It was not there before. -/
  unknown : ¬ before.Known u
  /-- It is now. -/
  found : after.directory.find? u = some fresh
  /-- It is active. -/
  active : fresh.phase = .active
  /-- No operation is in flight. -/
  idle : fresh.inFlight = 0
  /-- It is explicit. -/
  explicit : fresh.origin = .explicit
  /-- It has no writes. -/
  empty : fresh.log = .empty
  /-- The locks do not know it. -/
  absent : after.locks.Absent u
  /-- It is younger than all others. -/
  younger :
    Timestamp.increasing (clock.readings (before.directory.transactions.size + 1)) →
      ∀ v old, before.directory.find? v = some old → old.timestamp.isBefore fresh.timestamp

/-- What becomes of a connection when its transaction has been aborted. -/
def Succeeds (clock : Clock) (before after : Database σ) (c : ConnectionId)
    (restart : Bool) : Prop :=
  if restart then ∃ u fresh, Renews clock before after c u fresh else after.attached.get? c = none

/-- An operation that discards its transaction, to which its connection is still attached. -/
structure Discards (clock : Clock) (db : Database σ) (i : TaskId) (op : Operation)
    (me : Lock.Holder) (restart : Bool) (result : Result) : Prop where
  /-- It is to wait until no operation is in flight. -/
  inTurn : db.InTurn i op me (.draining (.discard restart) result)
  /-- The others are attended to. -/
  attended : db.Attended (some i)
  /-- The locks know the transactions. -/
  acquainted : db.Acquainted
  /-- The timestamps are the readings of the clock. -/
  dated : db.Dated clock
  /-- The connection is attached to the transaction. -/
  attached : db.attached.get? op.connection = some me.txn
  /-- The transaction is replaced if it is explicit. -/
  origin : ∀ txn, db.directory.find? me.txn = some txn → restart = decide (txn.origin = .explicit)

omit [Backend σ] in
/-- What ending an abort comes to if the transaction is replaced. -/
theorem endDiscard_restart {r : Result} (hattached : db.attached.get? c = some t)
    (hcurrent : db.directory.current.get? c = some t)
    (hfound : db.directory.find? t = some txn) :
    db.endDiscard i c t true r =
      (((db.withDirectory (db.directory.set t { txn with log := .empty })).placed c
        db.clock.read.1 db.clock.read.2 txn.origin).forgetLocks t |>.retire t).finish i
          (r.join []) := by
  have hreplace : (db.forgetLocks t).replace c t = _ :=
    replace_of_attached hattached hcurrent hfound
  unfold Database.endDiscard
  dsimp only
  rw [if_pos rfl, hreplace]
  rfl

omit [Backend σ] in
/-- A transaction that was put in the place of another one is found when that is over. -/
theorem find?_retire_placed (db : Database σ) (c : ConnectionId) (ts : Timestamp)
    (clock : Clock) (origin : Origin) {t : TransactionId} (hknown : db.Known t) :
    ((db.placed c ts clock origin).forgetLocks t |>.retire t).directory.find?
      (db.directory.place c ts origin).1 =
        some (.new (db.directory.place c ts origin).1 c ts origin) := by
  have hne : t ≠ (db.directory.place c ts origin).1 := by
    rintro rfl
    obtain ⟨txn, hfound⟩ := hknown
    rw [db.directory.find?_place_new c ts origin] at hfound
    cases hfound
  refine (Directory.find?_modify ..).trans ((if_neg hne).trans ?_)
  exact (db.directory.find?_place c ts origin _).trans (if_pos rfl)

omit [Backend σ] in
/-- What ending an abort comes to for its connection. -/
theorem Discards.end {e : Error} (h : db.Discards clock i op me restart (.error e)) :
    (db.endDiscard i op.connection me.txn restart (.error e)).Runs i
        { op with stand := .finished (.error e) } me ∧
      db.Succeeds clock (db.endDiscard i op.connection me.txn restart (.error e)) op.connection
        restart := by
  obtain ⟨txn, hfound, -, -⟩ := h.inTurn.found
  have hagree := h.inTurn.lifecycle.attached op.connection
  rw [directory_setStand, attached_setStand, h.attached] at hagree
  have horigin := h.origin txn hfound
  have hruns := h.inTurn.runs
  -- A transaction that was made for the statement is not replaced: the connection is left without
  -- one. An explicit one is replaced by a fresh one.
  cases restart with
  | false =>
    have hend : db.endDiscard i op.connection me.txn false (.error e) =
      (((db.forgetLocks me.txn).separate op.connection me.txn).retire me.txn).finish i
        (.error e) := rfl
    rw [hend]
    refine ⟨Runs.setStand ((runs_of_tasks ?_).mpr hruns) _, ?_⟩
    · rw [separate_eq]
      rfl
    · unfold Database.Succeeds Database.finish
      rw [if_neg Bool.false_ne_true, attached_setStand]
      exact (get?_attached_separate ..).trans (if_pos ⟨rfl, h.attached⟩)
  | true =>
    have hexplicit : txn.origin = .explicit := of_decide_eq_true horigin.symm
    have hset := Directory.find?_set hfound { txn with log := .empty }
    rw [endDiscard_restart h.attached hagree.symm hfound]
    generalize hmid : db.withDirectory (db.directory.set me.txn { txn with log := .empty }) = mid
    have hfind : ∀ u, mid.directory.find? u =
        if me.txn = u then some { txn with log := .empty } else db.directory.find? u := hmid ▸ hset
    have hknown : mid.Known me.txn := ⟨_, (hfind me.txn).trans (if_pos rfl)⟩
    have hsame : mid.tasks = db.tasks ∧ mid.locks = db.locks := hmid ▸ ⟨rfl, rfl⟩
    -- The fresh transaction has a number that no transaction had.
    have hunknown : ¬ db.Known
        (mid.directory.place op.connection db.clock.read.1 txn.origin).1 := by
      rintro ⟨old, hold⟩
      have hnew := mid.directory.find?_place_new op.connection db.clock.read.1 txn.origin
      rw [hfind] at hnew
      split at hnew
      · cases hnew
      · rw [hold] at hnew
        cases hnew
    have hfresh := mid.find?_retire_placed op.connection db.clock.read.1 db.clock.read.2 txn.origin
      hknown
    have hmoved : (((mid.placed op.connection db.clock.read.1 db.clock.read.2 txn.origin).forgetLocks
        me.txn).retire me.txn).Runs i op me := (runs_of_tasks hsame.1).mpr hruns
    -- So the locks know nothing of it, and it is younger than all that were there.
    refine ⟨hmoved.setStand _, ?_⟩
    unfold Database.Succeeds Database.finish
    rw [if_pos rfl]
    refine ⟨(mid.directory.place op.connection db.clock.read.1 txn.origin).1,
      .new (mid.directory.place op.connection db.clock.read.1 txn.origin).1 op.connection
        db.clock.read.1 txn.origin, ?_, hunknown, ?_, rfl, rfl, hexplicit, rfl, ?_,
      fun hincreasing v old hold => h.dated.isBefore_read hold hincreasing⟩
    · rw [attached_setStand]
      exact Dict.get?_insert_self ..
    · rw [directory_setStand]
      exact hfresh
    · rw [setStand_eq]
      show (mid.locks.forget me.txn).Absent _
      rw [hsame.2]
      exact (h.acquainted.absent _ hunknown).forget _

omit [Backend σ] in
/-- A discard waits, with its connection attached as it was, or it ends. -/
theorem Discards.drain {e : Error} (h : db.Discards clock i op me restart (.error e)) :
    (db.drain i op.connection me.txn (.discard restart) (.error e)).Runs i
        { op with stand := .draining (.discard restart) (.error e) } me ∧
      (db.drain i op.connection me.txn (.discard restart) (.error e)).attached.get? op.connection =
        some me.txn ∨
    (db.drain i op.connection me.txn (.discard restart) (.error e)).Runs i
        { op with stand := .finished (.error e) } me ∧
      db.Succeeds clock (db.drain i op.connection me.txn (.discard restart) (.error e))
        op.connection restart := by
  obtain ⟨txn, hfound, -, -⟩ := h.inTurn.found
  have hruns := h.inTurn.runs
  unfold Database.drain
  rw [hfound]
  dsimp only
  split
  · exact .inr h.end
  · rename_i parked heq
    have hmoved : (db.withDirectory (db.directory.set me.txn parked)).Runs i op me :=
      (runs_of_tasks rfl).mpr hruns
    refine .inl ⟨hmoved.setStand _, ?_⟩
    rw [attached_setStand]
    exact h.attached

omit [Backend σ] in
/-- A statement that is refused its lock leaves its transaction and aborts it. -/
theorem conclude_refused (hwhy : why ≠ .released) :
    db.conclude i op t (.refused why) = (db.leave t).abort i op.connection t why := by
  cases why with
  | released => exact absurd rfl hwhy
  | conflict => rfl
  | timeout => rfl

/-- A statement that is refused its lock while its transaction is active goes on as the one that
discards the transaction. -/
theorem Regular.aborts (h : db.Regular clock) (hruns : db.Runs i op me) {m : Lock.Manager}
    (hrefused : db.Refused i op me why m) (hwhy : why ≠ .released)
    (hfound : db.directory.find? me.txn = some txn) (hactive : txn.phase = .active) :
    ∃ mid : Database σ, mid.Discards clock i op me (txn.origin = .explicit)
        (.error (Cause.lock why)) ∧
      (∃ own, mid.directory.find? me.txn = some own ∧ own.inFlight = txn.inFlight - 1) ∧
      mid.directory.roster = db.directory.roster ∧ mid.locks = m.release me.txn ∧
      mid.fate? me.txn = some .discarded ∧
      db.resume i = mid.drain i op.connection me.txn (.discard (txn.origin = .explicit))
        (.error (Cause.lock why)) := by
  obtain ⟨s, hcall⟩ := hrefused.statement
  have hconnection : db.attached.get? op.connection = some me.txn := by
    obtain ⟨own, hown, hplaced⟩ := h.tidy.placed i op me hruns
    rw [hfound] at hown
    cases hown
    exact hplaced ▸ (h.tidy.neat me.txn txn hfound).active hactive
  -- The statement has left its transaction, and that is active still.
  have hleave : ((db.pop i).withLocks m).leave me.txn = _ := leave_eq hfound
  generalize hleft : ((db.pop i).withLocks m).leave me.txn = left at hleave
  have hfound' : left.directory.find? me.txn = some txn.deregister.1 :=
    hleave ▸ (Directory.find?_set hfound _ me.txn).trans (if_pos rfl)
  have hconnection' : left.attached.get? op.connection = some me.txn := hleave ▸ hconnection
  -- So it can be turned, and nothing about it changes but its phase and that the statement has
  -- left.
  obtain ⟨dropped, hturned, hphase, hidentity, hflight⟩ : ∃ dropped, left.turnTo me.txn .aborting =
      .ok (left.withDirectory (left.directory.set me.txn dropped)) ∧ dropped.phase = .aborting ∧
      dropped.identity = txn.identity ∧ dropped.inFlight = txn.inFlight - 1 := by
    refine ⟨{ txn.deregister.1 with phase := .aborting }, ?_, rfl, txn.identity_deregister,
      txn.inFlight_deregister⟩
    unfold Database.turnTo Transaction.turnTo
    rw [hfound']
    dsimp only
    rw [if_pos (txn.deregister_spec.2.1.trans hactive)]
  have horigin : dropped.origin = txn.origin := congrArg Identity.origin hidentity
  have hmine : (left.directory.set me.txn dropped).find? me.txn = some dropped :=
    (Directory.find?_set hfound' dropped me.txn).trans (if_pos rfl)
  -- The turn is made of three moves: the refusal, the leaving, and the first step of the discard.
  have hmoves : Moves i op me (db.pop i) op.stand []
      ((left.withDirectory (left.directory.set me.txn dropped)).releaseLocks me.txn)
      (.draining (.discard (txn.origin = .explicit)) (.error (Cause.lock why))) :=
    .cons hrefused.move (.cons (.leave hcall hrefused.working (.ok none))
      (.cons (.discard ⟨rfl, Bool.and_false _⟩ (hleft ▸ hconnection') (hleft ▸ hturned)
        (decide (txn.origin = .explicit)) _) .nil))
  have hturn : (db.pop i).InTurn i op me op.stand := h.lifecycle.inTurn hruns
  -- Every invariant of a turn is carried over the three of them.
  obtain ⟨hacquainted, hdated⟩ := hmoves.keeps
    (P := fun mid _ => mid.Acquainted ∧ mid.Dated clock)
    (fun move hturn hmid => ⟨move.acquainted hturn hmid.1, hmid.2.grows (move.grows hturn)⟩) hturn
    ⟨h.acquainted.of_eq (List.prefix_refl _) rfl rfl, h.dated.grows (.idle rfl rfl)⟩
  obtain ⟨hattended, -⟩ := hmoves.keeps
    (P := fun mid stand => mid.Attended (some i) ∧ mid.Grasps i me stand)
    (fun move hturn hmid => move.attended hturn hmid.1 hmid.2) hturn
    ⟨h.attended.erase i, h.attended.grasps hruns⟩
  refine ⟨_, ⟨hmoves.inTurn hturn, hattended, hacquainted, hdated, hconnection',
    fun found hfound => ?_⟩, ⟨dropped, hmine, hflight⟩, ?_, ?_, ?_, ?_⟩
  · cases hmine.symm.trans hfound
    exact congrArg (fun o => decide (o = Origin.explicit)) horigin.symm
  · refine (Directory.roster_set hfound' (hidentity.trans txn.identity_deregister.symm)).trans ?_
    rw [hleave]
    exact Directory.roster_set hfound txn.identity_deregister
  · show left.locks.release me.txn = _
    rw [hleave]
    rfl
  · refine Eq.trans (fate?_of_found hmine) ?_
    rw [hphase]
    rfl
  · have hany : ((left.withDirectory (left.directory.set me.txn dropped)).directory.find?
        me.txn).any (fun txn => decide (txn.origin = .explicit)) =
          decide (txn.origin = .explicit) := by
      show Option.any _ ((left.directory.set me.txn dropped).find? me.txn) = _
      rw [hmine]
      exact congrArg (fun o => decide (o = Origin.explicit)) horigin
    -- What the code of the turn does comes to the same.
    rw [hrefused.resume, conclude_refused hwhy, hleft]
    unfold Database.abort
    dsimp only
    rw [if_pos hconnection', hturned]
    dsimp only
    unfold Database.discard
    rw [hany]

omit [Backend σ] in
/-- Whether a connection goes on as it should depends on who all the transactions were before. -/
theorem Succeeds.of_roster {before after : Database σ} (h : mid.Succeeds clock after c restart)
    (hroster : mid.directory.roster = before.directory.roster) :
    before.Succeeds clock after c restart := by
  unfold Database.Succeeds at h ⊢
  split
  · rename_i hrestart
    rw [if_pos hrestart] at h
    obtain ⟨u, fresh, hrenews⟩ := h
    refine ⟨u, fresh, { hrenews with unknown := ?_, younger := ?_ }⟩
    · rw [known_iff, ← hroster, ← known_iff]
      exact hrenews.unknown
    · intro hincreasing v old hold
      have hline := before.directory.getElem?_roster v
      rw [← hroster, mid.directory.getElem?_roster, hold] at hline
      obtain ⟨same, hsame, hidentity⟩ := Option.map_eq_some_iff.mp hline
      rw [← before.directory.length_roster, ← hroster, mid.directory.length_roster]
        at hincreasing
      have hyounger := hrenews.younger hincreasing v same hsame
      rwa [show same.timestamp = old.timestamp from congrArg Identity.timestamp hidentity]
        at hyounger
  · rename_i hrestart
    rwa [if_neg hrestart] at h

omit [Backend σ] in
/-- An operation that runs has its result where it stands. -/
theorem Runs.result?_eq (h : db.Runs i op me) : db.result? i = (Task.operation op).result? := by
  unfold Database.result?
  rw [h.1]
  rfl

/-! ## Until the statement is over -/

/-- What is known of the statement `i`, and of the transaction of which it was refused a lock in
`db`, whatever has happened since. -/
structure Abandons (db : Database σ) (i : TaskId) (op : Operation) (me : Lock.Holder)
    (why : Lock.Refusal) (restart : Bool) (later : Database σ) : Prop where
  /-- It waits until no operation is in flight, and its connection with it, or it is over. -/
  stands : later.Runs i { op with stand := .draining (.discard restart) (.error (Cause.lock why)) } me ∧
      later.attached.get? op.connection = some me.txn ∨
    later.Runs i { op with stand := .finished (.error (Cause.lock why)) } me
  /-- The transaction is discarded. -/
  fate : later.fate? me.txn = some .discarded
  /-- It is replaced if it is explicit. -/
  origin : ∃ who, later.directory.roster[me.txn.number]? = some who ∧
    restart = decide (who.origin = .explicit)
  /-- The other statements of the transaction that were parked will be told of its release, or are
  over. -/
  others : ∀ j other you target w, j ≠ i → db.Runs j other you → you.txn = me.txn →
    other.stand = .locking target w → db.locks.Queues you w →
    later.Runs j other you ∧ (w.ticket, .released) ∈ later.locks.resolved ∨
      later.Runs j { other with stand := .finished (.error Cause.terminalState) } you

/-- The statement has had its turn. -/
theorem Regular.abandons (h : db.Regular clock) (hruns : db.Runs i op me)
    (hending : db.bodyEnding? op me = some (.refused why)) (hwhy : why ≠ .released)
    (hfound : db.directory.find? me.txn = some txn) (hactive : txn.phase = .active) :
    db.Abandons i op me why (txn.origin = .explicit) (db.resume i) ∧
      ((db.resume i).result? i ≠ none →
        db.Succeeds clock (db.resume i) op.connection (txn.origin = .explicit)) := by
  obtain ⟨m, hrefused⟩ := h.refused hruns hending
  obtain ⟨mid, hdiscards, -, hroster, hlocks, hfate, hresume⟩ :=
    h.aborts hruns hrefused hwhy hfound hactive
  -- The turn goes on from where the transaction has been turned, and takes back neither a word nor
  -- the fate of the transaction.
  have hresolved : mid.locks.resolved <+: (db.resume i).locks.resolved ∧
      (db.resume i).fate? me.txn = some .discarded := by
    obtain ⟨own, hown, -⟩ := hdiscards.inTurn.found
    have hleads : Leads i op me mid (.draining (.discard (txn.origin = .explicit))
        (.error (Cause.lock why))) [] _ := leads_drain hown
    rw [hresume]
    exact ⟨hleads.resolved hdiscards.inTurn hdiscards.attended trivial,
      hleads.fate hdiscards.inTurn hfate⟩
  have hstands := hdiscards.drain
  rw [← hresume] at hstands
  refine ⟨⟨?_, hresolved.2, ?_, fun j other you target w hne hother htxn hlocking hqueues => ?_⟩,
    fun hover => ?_⟩
  · exact hstands.imp id And.left
  · have hline : db.directory.roster[me.txn.number]? = some txn.identity := by
      rw [db.directory.getElem?_roster, hfound]
      rfl
    exact ⟨_, getElem?_of_isPrefix (h.lifecycle.roster_perform h.twoPhase (.resume i)) hline, rfl⟩
  · -- Whoever was queued for the transaction has been told by the release.
    have hqueues := hrefused.parked j other you target w hne hother htxn hlocking hqueues
    have htold := (hrefused.move.contends.consistent h.acquainted.consistent).1.told_release hqueues
    have hresumed := h.lifecycle.runs_resume h.twoPhase hother hne
    refine .inl ⟨hresumed, hresolved.1.subset ?_⟩
    rw [hlocks, ← htxn]
    exact htold
  · rcases hstands with ⟨hwaits, -⟩ | ⟨-, hsucceeds⟩
    · rw [hwaits.result?_eq] at hover
      exact absurd rfl hover
    · exact hsucceeds.of_roster hroster

/-- An operation that is over stays so. -/
theorem Lifecycle.over_perform {action : Action σ} (h : db.Lifecycle) (htwoPhase : db.TwoPhase)
    (hruns : db.Runs i op me) (hover : op.stand = .finished result) :
    (db.perform action).Runs i op me := by
  by_cases hactor : db.actor? action = some i
  · obtain rfl := hruns.eq_resume hactor
    show (db.resume i).Runs i op me
    rw [resume_eq hruns, resumeOperation_of_finished hover]
    exact hruns
  · exact h.runs_perform htwoPhase hruns hactor

/-- A statement that is told of the release of its transaction is over with its next turn. -/
theorem Regular.resume_released (h : db.Regular clock) (hruns : db.Runs i op me)
    (hstand : op.stand = .locking target w) (htold : (w.ticket, .released) ∈ db.locks.resolved) :
    (db.resume i).Runs i { op with stand := .finished (.error Cause.terminalState) } me := by
  obtain ⟨s, hcall⟩ := Call.exists_statement (h.lifecycle.placed i op hruns.1 (hstand ▸ rfl))
  have hpoll : db.locks.poll db.now w = (db.locks, .answered (.error .released)) := by
    unfold Lock.Manager.poll
    rw [h.attended.tallied.resolution?_eq htold]
    rfl
  have hresume : db.resume i = (((db.pop i).withLocks db.locks).leave me.txn).finish i
      (.error Cause.terminalState) := by
    rw [resume_eq hruns]
    unfold Database.resumeOperation
    rw [hstand, hcall]
    show (db.pop i).acquired i op me.txn s target (db.locks.poll db.now w) = _
    rw [hpoll]
    rfl
  obtain ⟨txn, hfound, -⟩ := h.lifecycle.fits i op me hruns
  have hleave : ((db.pop i).withLocks db.locks).leave me.txn = _ := leave_eq hfound
  rw [hresume, hleave]
  have hleft : ((((db.pop i).withLocks db.locks).withDirectory
      (((db.pop i).withLocks db.locks).directory.set me.txn txn.deregister.1)).wake
        txn.deregister.2).Runs i op me := hruns
  exact hleft.setStand _

/-- The other statements of the transaction have been told that the locks are released; each of them
ends in its own next turn. -/
theorem Abandons.others_perform {action : Action σ} (h : db.Abandons i op me why restart later)
    (hregular : later.Regular clock) (hcoordinated : later.Coordinated action) (j : TaskId)
    (other : Operation) (you : Lock.Holder) (target : Target) (w : Lock.Waiting) (hne : j ≠ i)
    (hother : db.Runs j other you) (htxn : you.txn = me.txn)
    (hlocking : other.stand = .locking target w) (hqueues : db.locks.Queues you w) :
    (later.perform action).Runs j other you ∧
        (w.ticket, .released) ∈ (later.perform action).locks.resolved ∨
      (later.perform action).Runs j { other with stand := .finished (.error Cause.terminalState) }
        you := by
  rcases h.others j other you target w hne hother htxn hlocking hqueues with ⟨hruns, htold⟩ | hruns
  · by_cases hactor : later.actor? action = some j
    · obtain rfl := hruns.eq_resume hactor
      exact .inr (hregular.resume_released hruns hlocking htold)
    · exact .inl ⟨hregular.lifecycle.runs_perform hregular.twoPhase hruns hactor,
        (hregular.resolved_perform hcoordinated).subset htold⟩
  · exact .inr (hregular.lifecycle.over_perform hregular.twoPhase hruns rfl)

/-- What is known of the statement goes on to be known, and when it is over its connection goes on
as it should. -/
theorem Abandons.perform {action : Action σ} (h : db.Abandons i op me why restart later)
    (hregular : later.Regular clock) (hcoordinated : later.Coordinated action) :
    db.Abandons i op me why restart (later.perform action) ∧
      (later.result? i = none → (later.perform action).result? i ≠ none →
        later.Succeeds clock (later.perform action) op.connection restart) := by
  have hmore := hregular.lifecycle.roster_perform hregular.twoPhase action
  have hfate := hregular.lifecycle.fate?_perform hregular.twoPhase h.fate action
  obtain ⟨who, hwho, horigin⟩ := h.origin
  have hothers := h.others_perform hregular hcoordinated
  have hwho' := getElem?_of_isPrefix hmore hwho
  -- The statement still waits for these to leave, or it is over.
  rcases h.stands with ⟨hruns, hattached⟩ | hruns
  · by_cases hactor : later.actor? action = some i
    · obtain rfl := hruns.eq_resume hactor
      -- It is the turn of the statement itself, which may find that it is the last.
      have hdiscards : (later.pop i).Discards clock i
          { op with stand := .draining (.discard restart) (.error (Cause.lock why)) } me restart
          (.error (Cause.lock why)) := by
        refine ⟨hregular.lifecycle.inTurn hruns, hregular.attended.erase i,
          hregular.acquainted.of_eq (List.prefix_refl _) rfl rfl,
          hregular.dated.grows (.idle rfl rfl), hattached, fun found hfound => ?_⟩
        have hline := later.directory.getElem?_roster me.txn
        rw [hwho, show later.directory.find? me.txn = some found from hfound] at hline
        cases hline
        exact horigin
      have hresume : later.perform (.resume i) = (later.pop i).drain i op.connection me.txn
          (.discard restart) (.error (Cause.lock why)) := resume_eq hruns
      have hstands := hdiscards.drain
      rw [← hresume] at hstands
      refine ⟨⟨hstands.imp id And.left, hfate, ⟨who, hwho', horigin⟩, hothers⟩, fun _ hover => ?_⟩
      rcases hstands with ⟨hwaits, -⟩ | ⟨-, hsucceeds⟩
      · rw [hwaits.result?_eq] at hover
        exact absurd rfl hover
      · exact hsucceeds.of_roster rfl
    · -- Something else happens, and it waits on.
      have hstays := hregular.lifecycle.runs_perform hregular.twoPhase hruns hactor
      have hkept : (later.perform action).attached.get? op.connection = some me.txn := by
        refine hregular.attached_of_decided hcoordinated h.fate
          (fun j op' me' hactor' hruns' hmine => ?_) hattached
        -- Nobody else finishes the transaction.
        by_contra hclosing
        obtain rfl := hregular.lifecycle.alone i j _ op' me me' hruns hruns' rfl
          (Bool.not_eq_false _ ▸ hclosing) hmine.symm
        exact hactor hactor'
      refine ⟨⟨.inl ⟨hstays, hkept⟩, hfate, ⟨who, hwho', horigin⟩, hothers⟩, fun _ hover => ?_⟩
      rw [hstays.result?_eq] at hover
      exact absurd rfl hover
  · refine ⟨⟨.inr (hregular.lifecycle.over_perform hregular.twoPhase hruns rfl), hfate,
      ⟨who, hwho', horigin⟩, hothers⟩, fun hopen => ?_⟩
    rw [hruns.result?_eq] at hopen
    cases hopen

/-- Whatever happens after the turn in which the statement was refused its lock, what is known of it
goes on to be known. -/
theorem Abandons.run {first : Database σ} (run : Run Coordinated first later)
    (hregular : first.Regular clock) (h : db.Abandons i op me why restart first) :
    db.Abandons i op me why restart later := by
  induction run with
  | start => exact h
  | perform further hcoordinated ih =>
    exact (ih.perform (further.regular hregular) hcoordinated).1

omit [Backend σ] in
/-- A transaction that is discarded is never applied, and the locks do not know of it any more. -/
theorem Regular.of_discarded (h : db.Regular clock) (hfate : db.fate? t = some .discarded) :
    ¬ db.Applied t ∧ ∀ k, ¬ (db.locks.lockOf k).Involves t := by
  obtain ⟨txn, hfound, hphase⟩ := Option.bind_eq_some_iff.mp hfate
  refine ⟨fun happlied => ?_, fun k => ?_⟩
  · obtain ⟨commit, hmem, rfl⟩ := List.mem_map.mp happlied
    rw [h.lifecycle.fate?_of_commit hmem] at hfate
    cases hfate
  · cases hcase : txn.phase with
    | active | committing =>
      rw [hcase] at hphase
      cases hphase
    | aborting =>
      exact h.acquainted.consistent.not_involves ((h.tidy.neat t txn hfound).aborting hcase) k
    | ready => exact ((h.tidy.neat t txn hfound).ready hcase).1.uninvolved k

omit [Backend σ] in
/-- When nothing can run any more, the statement is over, and so is every other one of its
transaction that was parked. -/
theorem Abandons.settled (h : db.Abandons i op me why restart later)
    (hregular : later.Regular clock) (settled : later.ready = []) :
    later.result? i = some (.error (Cause.lock why)) ∧
      ∀ j other you, j ≠ i → db.Runs j other you → you.txn = me.txn → ∀ target w,
        other.stand = .locking target w → db.locks.Queues you w →
        later.result? j = some (.error Cause.terminalState) := by
  refine ⟨?_, fun j other you hne hother htxn target w hlocking hqueues => ?_⟩
  · rcases h.stands with ⟨hruns, -⟩ | hruns
    · obtain ⟨txn, hfound, hfits⟩ := hregular.lifecycle.fits _ _ _ hruns
      exact absurd hfits (hregular.attended.not_aborting settled hregular.lifecycle hfound)
    · exact hruns.result?_eq
  · rcases h.others j other you target w hne hother htxn hlocking hqueues with ⟨hruns, htold⟩ | hruns
    · rcases hregular.attended.settled_cases settled hruns with
        ⟨r, hstand⟩ | ⟨-, hparked⟩ | ⟨⟨purpose, r, hstand⟩, -⟩
      · rw [hlocking] at hstand
        cases hstand
      · obtain ⟨target', w', hstand, hpending⟩ := hparked
        rw [hlocking] at hstand
        cases hstand
        exact absurd rfl (hpending.untold _ htold)
      · rw [hlocking] at hstand
        cases hstand
    · exact hruns.result?_eq

/-! ## Transactions that are being finished -/

/-- A statement that is refused its lock while its transaction is being finished leaves it and is
over. -/
theorem Refused.leaves {m : Lock.Manager} (hrefused : db.Refused i op me why m)
    (hwhy : why ≠ .released) (hfound : db.directory.find? me.txn = some txn)
    (hfinishing : txn.phase ≠ .active) :
    db.resume i = ((((db.pop i).withLocks m).withDirectory
      (db.directory.set me.txn txn.deregister.1)).wake txn.deregister.2).finish i
        (.error (Cause.lock why)) := by
  have hleave : ((db.pop i).withLocks m).leave me.txn = _ := leave_eq hfound
  have hfate : ∃ f, (((db.pop i).withLocks m).leave me.txn).fate? me.txn = some f := by
    rw [hleave]
    have hmine : ((((db.pop i).withLocks m).withDirectory
        (((db.pop i).withLocks m).directory.set me.txn txn.deregister.1)).wake
          txn.deregister.2).directory.find? me.txn = some txn.deregister.1 :=
      (Directory.find?_set hfound _ me.txn).trans (if_pos rfl)
    rw [fate?_of_found hmine, txn.deregister_spec.2.1]
    exact Option.ne_none_iff_exists'.mp fun hnone => hfinishing (Phase.fate?_eq_none.mp hnone)
  obtain ⟨f, hfate⟩ := hfate
  rw [hrefused.resume, conclude_refused hwhy, abort_of_decided hfate, hleave]
  rfl

/-! ## Both cases -/

omit [Backend σ] in
/-- Whether another statement of the transaction of `i` is parked. -/
def ParkedBeside (db : Database σ) (i : TaskId) (me : Lock.Holder) (j : TaskId) : Prop :=
  j ≠ i ∧ ∃ other you, db.Runs j other you ∧ you.txn = me.txn ∧ db.Parked you other.stand

/-- What becomes of an active transaction of which the statement `i` is refused a lock in `db`, up
to any `later` moment. -/
structure Aborted (db : Database σ) (i : TaskId) (me : Lock.Holder) (why : Lock.Refusal)
    (later : Database σ) : Prop where
  /-- The statement has no other result than the refusal. -/
  result : ∀ r, later.result? i = some r → r = .error (Cause.lock why)
  /-- Nor does any other that was parked have another one than that the transaction is over. -/
  others : ∀ j r, db.ParkedBeside i me j → later.result? j = some r → r = .error Cause.terminalState
  /-- When nothing can run any more they all have their results. -/
  settled : later.ready = [] → later.result? i ≠ none ∧
    ∀ j, db.ParkedBeside i me j → later.result? j ≠ none
  /-- Its writes are not applied. -/
  unapplied : ¬ later.Applied me.txn
  /-- It holds no lock and waits for none. -/
  unlocked : ∀ k, ¬ (later.locks.lockOf k).Involves me.txn

/-- What becomes of a transaction that is being finished when its statement `i` is refused a lock in
`db`: nothing, but that the statement is over and has left it. -/
structure Spared (db : Database σ) (i : TaskId) (me : Lock.Holder) (why : Lock.Refusal)
    (txn : Transaction) (after : Database σ) : Prop where
  /-- The statement has the refusal for its result. -/
  result : after.result? i = some (.error (Cause.lock why))
  /-- It has left the transaction. -/
  left : after.directory.find? me.txn = some txn.deregister.1
  /-- No connection has lost or got a transaction. -/
  attached : after.attached = db.attached
  /-- No writes were applied. -/
  commits : after.commits = db.commits
  /-- Every key is held by whoever held it. -/
  holders : ∀ k, (after.locks.lockOf k).holders = (db.locks.lockOf k).holders
  /-- Its other parked statements are parked still. -/
  others : ∀ j, db.ParkedBeside i me j → after.ParkedBeside i me j

omit [Backend σ] in
/-- A statement that is parked is queued where it stands. -/
theorem Parked.queues {stand : Stand} (h : db.Parked me stand) :
    ∃ target w, stand = .locking target w ∧ db.locks.Queues me w := by
  obtain ⟨target, w, hstand, hpending⟩ := h
  exact ⟨target, w, hstand, hpending.mem⟩

omit [Backend σ] in
/-- What is known of the statement is what becomes of its transaction. -/
theorem Abandons.aborted (h : db.Abandons i op me why restart later)
    (hregular : later.Regular clock) : db.Aborted i me why later := by
  obtain ⟨hunapplied, hunlocked⟩ := hregular.of_discarded h.fate
  refine ⟨fun r hr => ?_, fun j r hbeside hr => ?_, fun settled => ?_, hunapplied, hunlocked⟩
  · rcases h.stands with ⟨hruns, -⟩ | hruns
    · rw [hruns.result?_eq] at hr
      cases hr
    · rw [hruns.result?_eq] at hr
      cases hr
      rfl
  · obtain ⟨hne, other, you, hother, htxn, hparked⟩ := hbeside
    obtain ⟨target, w, hlocking, hqueues⟩ := hparked.queues
    rcases h.others j other you target w hne hother htxn hlocking hqueues with ⟨hruns, -⟩ | hruns
    · have hnone : (Task.operation other).result? = none := by
        simp only [Task.result?, hlocking]
      rw [hruns.result?_eq, hnone] at hr
      cases hr
    · rw [hruns.result?_eq] at hr
      cases hr
      rfl
  · obtain ⟨hresult, hothers⟩ := h.settled hregular settled
    refine ⟨hresult ▸ nofun, fun j hbeside => ?_⟩
    obtain ⟨hne, other, you, hother, htxn, hparked⟩ := hbeside
    obtain ⟨target, w, hlocking, hqueues⟩ := hparked.queues
    rw [hothers j other you hne hother htxn target w hlocking hqueues]
    exact nofun

/-- What a refused statement leaves of a transaction that is being finished. -/
theorem Regular.spared (h : db.Regular clock) (hruns : db.Runs i op me) {m : Lock.Manager}
    (hrefused : db.Refused i op me why m) (hwhy : why ≠ .released)
    (hfound : db.directory.find? me.txn = some txn) (hfinishing : txn.phase ≠ .active) :
    db.Spared i me why txn (db.resume i) := by
  have hregular := h.resume i
  have hparked := hrefused.parked
  -- It leaves the transaction and is over in this turn, since somebody else finishes the
  -- transaction.
  have hresume := hrefused.leaves hwhy hfound hfinishing
  have hlocks : (db.resume i).locks = m := by
    rw [hresume]
    unfold Database.finish
    rw [setStand_eq]
    rfl
  have hleft : ((((db.pop i).withLocks m).withDirectory
      (db.directory.set me.txn txn.deregister.1)).wake txn.deregister.2).Runs i op me := hruns
  refine ⟨?_, ?_, ?_, ?_, fun k => hlocks ▸ hrefused.holders k, fun j hbeside => ?_⟩
  · rw [hresume]
    exact (hleft.setStand _).result?_eq
  · rw [hresume]
    unfold Database.finish
    rw [directory_setStand]
    exact (Directory.find?_set hfound _ me.txn).trans (if_pos rfl)
  · rw [hresume]
    unfold Database.finish
    rw [attached_setStand]
    rfl
  · rw [hresume]
    unfold Database.finish
    rw [commits_setStand]
    rfl
  · -- The other statements of the transaction are still queued.
    obtain ⟨hne, other, you, hother, htxn, hparked⟩ := hbeside
    obtain ⟨target, w, hlocking, hqueues⟩ := hparked.queues
    have hstays := h.lifecycle.runs_resume h.twoPhase hother hne
    refine ⟨hne, other, you, hstays, htxn, target, w, hlocking, ?_⟩
    rw [hlocks]
    exact (hlocks ▸ hregular.attended.tallied).pending
      (hrefused.parked j other you target w hne hother htxn hlocking hqueues)

/-- A statement of a transaction `txn` has been refused its lock, since it conflicts with an older
transaction or since its deadline has passed, and has its turn now.

If the transaction is active it is aborted in this turn: whatever happens later, the statement has no
other result than the refusal, all other statements of the transaction that were parked are told that
it is over, no write of it is applied, and it holds no lock. In the very action in which the statement
gets its result its connection is detached if the transaction is implicit, and attached to a fresh one
that is younger than all others if it is explicit.

If the transaction is being finished already, the statement has its result at once, and nothing else
changes for the transaction. Neither in this turn nor in a later one of the statement does any other
transaction change. -/
theorem aborted_or_spared {config : Config} {hasher : Hasher}
    (run : Run Coordinated (new config clock hasher) db) (hruns : db.Runs i op me)
    (hending : db.bodyEnding? op me = some (.refused why)) (hwhy : why = .conflict ∨ why = .timeout)
    (hfound : db.directory.find? me.txn = some txn) :
    (txn.phase = .active →
      (∀ later, Run Coordinated (db.resume i) later → db.Aborted i me why later) ∧
      ∀ last action, last = db ∧ action = .resume i ∨
          Run Coordinated (db.resume i) last ∧ last.Coordinated action →
        last.result? i = none → (last.perform action).result? i ≠ none →
          last.Succeeds clock (last.perform action) op.connection (txn.origin = .explicit)) ∧
    (txn.phase ≠ .active → db.Spared i me why txn (db.resume i)) ∧
    ∀ last, last = db ∨ Run Coordinated (db.resume i) last → ∀ u old, u ≠ me.txn →
      last.directory.find? u = some old → (last.resume i).directory.find? u = some old := by
  have h : db.Regular clock := run.regular (regular_new config clock hasher)
  have hwhy : why ≠ .released := by
    rcases hwhy with rfl | rfl
    · exact nofun
    · exact nofun
  have hregular := h.resume i
  refine ⟨fun hactive => ?_, fun hfinishing => ?_, fun last hlast u old hne hold => ?_⟩
  · obtain ⟨habandons, hsucceeds⟩ := h.abandons hruns hending hwhy hfound hactive
    refine ⟨fun later further =>
      (habandons.run further hregular).aborted (further.regular hregular), ?_⟩
    rintro last action (⟨rfl, rfl⟩ | ⟨further, hcoordinated⟩) hopen hover
    · exact hsucceeds hover
    · exact ((habandons.run further hregular).perform (further.regular hregular)
        hcoordinated).2 hopen hover
  · obtain ⟨m, hrefused⟩ := h.refused hruns hending
    exact h.spared hruns hrefused hwhy hfound hfinishing
  · obtain ⟨stand, hstays⟩ : ∃ stand, last.Runs i { op with stand := stand } me := by
      rcases hlast with rfl | further
      · exact ⟨op.stand, hruns⟩
      · obtain ⟨_, hresumed⟩ := h.lifecycle.stays_perform h.twoPhase hruns (.resume i)
        obtain ⟨stand, hstays⟩ := hregular.stays_run further hresumed
        exact ⟨stand, hstays⟩
    have hlifecycle : last.Lifecycle := by
      rcases hlast with rfl | further
      · exact h.lifecycle
      · exact (further.regular hregular).lifecycle
    exact hlifecycle.others_resume hstays hne hold

end

/-- Three connections begin, and the second one has two writes in flight: one is parked behind the
younger transaction of the third connection, the other one is about to be refused the row that the
older transaction of the first one holds. -/
def besieged : List (Action MemoryTable) :=
  [ .createTable ⟨"t", .any, .any, ⟨[]⟩⟩, .beginTransaction 0, .beginTransaction 1,
    .beginTransaction 2, .submit 0 (.statement (.put "t" (.integer 1) .null)), .resume 0,
    .submit 2 (.statement (.put "t" (.integer 2) .null)), .resume 1,
    .submit 1 (.statement (.put "t" (.integer 2) (.bool true))), .resume 2,
    .submit 1 (.statement (.put "t" (.integer 1) (.bool true))) ]

/-- For instance, when nothing can run any more both writes are over, the parked one since its
transaction is, and in the last turn the connection has got a fresh transaction. -/
theorem aborted_or_spared_besieged :
    ∃ db last : Database MemoryTable,
      besieged.foldl perform (new .standard default ⟨"Constant", fun _ => ⟨7⟩⟩) = db ∧
      [.resume 2].foldl perform (db.resume 3) = last ∧ db.ParkedBeside 3 ⟨⟨1⟩, ⟨2⟩⟩ 2 ∧
      last.result? 3 = none ∧ db.Aborted 3 ⟨⟨1⟩, ⟨2⟩⟩ .conflict (last.perform (.resume 3)) ∧
      (last.perform (.resume 3)).result? 3 = some (.error (Cause.lock .conflict)) ∧
      (last.perform (.resume 3)).result? 2 = some (.error Cause.terminalState) ∧
      last.Succeeds default (last.perform (.resume 3)) 1 true := by
  have run : Run Coordinated (new .standard default ⟨"Constant", fun _ => ⟨7⟩⟩)
      (besieged.foldl perform (new .standard default ⟨"Constant", fun _ => ⟨7⟩⟩)) :=
    Run.performAll .start (by decide)
  have further : Run Coordinated
      ((besieged.foldl perform (new .standard default ⟨"Constant", fun _ => ⟨7⟩⟩)).resume 3)
      ([.resume 2].foldl perform
        ((besieged.foldl perform (new .standard default ⟨"Constant", fun _ => ⟨7⟩⟩)).resume 3)) :=
    Run.performAll .start (by decide)
  have htallied := (run.regular (regular_new _ _ _)).attended.tallied
  have hruns : (besieged.foldl perform (new .standard default ⟨"Constant", fun _ => ⟨7⟩⟩)).Runs 3
      ⟨1, .statement (.put "t" (.integer 1) (.bool true)), some ⟨⟨1⟩, ⟨2⟩⟩, false, .issued⟩
      ⟨⟨1⟩, ⟨2⟩⟩ := ⟨rfl, rfl⟩
  obtain ⟨hactive, -⟩ := aborted_or_spared run hruns rfl (.inl rfl) rfl
  obtain ⟨haborted, hsucceeds⟩ := hactive rfl
  exact ⟨_, _, rfl, rfl, ⟨by decide, _, _, ⟨rfl, rfl⟩, rfl, _, _, rfl, htallied.pending (by decide)⟩,
    rfl, haborted _ (.perform further rfl), rfl, rfl,
    hsucceeds _ (.resume 3) (.inr ⟨further, rfl⟩) rfl nofun⟩

end TxStore.Database
