import TxStore.Proofs.Database.Attendance
import TxStore.Proofs.Database.Progress
import TxStore.Proofs.Database.Replays

/-!
# Where nothing can run any more

The line empties, and whoever is not over then waits for a lock, or commits and waits for operations
of its own transaction that do (`parked_of_settled`). A rollback, a disconnect and an abort never
wait then: they release the locks of their transaction first, and so its requests end, and whoever
leaves last wakes the one who waits.
-/

namespace TxStore.Database

variable {σ : Type} {db : Database σ} {i : TaskId} {op : Operation} {me : Lock.Holder}
  {t : TransactionId} {txn : Transaction}

/-- Whether a statement is parked: its request to write is queued for the lock of its row, once and
nowhere else, and has no answer. -/
def Parked (db : Database σ) (me : Lock.Holder) (stand : Stand) : Prop :=
  ∃ target w, stand = .locking target w ∧ db.locks.Pending w.key ⟨me, .write, w.ticket, true⟩

namespace Attended

variable (h : db.Attended none) (settled : db.ready = [])

include h settled

/-- When the line is empty an operation is over, or it is at work and parked, or it finishes its
transaction and waits for others in flight. -/
theorem settled_cases (hruns : db.Runs i op me) :
    (∃ result, op.stand = .finished result) ∨ op.stand.isWorking ∧ db.Parked me op.stand ∨
      (∃ purpose result, op.stand = .draining purpose result) ∧
        ∃ txn, db.directory.find? me.txn = some txn ∧ txn.inFlight ≠ 0 := by
  have hline : i ∉ db.ready := by
    rw [settled]
    exact List.not_mem_nil
  have hstirs := h.stirs i op me nofun hruns
  generalize op.stand = stand at hstirs ⊢
  cases stand with
  | finished result => exact .inl ⟨result, rfl⟩
  | locking target w =>
    have hqueues := hstirs.resolve_right fun htold => hline htold.2
    exact .inr (.inl ⟨rfl, target, w, rfl, h.tallied.pending hqueues⟩)
  | draining purpose result =>
    obtain ⟨txn, hfound, hparked⟩ := hstirs.resolve_left hline
    exact .inr (.inr ⟨⟨purpose, result, rfl⟩, txn, hfound,
      h.parked me.txn txn hfound (List.ne_nil_of_mem hparked)⟩)
  | issued => exact absurd hstirs hline
  | reading target => exact absurd hstirs hline
  | fetched target row => exact absurd hstirs hline
  | applying plan result => exact absurd hstirs hline
  | applied errors result => exact absurd hstirs hline

/-- Whoever is at work is parked then. -/
theorem parked_of_working (hruns : db.Runs i op me) (hworking : op.stand.isWorking) :
    db.Parked me op.stand := by
  rcases h.settled_cases settled hruns with ⟨result, hstand⟩ | ⟨-, hparked⟩ |
    ⟨⟨purpose, result, hstand⟩, -⟩
  · rw [hstand] at hworking
    cases hworking
  · exact hparked
  · rw [hstand] at hworking
    cases hworking

/-- A transaction that is being finished has operations in flight. -/
theorem inFlight_pos (hlifecycle : db.Lifecycle) (hfound : db.directory.find? t = some txn)
    (hclosing : txn.phase.isClosing) : 0 < txn.inFlight := by
  obtain ⟨i, op, me, hruns, hstand, rfl⟩ := hlifecycle.closer t txn hfound hclosing
  rcases h.settled_cases settled hruns with ⟨result, hover⟩ | ⟨-, target, w, hlocking, -⟩ |
    ⟨-, found, hfound', hbusy⟩
  · rw [hover] at hstand
    cases hstand
  · rw [hlocking] at hstand
    cases hstand
  · rw [hfound] at hfound'
    cases hfound'
    exact Nat.pos_of_ne_zero hbusy

/-- No transaction is being aborted: its locks would have been released, and its requests with them.
-/
theorem not_aborting (hlifecycle : db.Lifecycle) (hfound : db.directory.find? t = some txn) :
    txn.phase ≠ .aborting := by
  intro haborting
  have hbusy := h.inFlight_pos settled hlifecycle hfound (by rw [haborting]; rfl)
  have hreleased := (h.aborting t txn hfound haborting).resolve_left (Nat.ne_of_gt hbusy)
  rw [hlifecycle.inFlight t txn hfound] at hbusy
  obtain ⟨i, op, me, hruns, rfl, hworking⟩ := exists_working (Nat.ne_of_gt hbusy)
  obtain ⟨target, w, -, hpending⟩ := h.parked_of_working settled hruns hworking
  exact h.consistent.not_involves hreleased w.key (.inr ⟨_, hpending.mem, rfl⟩)

end Attended

variable [Backend σ]

/-- No operation waits without being attended to after any run. -/
theorem Run.attended {P : Database σ → Action σ → Prop} {first : Database σ} (run : Run P first db)
    (hfirst : first.Attended none) (hlifecycle : first.Lifecycle) (htwoPhase : first.TwoPhase) :
    db.Attended none := by
  induction run with
  | start => exact hfirst
  | perform run _ ih =>
    exact ih.perform (run.lifecycle hlifecycle htwoPhase) (run.twoPhase htwoPhase) _

omit [Backend σ] in
/-- In a new database nobody waits. -/
theorem attended_new (config : Config) (clock : Clock) (hasher : Hasher) :
    (new config clock hasher : Database σ).Attended none where
  tallied := Lock.Manager.tallied_new _
  consistent := Lock.Manager.consistent_new _
  given _ _ _ htask := by cases htask
  apart _ _ _ _ _ _ htask := by cases htask
  opened _ _ htask := by cases htask
  stirs _ _ _ _ hruns := by cases hruns.1
  parked _ _ hfound := by cases hfound
  aborting _ _ hfound := by cases hfound

/-- So it is in every database that is reached by any actions. -/
theorem Reachable.attended (h : db.Reachable) : db.Attended none := by
  obtain ⟨config, clock, hasher, run⟩ := h
  exact run.attended (attended_new config clock hasher) (lifecycle_new config clock hasher)
    (twoPhase_new config clock hasher)

/-- Nobody is left hanging. After any actions the tasks that can run have finitely many turns, in
whatever order. When nothing can run any more, no transaction is being aborted; one that is being
committed has operations in flight, and each of these is parked in the queue of a lock; and every
operation is over, or it is a statement that is parked so, or it commits its transaction and waits
for such statements, called to do so or because its transaction was made for it. -/
theorem parked_of_settled (h : db.Reachable) :
    Acc Turns db ∧ (db.ready = [] →
      (∀ t txn, db.directory.find? t = some txn → txn.phase ≠ .aborting) ∧
      (∀ t txn, db.directory.find? t = some txn → txn.phase = .committing →
        0 < txn.inFlight ∧ txn.inFlight = db.working t ∧
          ∀ i op me, db.Runs i op me → me.txn = t → op.stand.isWorking → db.Parked me op.stand) ∧
      ∀ (i : TaskId) op, db.tasks[i]? = some (.operation op) →
        (∃ result, op.stand = .finished result) ∨
        (∃ me, op.holder = some me ∧ op.call.isStatement ∧ db.Parked me op.stand) ∨
        ∃ me txn result, op.holder = some me ∧ op.stand = .draining .commit result ∧
          (op.call = .commit ∨ op.call.isStatement ∧ op.opened) ∧
          db.directory.find? me.txn = some txn ∧ txn.phase = .committing) := by
  have hlifecycle := h.lifecycle
  have hattended := h.attended
  refine ⟨wellFounded_turns.apply db, fun settled => ?_⟩
  refine ⟨fun t txn => hattended.not_aborting settled hlifecycle, fun t txn hfound hphase =>
    ⟨?_, hlifecycle.inFlight t txn hfound, fun i op me hruns _ =>
      hattended.parked_of_working settled hruns⟩, fun i op htask => ?_⟩
  · exact hattended.inFlight_pos settled hlifecycle hfound (by rw [hphase]; rfl)
  · by_cases hover : ∃ result, op.stand = .finished result
    · exact .inl hover
    obtain ⟨me, hme⟩ := hlifecycle.held i op htask fun result heq => hover ⟨result, heq⟩
    have hruns : db.Runs i op me := ⟨htask, hme⟩
    rcases hattended.settled_cases settled hruns with hover' | ⟨hworking, hparked⟩ |
      ⟨⟨purpose, result, hstand⟩, -⟩
    · exact absurd hover' hover
    · exact .inr (.inl ⟨me, hme, hlifecycle.placed i op htask hworking, hparked⟩)
    · obtain ⟨txn, hfound, hfits⟩ := hlifecycle.fits i op me hruns
      rw [hstand] at hfits
      cases purpose with
      | commit =>
        refine .inr (.inr ⟨me, txn, result, hme, hstand, ?_, hfound, hfits.1⟩)
        refine (hlifecycle.owned i op htask (by rw [hstand]; rfl)).imp id fun hopened => ?_
        exact ⟨hattended.opened i op htask hopened, hopened⟩
      | discard restart =>
        exact absurd hfits (hattended.not_aborting settled hlifecycle hfound)

/-- Two connections write the same row. The older transaction has to wait for the younger one, and
its connection commits meanwhile. -/
def behindWriter : List (Action MemoryTable) :=
  [ .createTable oneRowed, .beginTransaction 0, .beginTransaction 1,
    .submit 1 (.statement (.put "t" (.integer 1) .null)), .resume 0,
    .submit 0 (.statement (.put "t" (.integer 1) (.bool true))), .submit 0 .commit, .resume 1 ]

/-- For instance, the commit waits for the write of its own transaction, which is parked. -/
theorem parked_of_settled_behindWriter :
    ∃ db : Database MemoryTable,
      behindWriter.foldl perform (new .standard default ⟨"Constant", fun _ => ⟨7⟩⟩) = db ∧
      db.Reachable ∧ db.ready = [] ∧
      (∃ txn, db.directory.find? ⟨0⟩ = some txn ∧ txn.phase = .committing ∧ 0 < txn.inFlight) ∧
      ∃ op me, db.Runs 1 op me ∧ me.txn = ⟨0⟩ ∧ db.Parked me op.stand := by
  have hreached := reachable_performAll .standard default ⟨"Constant", fun _ => ⟨7⟩⟩ behindWriter
  obtain ⟨-, hcommitting, -⟩ := (parked_of_settled hreached).2 (by decide)
  obtain ⟨hbusy, -, hparked⟩ := hcommitting ⟨0⟩ _ rfl rfl
  exact ⟨_, rfl, hreached, by decide, ⟨_, rfl, rfl, hbusy⟩, _, _, ⟨rfl, rfl⟩, rfl,
    hparked 1 _ _ ⟨rfl, rfl⟩ rfl rfl⟩

end TxStore.Database
