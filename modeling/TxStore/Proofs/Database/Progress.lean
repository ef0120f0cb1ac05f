import Mathlib.Data.Prod.Lex
import Mathlib.Algebra.GroupWithZero.Nat
import TxStore.Proofs.Database.Lives

/-!
# The line empties

A turn moves no other task than its own. Either it moves that nearer to its end, whoever else may
then be put in line, or it only takes it out of the line: the task waits on. So the tasks in line
cannot have turns for ever, in whatever order they have them (`wellFounded_turns`).
-/

namespace TxStore

/-- How many stands may come after one. -/
def Stand.remaining : Stand → Nat
  | .issued => 7
  | .locking _ _ => 6
  | .reading _ => 5
  | .fetched _ _ => 4
  | .draining _ _ => 3
  | .applying _ _ => 2
  | .applied _ _ => 1
  | .finished _ => 0

/-- How many stages may come after one. -/
def Lock.Stage.remaining : Lock.Stage → Nat
  | .issued => 2
  | .waiting _ => 1
  | .answered _ | .cancelled => 0

/-- How far a task is from its end. -/
def Task.remaining : Task → Nat
  | .operation op => op.stand.remaining
  | .request r => r.stage.remaining

/-- How far several tasks are from their ends together. -/
def remainingOf (tasks : Array Task) : Nat :=
  (tasks.toList.map Task.remaining).sum

/-- The tasks come nearer to their ends together if one of them does. -/
theorem remainingOf_set_lt {tasks : Array Task} {i : TaskId} {task task' : Task}
    (htask : tasks[i]? = some task) (hnearer : task'.remaining < task.remaining) :
    remainingOf (tasks.setIfInBounds i task') < remainingOf tasks := by
  obtain ⟨hlt, hget⟩ := Array.getElem?_eq_some_iff.mp htask
  have hold : tasks.toList = tasks.toList.take i ++ task :: tasks.toList.drop (i + 1) := by
    conv_lhs => rw [← List.take_append_drop i tasks.toList, List.drop_eq_getElem_cons hlt]
    rw [Array.getElem_toList, hget]
  have hnew : (tasks.setIfInBounds i task').toList =
      tasks.toList.take i ++ task' :: tasks.toList.drop (i + 1) := by
    rw [Array.toList_setIfInBounds]
    exact List.set_eq_take_append_cons_drop.trans (if_pos hlt)
  unfold remainingOf
  rw [hnew]
  conv_rhs => rw [hold]
  rw [List.map_append, List.map_append, List.sum_append, List.sum_append, List.map_cons,
    List.map_cons, List.sum_cons, List.sum_cons]
  omega

namespace Database

variable {σ : Type} {db mid db' : Database σ} {i : TaskId} {op : Operation} {me : Lock.Holder}
  {t : TransactionId} {txn : Transaction} {purpose : Purpose} {result : Result} {n k : Nat}

/-- Whether operation `i` has been moved to where less than `n` remains, and no other task has been
moved. -/
def Nears (i : TaskId) (n : Nat) (db db' : Database σ) : Prop :=
  ∃ stand : Stand, stand.remaining < n ∧ db'.tasks = db.tasks.modify i (Task.withStand stand)

/-- Less remains than more. -/
theorem Nears.mono (h : Nears i n db db') (hle : n ≤ k) : Nears i k db db' := by
  obtain ⟨stand, hlt, htasks⟩ := h
  exact ⟨stand, Nat.lt_of_lt_of_le hlt hle, htasks⟩

/-- It makes no difference what is done before to what is no task. -/
theorem Nears.of_tasks (h : Nears i n mid db') (htasks : mid.tasks = db.tasks) :
    Nears i n db db' := by
  obtain ⟨stand, hlt, heq⟩ := h
  exact ⟨stand, hlt, htasks ▸ heq⟩

/-- An operation may be moved. -/
theorem nears_setStand (db : Database σ) (i : TaskId) (stand : Stand) (hlt : stand.remaining < n) :
    Nears i n db (db.setStand i stand) :=
  ⟨stand, hlt, congrArg tasks (db.setStand_eq i stand)⟩

/-! ## Finishing transactions -/

/-- An operation that is over is as near to its end as can be. -/
theorem nears_finish (db : Database σ) (i : TaskId) (result : Result) :
    Nears i 1 db (db.finish i result) :=
  db.nears_setStand i (.finished result) Nat.one_pos

/-- Separating a transaction from its connection moves no task. -/
theorem tasks_separate (db : Database σ) (c : ConnectionId) (t : TransactionId) :
    (db.separate c t).tasks = db.tasks := by
  rw [separate_eq]

/-- Replacing a transaction moves no task. -/
theorem tasks_replace (db : Database σ) (c : ConnectionId) (t : TransactionId) :
    (db.replace c t).1.tasks = db.tasks := by
  unfold replace
  split
  · split
    · rfl
    · dsimp only
      split
      · rfl
      · rfl
  · rfl

/-- Leaving a transaction moves no task. -/
theorem tasks_leave (db : Database σ) (t : TransactionId) : (db.leave t).tasks = db.tasks := by
  unfold leave
  split
  · rfl
  · rfl

/-- The commit is over then. -/
theorem nears_endCommit (db : Database σ) (i : TaskId) (c : ConnectionId) (t : TransactionId)
    (errors : List Error) (result : Result) : Nears i 1 db (db.endCommit i c t errors result) :=
  (nears_finish _ i _).of_tasks (tasks_separate ((db.releaseLocks t).forgetLocks t) c t)

/-- The rollback or abort is over then. -/
theorem nears_endDiscard (db : Database σ) (i : TaskId) (c : ConnectionId) (t : TransactionId)
    (restart : Bool) (result : Result) : Nears i 1 db (db.endDiscard i c t restart result) := by
  unfold endDiscard
  dsimp only
  split
  · exact (nears_finish _ i _).of_tasks (tasks_replace (db.forgetLocks t) c t)
  · exact (nears_finish _ i _).of_tasks (tasks_separate (db.forgetLocks t) c t)

/-- Who has waited for the others goes on to apply the writes, or is over. -/
theorem nears_afterDrain (db : Database σ) (i : TaskId) (c : ConnectionId) (t : TransactionId)
    (purpose : Purpose) (result : Result) : Nears i 3 db (db.afterDrain i c t purpose result) := by
  unfold afterDrain
  cases purpose with
  | discard restart => exact (db.nears_endDiscard i c t restart result).mono (by decide)
  | commit =>
    dsimp only
    split
    · exact ((db.recordCommit t []).nears_endCommit i c t [] result).mono (by decide)
    · exact db.nears_setStand i (.applying _ result) (by decide : 2 < 3)

/-- Who finishes a transaction has to wait for the others at most. -/
theorem nears_drain (hfound : db.directory.find? t = some txn) (i : TaskId) (c : ConnectionId)
    (purpose : Purpose) (result : Result) : Nears i 4 db (db.drain i c t purpose result) := by
  unfold drain
  rw [hfound]
  dsimp only
  split
  · exact (db.nears_afterDrain i c t purpose result).mono (by decide)
  · exact nears_setStand (db.withDirectory _) i (.draining purpose result) (by decide : 3 < 4)

/-- So it is with a transaction that has just been turned. -/
theorem nears_drain_of_turnTo {target : Phase} (h : db.turnTo t target = .ok mid)
    (next : Database σ) (htasks : next.tasks = mid.tasks)
    (hdirectory : next.directory = mid.directory) (i : TaskId) (c : ConnectionId)
    (purpose : Purpose) (result : Result) : Nears i 4 db (next.drain i c t purpose result) := by
  obtain ⟨txn, hfound, -, rfl⟩ := turnTo_ok h
  have hturned : next.directory.find? t = some { txn with phase := target } := by
    rw [hdirectory]
    exact (Directory.find?_set hfound _ t).trans (if_pos rfl)
  exact (nears_drain hturned i c purpose result).of_tasks htasks

/-- A commit waits for others at most. -/
theorem nears_commit (db : Database σ) (i : TaskId) (c : ConnectionId)
    (expected : Option TransactionId) (result : Result) :
    Nears i 4 db (db.commit i c expected result) := by
  have hfinish : ∀ result, Nears i 4 db (db.finish i result) := fun result =>
    (db.nears_finish i result).mono (by decide)
  unfold commit
  split
  · exact hfinish _
  · split
    · split
      · exact hfinish _
      · rename_i next hturned
        exact nears_drain_of_turnTo hturned next rfl rfl i c .commit result
    · exact hfinish _

/-- So does an abort. -/
theorem nears_abort (db : Database σ) (i : TaskId) (c : ConnectionId) (t : TransactionId)
    (why : Lock.Refusal) : Nears i 4 db (db.abort i c t why) := by
  have hfinish : ∀ result, Nears i 4 db (db.finish i result) := fun result =>
    (db.nears_finish i result).mono (by decide)
  unfold abort
  dsimp only
  split
  · split
    · exact hfinish _
    · rename_i next hturned
      exact nears_drain_of_turnTo hturned (next.releaseLocks t) rfl rfl i c _ _
  · exact hfinish _

/-! ## Statements -/

/-- A statement whose body has ended finishes its transaction at most. -/
theorem nears_conclude (db : Database σ) (i : TaskId) (op : Operation) (t : TransactionId)
    (ending : Ending) : Nears i 4 db (db.conclude i op t ending) := by
  have hfinish : ∀ result, Nears i 4 (db.leave t) ((db.leave t).finish i result) := fun result =>
    ((db.leave t).nears_finish i result).mono (by decide)
  have hclose : ∀ result, Nears i 4 (db.leave t)
      (if op.opened then (db.leave t).commit i op.connection (some t) result
        else (db.leave t).finish i result) := by
    intro result
    split
    · exact (db.leave t).nears_commit i op.connection (some t) result
    · exact hfinish result
  refine Nears.of_tasks ?_ (db.tasks_leave t)
  unfold conclude
  cases ending with
  | done value => exact hclose (.ok value)
  | failed e => exact hclose (.error e)
  | refused why =>
    cases why with
    | released => exact hfinish _
    | conflict => exact (db.leave t).nears_abort i op.connection t _
    | timeout => exact (db.leave t).nears_abort i op.connection t _
  | broken text => exact hfinish _

/-- With its lock a statement reads its row at most. -/
theorem nears_locked (db : Database σ) (i : TaskId) (op : Operation) (t : TransactionId)
    (s : Statement) (target : Target) : Nears i 6 db (db.locked i op t s target) := by
  have hconclude : ∀ (db : Database σ) ending, Nears i 6 db (db.conclude i op t ending) :=
    fun db ending => (db.nears_conclude i op t ending).mono (by decide)
  have hread : Nears i 6 db ((db.setStand i (.reading target)).wake [i]) :=
    db.nears_setStand i (.reading target) (by decide : 5 < 6)
  unfold locked
  cases s with
  | put table key value => exact hconclude (db.buffer t target key (.put value)) _
  | get table key =>
    dsimp only
    split
    · exact hconclude db _
    · exact hconclude db _
    · exact hread
  | delete table key =>
    dsimp only
    split
    · exact hconclude (db.buffer t target key .delete) _
    · exact hconclude db _
    · exact hread

/-- With its row it is not far from its end. -/
theorem nears_fetched (db : Database σ) (i : TaskId) (op : Operation) (t : TransactionId)
    (s : Statement) (target : Target) (row : Outcome Value) :
    Nears i 4 db (db.fetched i op t s target row) := by
  unfold fetched
  cases row with
  | failed e => exact db.nears_conclude i op t _
  | broken text => exact db.nears_conclude i op t _
  | done value =>
    cases s with
    | delete table key => exact (db.buffer t target key .delete).nears_conclude i op t _
    | get table key => exact db.nears_conclude i op t _
    | put table key value => exact db.nears_conclude i op t _

/-- With an answer to its request it goes on. -/
theorem nears_answered (db : Database σ) (i : TaskId) (op : Operation) (t : TransactionId)
    (s : Statement) (target : Target) (m : Lock.Manager) (answer : Except Lock.Refusal Unit) :
    Nears i 6 db (db.acquired i op t s target (m, .answered answer)) := by
  cases answer with
  | ok got => exact (db.withLocks m).nears_locked i op t s target
  | error why => exact ((db.withLocks m).nears_conclude i op t _).mono (by decide)

variable [Backend σ]

/-- A statement that begins waits for its lock at most. -/
theorem nears_begin (db : Database σ) (i : TaskId) (op : Operation) (me : Lock.Holder)
    (s : Statement) : Nears i 7 db (db.begin i op me s) := by
  have hconclude : ∀ ending, Nears i 7 db (db.conclude i op me.txn ending) := fun ending =>
    (db.nears_conclude i op me.txn ending).mono (by decide)
  unfold begin
  split
  · exact hconclude _
  · split
    · exact hconclude _
    · split
      · exact hconclude _
      · exact hconclude _
      · rcases db.locks.acquire db.now .write me _ with ⟨m, answer | w⟩
        · exact (db.nears_answered i op me.txn s _ m answer).mono (by decide)
        · exact db.nears_setStand i (.locking _ w) (by decide : 6 < 7)

/-! ## Turns -/

/-- In its turn an operation comes nearer to its end, or nothing is done at all. -/
theorem nears_resumeOperation (db : Database σ) (htask : db.tasks[i]? = some (.operation op))
    (me : Lock.Holder) :
    Nears i op.stand.remaining db (db.resumeOperation i op me) ∨
      (db.resumeOperation i op me).tasks = db.tasks ∧
        (db.resumeOperation i op me).ready = db.ready := by
  -- By cases on where the operation stands. It moves on everywhere but where it has to wait still.
  unfold resumeOperation
  split
  · rename_i s hstand hcall
    rw [hstand]
    exact .inl (db.nears_begin i op me s)
  · rename_i target w s hstand hcall
    cases hpoll : db.locks.poll db.now w with
    | mk m a =>
      cases a with
      | answered answer =>
        rw [hstand]
        exact .inl (db.nears_answered i op me.txn s target m answer)
      | waiting w' =>
        -- No answer has come.
        obtain ⟨rfl, rfl, -⟩ := Lock.Manager.poll_waiting hpoll
        have hsame : db.acquired i op me.txn s target (db.locks, .waiting w') = db := by
          show (db.setStand i (.locking target w')).withLocks db.locks = db
          rw [← hstand, setStand_self db htask]
          exact withLocks_of_resolved rfl
        rw [hsame]
        exact .inr ⟨rfl, rfl⟩
  · rename_i target s hstand hcall
    rw [hstand]
    exact .inl (db.nears_setStand i (.fetched target _) (by decide : 4 < 5))
  · rename_i target row s hstand hcall
    rw [hstand]
    exact .inl (db.nears_fetched i op me.txn s target row)
  · rename_i call purpose result hstand
    unfold drain
    split
    · exact .inr ⟨rfl, rfl⟩
    · split
      · rw [hstand]
        exact .inl (db.nears_afterDrain i op.connection me.txn purpose result)
      · -- Others are in flight still.
        rename_i txn hfound parked hparked
        have hsame : (db.withDirectory (db.directory.set me.txn parked)).setStand i
            (.draining purpose result) = db.withDirectory (db.directory.set me.txn parked) := by
          rw [← hstand]
          exact setStand_self _ htask
        rw [hsame]
        exact .inr ⟨rfl, rfl⟩
  · rename_i call plan result hstand
    rw [hstand]
    exact .inl (nears_setStand
      (({ db with store := _ } : Database σ).recordCommit me.txn plan) i (.applied _ result)
        (by decide : 1 < 2))
  · rename_i call errors result hstand
    rw [hstand]
    exact .inl (db.nears_endCommit i op.connection me.txn errors result)
  · exact .inr ⟨rfl, rfl⟩

/-- In its turn a bare request comes nearer to its end, or nothing is done at all. -/
theorem nears_run {r : Lock.Request} {m m' : Lock.Manager} {now : Duration} {stage : Lock.Stage}
    (h : r.run m now = (m', stage)) :
    stage.remaining < r.stage.remaining ∨ m' = m ∧ stage = r.stage := by
  unfold Lock.Request.run at h
  cases hstage : r.stage with
  | issued =>
    rw [hstage] at h
    refine .inl ?_
    rcases hturn : m.acquire now r.mode r.holder r.key with ⟨_, answer | w⟩
    · cases (congrArg Lock.Stage.of hturn).symm.trans h
      exact Nat.two_pos
    · cases (congrArg Lock.Stage.of hturn).symm.trans h
      exact Nat.one_lt_two
  | waiting w =>
    rw [hstage] at h
    rcases hturn : m.poll now w with ⟨_, answer | w'⟩
    · cases (congrArg Lock.Stage.of hturn).symm.trans h
      exact .inl Nat.one_pos
    · obtain ⟨rfl, rfl, -⟩ := Lock.Manager.poll_waiting hturn
      cases (congrArg Lock.Stage.of hturn).symm.trans h
      exact .inr ⟨rfl, rfl⟩
  | answered answer =>
    rw [hstage] at h
    cases h
    exact .inr ⟨rfl, rfl⟩
  | cancelled =>
    rw [hstage] at h
    cases h
    exact .inr ⟨rfl, rfl⟩

/-- A turn brings the tasks nearer to their ends, or it takes its own out of the line and no more.
-/
theorem nears_resume (db : Database σ) (i : TaskId) :
    remainingOf (db.resume i).tasks < remainingOf db.tasks ∨
      (db.resume i).tasks = db.tasks ∧ (db.resume i).ready = db.ready.erase i := by
  rcases db.resume_cases i with ⟨op, me, hruns⟩ | ⟨r, hr⟩ | ⟨-, heq⟩
  · rw [resume_eq hruns]
    rcases nears_resumeOperation { db with ready := db.ready.erase i } hruns.1 me with
      ⟨stand, hlt, htasks⟩ | hsame
    · refine .inl ?_
      rw [htasks, modify_eq_set hruns.1]
      exact remainingOf_set_lt hruns.1 hlt
    · exact .inr hsame
  · rw [resume_eq_of_request hr]
    rcases hrun : r.run db.locks db.now with ⟨m, stage⟩
    rcases nears_run hrun with hlt | ⟨rfl, rfl⟩
    · exact .inl (remainingOf_set_lt hr hlt)
    · have hsame : db.tasks.setIfInBounds i (.request r) = db.tasks := by
        rw [← modify_eq_set (f := fun _ => .request r) hr]
        exact modify_eq_self fun task hget => Option.some.inj (hr.symm.trans hget)
      dsimp only
      rw [hsame, withLocks_of_resolved rfl]
      exact .inr ⟨rfl, rfl⟩
  · rw [heq]
    exact .inr ⟨rfl, rfl⟩

/-- What is left to do: how far the tasks are from their ends, and how many stand in line. -/
def left (db : Database σ) : Nat ×ₗ Nat :=
  toLex (remainingOf db.tasks, db.ready.length)

/-- Whether `next` is what becomes of a database when a task in its line has its turn. -/
def Turns (next db : Database σ) : Prop :=
  ∃ i ∈ db.ready, next = db.resume i

/-- The tasks in line cannot have turns for ever. -/
theorem wellFounded_turns : WellFounded (Turns (σ := σ)) := by
  refine Subrelation.wf (r := InvImage (· < ·) left) ?_ (InvImage.wf left wellFounded_lt)
  rintro next db ⟨i, hline, rfl⟩
  -- Where the tasks come no nearer to their ends the line gets shorter.
  refine Prod.Lex.toLex_lt_toLex.mpr ((db.nears_resume i).imp id fun hsame => ?_)
  obtain ⟨htasks, hready⟩ := hsame
  refine ⟨congrArg remainingOf htasks, ?_⟩
  show (db.resume i).ready.length < db.ready.length
  rw [hready, List.length_erase_of_mem hline]
  exact Nat.sub_lt (List.length_pos_of_mem hline) Nat.one_pos

end Database

end TxStore
