import TxStore.Proofs.Workload.Crew
import TxStore.Proofs.Workload.Worker

/-!
# Turns of a worker

A worker acts on its own connection only (`Acts`), and it acts when it has nothing to wait for or
when its wait is over. Where it stands then is where `CounterPlan.Follows` has it, and its count is
kept: what it has left falls by one in the turn in which it learns of its commit. A worker that has
met an error is ready to try again, or has given up (`Crew.turn_cases`).
-/

namespace TxStore

open Database CounterPlan

/-- Whether a worker has increments left as long as it tries, and none when it leaves. -/
def Worker.Due (w : Worker) : Prop :=
  match w.stand with
  | .reading _ | .writing _ | .committing _ => 0 < w.left
  | .leaving _ | .ended => w.left = 0
  | .idle | .rollingBack _ _ => True

/-- How often a worker has ended: once or not yet. -/
def Worker.endings (w : Worker) : Nat :=
  match w.stand with
  | .ended => 1
  | .idle | .reading _ | .writing _ | .committing _ | .rollingBack _ _ | .leaving _ => 0

namespace CounterPlan

variable {p : CounterPlan} {target : Target} {t : MemoryTable} {db mid db' : Database Table}
  {w : Worker} {c : ConnectionId} {u : TransactionId} {txn : Transaction} {clock : Clock}

/-- What comes about when a connection acts, but for its own transaction: nothing happens to the
tables and to other connections, and there is one more call at most. -/
structure Acts (clock : Clock) (c : ConnectionId) (db db' : Database Table) : Prop where
  /-- The database is regular. -/
  regular : db'.Regular clock
  /-- Nothing has happened to the tables. -/
  stable : Stable db db'
  /-- Nor to other connections. -/
  beside : ∀ d, c ≠ d → Beside d db db'
  /-- A call that was not there is the last one. -/
  calls : ∀ (i : TaskId) (op : Operation), db'.tasks[i]? = some (.operation op) →
    db.tasks[i]? = some (.operation op) ∨ i = db.tasks.size ∧ op.connection = c

/-- A connection may do nothing. -/
theorem acts_refl (h : db.Regular clock) (c : ConnectionId) : Acts clock c db db where
  regular := h
  stable := .refl db
  beside _ _ := .of_eq rfl rfl rfl rfl
  calls _ _ hop := .inl hop

/-- A call may be made. -/
theorem acts_submit (h : db.Regular clock) (c : ConnectionId) (call : Call)
    (hstable : Stable db (db.submit c call)) : Acts clock c db (db.submit c call) where
  regular := by
    have hregular : (db.perform (.submit c call)).Regular clock := h.perform rfl
    exact hregular
  stable := hstable
  beside d hne := by
    have hbeside : Beside d db (db.perform (.submit c call)) := h.beside rfl hne
    exact hbeside
  calls i op hop := by
    have hcomes : db.Comes (.submit c call) i op := h.tidy.comes h.lifecycle h.twoPhase hop
    -- A call is as it was, or has had a turn, or has just been made; an action that makes a call
    -- gives no turn.
    cases hcomes with
    | same before => exact .inl before
    | moved turn => cases turn
    | made submitted last opened =>
      cases submitted
      exact .inr ⟨last, rfl⟩

/-- A transaction may be begun, and then a call may be made. -/
theorem acts_begin_submit (h : db.Regular clock) (c : ConnectionId) (call : Call)
    (hbegun : (db.beginTransaction c).2 = mid) (hstable : Stable mid (mid.submit c call)) :
    Acts clock c db (mid.submit c call) := by
  have hbegin : (db.perform (.beginTransaction c)).Regular clock := h.perform rfl
  have hmid : mid.Regular clock := hbegun ▸ hbegin
  have hacts := acts_submit hmid c call hstable
  -- To begin makes no call and touches no table, whether it succeeds or not.
  have hstart : mid.tasks = db.tasks ∧ Stable db mid := by
    subst hbegun
    rcases db.beginTransaction_cases c with heq | heq
    · rw [heq]
      exact ⟨rfl, .refl db⟩
    · rw [heq]
      refine ⟨db.tasks_start c .explicit, ?_⟩
      unfold Database.start
      dsimp only
      split <;> exact ⟨rfl, rfl⟩
  refine ⟨hacts.regular, hstart.2.trans hacts.stable, fun d hne => ?_, fun i op hop => ?_⟩
  · have hbeside : Beside d db (db.perform (.beginTransaction c)) := h.beside rfl hne
    have hmoved : Beside d db mid := hbegun ▸ hbeside
    exact hmoved.trans (hacts.beside d hne)
  · have hcall := hacts.calls i op hop
    rw [hstart.1] at hcall
    exact hcall

/-! ## Calls of a worker -/

/-- A worker that holds a transaction without writes may ask for the row. -/
theorem follows_read (h : db.Regular clock) (hholds : db.Holds w.connection u txn 0)
    (hempty : txn.log = .empty) (p : CounterPlan) (target : Target) (t : MemoryTable) :
    p.Follows target t (db.submit w.connection (.statement p.read))
        { w with stand := .reading db.tasks.size } 0 ∧
      Stable db (db.submit w.connection (.statement p.read)) := by
  obtain ⟨hruns, htxn, hheld, hstable, -⟩ := hholds.submit_statement h.twoPhase.numbered p.read
  subst htxn
  exact ⟨.reads rfl ⟨hruns, rfl, .inl rfl, hheld, hempty, .issued⟩ rfl rfl, hstable⟩

/-- With the row read, it may write the next number. -/
theorem follows_write (h : db.Regular clock) (hholds : db.Holds w.connection u txn 0)
    (hempty : txn.log = .empty) (hwrites : p.Writes target db u) :
    p.Follows target t (db.submit w.connection (.statement (p.write (p.nextIn t))))
        { w with stand := .writing db.tasks.size } 0 ∧
      Stable db (db.submit w.connection (.statement (p.write (p.nextIn t)))) := by
  obtain ⟨hruns, htxn, hheld, hstable, hlocks⟩ :=
    hholds.submit_statement h.twoPhase.numbered (p.write (p.nextIn t))
  subst htxn
  refine ⟨.writes rfl ⟨hruns, rfl, .inr ⟨_, rfl⟩, hheld, hempty, .issued⟩ rfl rfl ?_, hstable⟩
  unfold CounterPlan.Writes
  rw [hlocks]
  exact hwrites

/-- With the number written, it may commit. -/
theorem follows_commit (h : db.Regular clock) (hholds : db.Holds w.connection u txn 0)
    (hlog : txn.log = p.increment target t) (hwrites : p.Writes target db u) :
    p.Follows target t (db.submit w.connection .commit)
        { w with stand := .committing db.tasks.size } 0 ∧
      Stable db (db.submit w.connection .commit) := by
  -- There is something to be applied, so that the commit does not end at once.
  have hentries : txn.log.entries ≠ [] := by
    rw [hlog]
    exact List.cons_ne_nil _ _
  obtain ⟨happlies, htxn, hstable, hlocks⟩ :=
    hholds.submit_commit h.twoPhase.numbered hentries
  subst htxn
  refine ⟨.applies rfl happlies rfl hlog ?_, hstable⟩
  unfold CounterPlan.Writes
  rw [hlocks]
  exact hwrites

/-- A worker that is ready may leave. -/
theorem follows_disconnect (h : db.Regular clock) (hready : Ready db w.connection)
    (p : CounterPlan) (target : Target) (t : MemoryTable) :
    p.Follows target t (db.submit w.connection .disconnect)
        { w with stand := .leaving db.tasks.size } 0 ∧
      Stable db (db.submit w.connection .disconnect) := by
  rcases hready with hdetached | ⟨u, txn, hholds, -⟩
  · rw [submit_detached hdetached rfl]
    exact ⟨.leaves rfl (told_push ..), rfl, rfl⟩
  · have hreleased := hholds.submit_rollback h.twoPhase.numbered (.inr rfl)
    exact ⟨.leaves rfl hreleased.runs.told, hreleased.stable⟩

end CounterPlan

namespace Crew

variable {p : CounterPlan} {target : Target} {t : MemoryTable} {clock : Clock} {c c' : Crew}
  {n : Nat} {w w' : Worker} {k : Nat} {e : Error} {r : Result} {i : TaskId}

/-- What a turn of a worker comes to: it acts on its connection and is `w'` then, with `k`
increments in the row that are to be counted off, and if it ends it has made all its increments. -/
structure Steps (p : CounterPlan) (target : Target) (t : MemoryTable) (clock : Clock) (c : Crew)
    (n : Nat) (w w' : Worker) (k : Nat) (c' : Crew) : Prop where
  /-- The plan is the same. -/
  plan : c'.plan = c.plan
  /-- The other workers are the same. -/
  workers : c'.workers = c.workers.setIfInBounds n w'
  /-- Its connection has acted. -/
  acts : Acts clock w.connection c.db c'.db
  /-- It has the same connection. -/
  connection : w'.connection = w.connection
  /-- It waits for the call that it has made. -/
  awaits : c'.db.tasks = c.db.tasks ∨ w'.awaits = some c.db.tasks.size
  /-- It has increments left as long as it tries. -/
  due : w'.Due
  /-- It is known how far it is. -/
  follows : p.Follows target t c'.db w' k
  /-- It has ended well, if it has ended. -/
  ends : c'.ends = c.ends ++ List.replicate w'.endings (.ok c.plan.iterations)

/-- A worker may make a call. -/
theorem steps_call {call : TxStore.Call} {stand : TaskId → WorkerStand}
    (hacts : Acts clock w.connection c.db (c.db.submit w.connection call))
    (hawaits : ({ w with stand := stand c.db.tasks.size } : Worker).awaits = some c.db.tasks.size)
    (hdue : ({ w with stand := stand c.db.tasks.size } : Worker).Due)
    (hfollows : p.Follows target t (c.db.submit w.connection call)
      { w with stand := stand c.db.tasks.size } k) :
    Steps p target t clock c n w { w with stand := stand c.db.tasks.size } k
      (c.call n w call stand) where
  plan := rfl
  workers := rfl
  acts := hacts
  connection := rfl
  awaits := .inr hawaits
  due := hdue
  follows := hfollows
  ends := by
    -- Who waits for a call has not ended.
    have hopen : ({ w with stand := stand c.db.tasks.size } : Worker).endings = 0 := by
      unfold Worker.awaits at hawaits
      unfold Worker.endings
      dsimp only at hawaits ⊢
      cases hstand : stand c.db.tasks.size with
      | ended =>
        rw [hstand] at hawaits
        cases hawaits
      | idle | reading i | writing i | committing i | rollingBack i e | leaving i => rfl
    rw [hopen]
    exact (List.append_nil _).symm

/-- A worker without increments left leaves. -/
theorem tryNext_of_left_eq_zero (c : Crew) (n : Nat) (hleft : w.left = 0) :
    c.tryNext n w = c.call n w .disconnect .leaving :=
  if_pos hleft

/-- One with increments left reads the row in its transaction, if it has one. -/
theorem tryNext_of_attached {u : TransactionId} (n : Nat) (hleft : w.left ≠ 0)
    (hattached : c.db.attached.get? w.connection = some u) :
    c.tryNext n w = c.call n w (.statement c.plan.read) .reading := by
  have hcontains : c.db.attached.contains w.connection = true := by
    unfold Dict.contains
    rw [hattached]
    rfl
  unfold Crew.tryNext
  dsimp only
  rw [if_neg hleft, if_pos hcontains]
  rfl

/-- Else it reads the row in one that it begins. -/
theorem tryNext_of_detached {u : TransactionId} {mid : Database Table} (n : Nat) (hleft : w.left ≠ 0)
    (hdetached : c.db.attached.get? w.connection = none)
    (hbegun : c.db.beginTransaction w.connection = (.ok u, mid)) :
    c.tryNext n w = ({ c with db := mid } : Crew).call n w (.statement c.plan.read) .reading := by
  have hcontains : ¬ c.db.attached.contains w.connection = true := by
    unfold Dict.contains
    rw [hdetached]
    exact Bool.false_ne_true
  unfold Crew.tryNext
  dsimp only
  rw [if_neg hleft, if_neg hcontains, hbegun]
  rfl

/-- A worker that is ready may try its next increment, or leave. -/
theorem steps_tryNext (n : Nat) (target : Target) (t : MemoryTable) (hplan : c.plan = p)
    (h : c.db.Regular clock) (hready : Ready c.db w.connection) :
    ∃ w', w'.left = w.left ∧ Steps p target t clock c n w w' 0 (c.tryNext n w) := by
  subst hplan
  by_cases hleft : w.left = 0
  · -- Nothing is left to be done, and the worker leaves.
    obtain ⟨hfollows, hstable⟩ := follows_disconnect h hready c.plan target t
    have hdue : ({ w with stand := .leaving c.db.tasks.size } : Worker).Due := hleft
    rw [tryNext_of_left_eq_zero c n hleft]
    exact ⟨{ w with stand := .leaving c.db.tasks.size }, rfl,
      steps_call (acts_submit h _ _ hstable) rfl hdue hfollows⟩
  · have hdue : ∀ i, ({ w with stand := .reading i } : Worker).Due := fun _ =>
      Nat.pos_of_ne_zero hleft
    rcases hready with hdetached | ⟨u, txn, hholds, hempty⟩
    · -- A transaction is begun first, which cannot fail on a connection that has none.
      obtain ⟨u, ts, hstart, hholds⟩ := h.tidy.holds_placed hdetached .explicit
      have hbegun : c.db.beginTransaction w.connection = (.ok u, c.db.placed w.connection
          c.db.clock.read.1 c.db.clock.read.2 .explicit) := by
        unfold Database.beginTransaction Dict.contains
        rw [hdetached]
        exact hstart
      generalize hmid : c.db.placed w.connection c.db.clock.read.1 c.db.clock.read.2 .explicit = mid
        at hbegun hholds
      have hsecond : (c.db.beginTransaction w.connection).2 = mid := by
        rw [hbegun]
      have hbegin : (c.db.perform (.beginTransaction w.connection)).Regular clock := h.perform rfl
      have hregular : mid.Regular clock := hsecond ▸ hbegin
      have htasks : mid.tasks = c.db.tasks := hmid ▸ rfl
      obtain ⟨hfollows, hstable⟩ := follows_read hregular hholds rfl c.plan target t
      -- The read is a call in the database with the new transaction, and the two steps act
      -- together.
      have hcalled : Steps c.plan target t clock { c with db := mid } n w
          { w with stand := .reading mid.tasks.size } 0
          (Crew.call { c with db := mid } n w (.statement c.plan.read) .reading) :=
        steps_call (acts_submit hregular _ _ hstable) rfl (hdue _) hfollows
      have hacts := acts_begin_submit h w.connection (.statement c.plan.read) hsecond hstable
      rw [tryNext_of_detached n hleft hdetached hbegun]
      exact ⟨{ w with stand := .reading mid.tasks.size }, rfl, hcalled.plan, hcalled.workers, hacts,
        rfl, .inr (htasks ▸ rfl), hdue _, hcalled.follows, hcalled.ends⟩
    · -- The transaction that it has holds no writes and is used again.
      obtain ⟨hfollows, hstable⟩ := follows_read h hholds hempty c.plan target t
      rw [tryNext_of_attached n hleft hholds.attached]
      exact ⟨{ w with stand := .reading c.db.tasks.size }, rfl,
        steps_call (acts_submit h _ _ hstable) rfl (hdue _) hfollows⟩

/-- A worker that has met an error is ready to try again, or it gives up. -/
theorem steps_fail (e : Error) (h : c.db.Regular clock) (hw : c.workers[n]? = some w)
    (hready : Ready c.db w.connection) :
    (∃ w', w'.left = w.left ∧ Steps p target t clock c n w w' 0 (c.fail n w e)) ∨
      (c.fail n w e).Doomed := by
  unfold Crew.fail
  split
  · -- A retry makes no call in this turn; the next turn of the worker does.
    exact .inl ⟨{ w with retries := w.retries + 1, stand := .idle }, rfl, rfl, rfl, acts_refl h _,
      rfl, .inl rfl, trivial, .idle rfl hready, (List.append_nil _).symm⟩
  · -- Else it rolls back and then ends with the error, or it ends at once, if it has no
    -- transaction.
    refine .inr ?_
    split
    · exact .inr ⟨n, _, c.db.tasks.size, e, (getElem?_setWorker hw _ n).trans (if_pos rfl), rfl⟩
    · exact .inl ⟨e, List.mem_append_right _ (List.mem_singleton.mpr rfl)⟩

/-- A worker that waits for a statement that has not ended waits on. -/
theorem turn_of_serves {op : Operation} {me : Lock.Holder} {txn : Transaction} {s : Statement}
    (hw : c.workers[n]? = some w) (hawaits : w.awaits = some i)
    (hserves : p.Serves target t c.db i op me txn s) : c.turn (.worker n) = c := by
  have hopen : ¬ op.IsOver := Operation.not_over_of_working hserves.stands.working
  exact turn_of_waiting hw hawaits (result?_eq_none hserves.runs.1 hopen)

/-- What a turn of a worker comes to: nothing if it has to wait, or it acts and its count is kept,
or it has given up. -/
theorem turn_cases (hplan : c.plan = p) (h : c.db.Regular clock) (hw : c.workers[n]? = some w)
    (hfollows : p.Follows target t c.db w k) (hdue : w.Due) :
    c.turn (.worker n) = c ∨
      (∃ w' k', w.endings = 0 ∧ (∀ i, w.awaits = some i → c.db.result? i ≠ none) ∧
        w'.left + k = w.left + k' ∧ Steps p target t clock c n w w' k' (c.turn (.worker n))) ∨
      (c.turn (.worker n)).Doomed := by
  -- A call that has told its result is not waited for any more.
  have htold : ∀ {i r}, w.awaits = some i → c.db.Told w.connection i r →
      ∀ j, w.awaits = some j → c.db.result? j ≠ none := by
    intro i r hi htold j hj
    cases hi.symm.trans hj
    rw [htold.result?]
    exact Option.some_ne_none r
  subst hplan
  obtain ⟨conn, left, retries, stand⟩ := w
  -- By cases on how far the worker is. It waits as long as its call is at work, and has its next
  -- call made when that has told its result.
  cases hfollows with
  | idle stand ready =>
    cases stand
    obtain ⟨w', hleft, hsteps⟩ := steps_tryNext n target t rfl h ready
    have hturn : c.turn (.worker n) = c.tryNext n ⟨conn, left, retries, .idle⟩ := by
      unfold Crew.turn
      dsimp only
      rw [hw]
    rw [hturn]
    exact .inr (.inl ⟨w', 0, rfl, nofun, congrArg (· + 0) hleft, hsteps⟩)
  | reads stand serves own opened =>
    cases stand
    exact .inl (turn_of_serves hw rfl serves)
  | read stand told holds empty writes =>
    cases stand
    obtain ⟨hfollows, hstable⟩ := follows_write (t := t) h holds empty writes
    rw [turn_of_told hw rfl told.result?]
    exact .inr (.inl ⟨⟨conn, left, retries, .writing c.db.tasks.size⟩, 0, rfl, htold rfl told, rfl,
      steps_call (acts_submit h _ _ hstable) rfl hdue hfollows⟩)
  | writes stand serves own opened writes =>
    cases stand
    exact .inl (turn_of_serves hw rfl serves)
  | wrote stand told holds log writes =>
    cases stand
    obtain ⟨hfollows, hstable⟩ := follows_commit h holds log writes
    rw [turn_of_told hw rfl told.result?]
    exact .inr (.inl ⟨⟨conn, left, retries, .committing c.db.tasks.size⟩, 0, rfl, htold rfl told, rfl,
      steps_call (acts_submit h _ _ hstable) rfl hdue hfollows⟩)
  -- It has lost a lock, and it is tried again or given up.
  | lost stand told ready =>
    rcases stand with stand | stand <;>
    · cases stand
      rw [turn_of_told hw rfl told.result?]
      rcases steps_fail _ h hw ready with ⟨w', hleft, hsteps⟩ | hdoomed
      · exact .inr (.inl ⟨w', 0, rfl, htold rfl told, congrArg (· + 0) hleft, hsteps⟩)
      · exact .inr (.inr hdoomed)
  -- A commit is waited for in both of its phases, though the increment may be in the row already.
  | applies stand applies own log writes =>
    cases stand
    refine .inl (turn_of_waiting hw rfl (result?_eq_none applies.runs.1 ?_))
    exact Operation.not_over_of_closing rfl
  | applied stand runs attached own =>
    cases stand
    refine .inl (turn_of_waiting hw rfl (result?_eq_none runs.1 ?_))
    exact Operation.not_over_of_closing rfl
  | committed stand told detached =>
    cases stand
    -- The increment is counted off now.
    obtain ⟨w', hleft, hsteps⟩ := steps_tryNext (w := ⟨conn, left - 1, 0, .committing _⟩) n target t
      rfl h (.inl detached)
    have hone : 0 < left := hdue
    rw [turn_of_told hw rfl told.result?]
    refine .inr (.inl ⟨w', 0, rfl, htold rfl told, ?_, hsteps.plan, hsteps.workers, hsteps.acts,
      hsteps.connection, hsteps.awaits, hsteps.due, hsteps.follows, hsteps.ends⟩)
    rw [hleft]
    dsimp only
    omega
  -- It is disconnected, and so it ends, and well.
  | leaves stand told =>
    cases stand
    rw [turn_of_told hw rfl told.result?]
    exact .inr (.inl ⟨⟨conn, left, retries, .ended⟩, 0, rfl, htold rfl told, rfl, rfl, rfl,
      acts_refl h _, rfl, .inl rfl, hdue, .ended rfl, rfl⟩)
  | ended stand =>
    cases stand
    refine .inl ?_
    unfold Crew.turn
    dsimp only
    rw [hw]
    rfl

end Crew

end TxStore
