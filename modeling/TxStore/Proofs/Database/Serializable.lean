import TxStore.Proofs.Database.Calls
import TxStore.Proofs.Database.Statements

/-!
# Strict serializability in commit order

If every connection makes one call at a time, the transactions that were committed can be executed
one after the other, each alone, in the order in which their writes were applied: every statement
yields the very result that its caller was told, no commit fails, and the tables end up the same.
That holds for every order of turns, with any number of connections, with explicit and implicit
transactions.

`Serialized` carries the proof. It holds for a database that has only tables, and every action keeps
it: a turn of a task (`Serialized.resume`), a call (`Serialized.submit`), and the beginning of a
transaction (`Serialized.beginTransaction`).
-/

namespace TxStore.Database

variable {first db : Database MemoryTable} {c : ConnectionId} {t : TransactionId}
  {txn : Transaction} {past : List (Statement × Result)} {i : TaskId} {op : Operation}
  {me : Lock.Holder}

/-- What happens if every connection makes one call at a time, on a fixed set of tables. -/
def Serially (db : Database MemoryTable) : Action MemoryTable → Prop
  | .createTable _ | .dropTable _ => False
  | .beginTransaction c | .submit c _ => db.Idle c
  | .connect | .requestLock _ _ _ | .resume _ | .reach _ => True

/-- It can be found out from the calls on the connection. -/
instance (db : Database MemoryTable) : (action : Action MemoryTable) → Decidable (Serially db action)
  | .createTable _ | .dropTable _ => inferInstanceAs (Decidable False)
  | .beginTransaction c | .submit c _ => inferInstanceAs (Decidable (db.Idle c))
  | .connect | .requestLock _ _ _ | .resume _ | .reach _ => inferInstanceAs (Decidable True)

/-! ## Turns -/

/-- An operation that is over has nothing to do. -/
theorem resumeOperation_of_over (h : op.IsOver) : db.resumeOperation i op me = db := by
  obtain ⟨r, hstand⟩ := h
  unfold resumeOperation
  rw [hstand]

/-- An operation may take its turn. -/
theorem Serialized.resumeOperation (h : Serialized first db) (hapart : first.registry.Apart)
    (hruns : db.Runs i op me) : Serialized first (db.resumeOperation i op me) := by
  have hmem : (i, op) ∈ db.callsOn op.connection := mem_callsOn.mpr ⟨hruns.1, rfl⟩
  have hover : op.IsOver → Serialized first (db.resumeOperation i op me) := by
    intro hover
    rw [resumeOperation_of_over hover]
    exact h
  -- The session of the operation's connection tells how far the operation has come.
  cases h.sessions op.connection with
  | detached detached => exact hover (detached.answered _ hmem).ended
  | resting resting => exact hover (resting.answered _ hmem).ended
  | running busy uncommitted phase entered call midway tracks =>
    rcases busy.over_or_last hruns rfl with hdone | ⟨rfl, rfl, rfl⟩
    · exact hover hdone
    · have hexecutes : Executes first db op.connection _ _ _ i op me _ _ :=
        ⟨h.turn_of_owns busy.owns, busy, uncommitted, phase, entered, call⟩
      exact hexecutes.resume tracks midway
  | applying busy uncommitted phase stand success tracks =>
    rcases busy.over_or_last hruns rfl with hdone | ⟨rfl, rfl, rfl⟩
    · exact hover hdone
    · unfold Database.resumeOperation
      rw [stand]
      dsimp only
      rw [busy.txn]
      exact (h.turn_of_owns busy.owns).apply hapart busy uncommitted phase stand success tracks
  | applied busy phase stand success =>
    rcases busy.over_or_last hruns rfl with hdone | ⟨rfl, rfl, rfl⟩
    · exact hover hdone
    · unfold Database.resumeOperation
      rw [stand]
      dsimp only
      rw [busy.txn]
      exact (h.turn_of_owns busy.owns).endCommit busy stand success

/-- A task may take its turn. -/
theorem Serialized.resume (h : Serialized first db) (hapart : first.registry.Apart) (i : TaskId) :
    Serialized first (db.resume i) := by
  have hturn : Serialized first ({ db with ready := db.ready.erase i } : Database MemoryTable) :=
    h.step (h.twoPhase.of_eq rfl rfl rfl) rfl rfl rfl (fun _ _ _ hk => hk) rfl rfl rfl
  have htwoPhase := h.twoPhase.resume i
  rcases db.resume_cases i with ⟨op, me, hruns⟩ | ⟨r, hr⟩ | ⟨-, heq⟩
  · rw [resume_eq hruns]
    exact hturn.resumeOperation hapart hruns
  · rw [resume_eq_of_request hr] at htwoPhase ⊢
    exact hturn.step htwoPhase rfl rfl (operations_setRequest hr)
      (fun u k hopen hk => (h.twoPhase.locks.continues_run db.now r).writes k u hopen hk) rfl rfl rfl
  · rw [heq]
    exact hturn

/-! ## Runs -/

/-- Every action keeps the sessions in order. -/
theorem Serialized.perform (h : Serialized first db) (hapart : first.registry.Apart)
    {action : Action MemoryTable} (hserially : Serially db action) :
    Serialized first (db.perform action) := by
  have htwoPhase := h.twoPhase.perform action
  cases action with
  | connect => exact h.step htwoPhase rfl rfl rfl (fun _ _ _ hk => hk) rfl rfl rfl
  | createTable table => exact hserially.elim
  | dropTable name => exact hserially.elim
  | beginTransaction c => exact h.beginTransaction hserially
  | submit c call => exact h.submit hserially call
  | requestLock mode holder key =>
    exact h.step htwoPhase rfl rfl (operations_push_request db _) (fun _ _ _ hk => hk) rfl rfl rfl
  | resume i => exact h.resume hapart i
  | reach instant => exact h.step htwoPhase rfl rfl rfl (fun _ _ _ hk => hk) rfl rfl rfl

/-- A run keeps the sessions in order. -/
theorem Serialized.run (h : Serialized first first) (hapart : first.registry.Apart)
    (run : Run Serially first db) : Serialized first db := by
  induction run with
  | start => exact h
  | perform _ permitted ih => exact ih.perform hapart permitted

/-- A database that has tables and nothing else; a table is left out if its name is empty or if it
has the identifier of an earlier one. -/
def withTables (config : Config) (clock : Clock) (hasher : Hasher)
    (tables : List MemoryTable) : Database MemoryTable :=
  tables.foldl (fun db table => (db.createTable table).2) (new config clock hasher)

/-- What is true of a database to which nothing has happened but the registration of tables. -/
structure Untouched (db : Database MemoryTable) : Prop where
  /-- The locks cover the writes. -/
  twoPhase : db.TwoPhase
  /-- No connection is attached. -/
  attached : db.attached = ∅
  /-- No transaction was started. -/
  directory : db.directory = .empty
  /-- No call was made. -/
  tasks : db.tasks = #[]
  /-- Nothing was committed. -/
  commits : db.commits = []
  /-- The registered tables are kept apart. -/
  apart : db.registry.Apart
  /-- They are all kept. -/
  kept : ∀ id entry, db.registry.get? id = some entry → entry.table < db.store.size

/-- The registration of a table touches nothing else. -/
theorem Untouched.createTable (h : db.Untouched) (table : MemoryTable) :
    (db.createTable table).2.Untouched := by
  have htwoPhase := h.twoPhase.perform (.createTable table)
  have hkept : ∀ id entry, db.registry.get? id = some entry →
      entry.table < (db.store.push table).size := by
    intro id entry hentry
    rw [Array.size_push]
    exact Nat.lt_succ_of_lt (h.kept id entry hentry)
  change (db.createTable table).2.TwoPhase at htwoPhase
  unfold Database.createTable at htwoPhase ⊢
  dsimp only at htwoPhase ⊢
  cases hcreate : db.registry.create (Backend.name table) db.store.size with
  | error e =>
    exact ⟨h.twoPhase.of_eq rfl rfl rfl, h.attached, h.directory, h.tasks, h.commits, h.apart, hkept⟩
  | ok created =>
    obtain ⟨id, r⟩ := created
    rw [hcreate] at htwoPhase
    refine ⟨htwoPhase, h.attached, h.directory, h.tasks, h.commits, h.apart.create hcreate h.kept,
      fun j entry hentry => ?_⟩
    -- The new table is kept at the end, past the places of all others.
    have hcases := (Registry.get?_of_create hcreate j).symm.trans hentry
    split at hcases
    · cases hcases
      exact Array.size_push .. ▸ Nat.lt_succ_self _
    · exact hkept j entry hcases

/-- A database that has tables and nothing else is untouched. -/
theorem untouched_withTables (config : Config) (clock : Clock) (hasher : Hasher)
    (tables : List MemoryTable) : (withTables config clock hasher tables).Untouched := by
  have hnew : (new config clock hasher : Database MemoryTable).Untouched :=
    ⟨twoPhase_new config clock hasher, rfl, rfl, rfl, rfl, nofun, nofun⟩
  have hfold : ∀ (tables : List MemoryTable) (db : Database MemoryTable), db.Untouched →
      (tables.foldl (fun db table => (db.createTable table).2) db).Untouched := by
    intro tables
    induction tables with
    | nil => exact fun _ h => h
    | cons table rest ih => exact fun db h => ih _ (h.createTable table)
  exact hfold tables _ hnew

/-- In a database to which nothing has happened all sessions are in order. -/
theorem Untouched.serialized (h : db.Untouched) : Serialized db db where
  twoPhase := h.twoPhase
  registry := rfl
  locate := rfl
  known u hu := by
    obtain ⟨commit, hmem, -⟩ := hu
    rw [h.commits] at hmem
    cases hmem
  sessions c := by
    refine .detached ⟨?_, ?_, fun p hp => ?_⟩
    · rw [h.attached]
      rfl
    · rw [h.directory]
      rfl
    · have hop := (mem_callsOn.mp hp).1
      rw [h.tasks] at hop
      cases hop
  explained := by
    unfold Explained
    rw [h.commits]
    exact ⟨List.Pairwise.nil, [], rfl, rfl⟩

/-- A call that has ended has its result. -/
theorem result?_finish (hop : db.tasks[i]? = some (.operation op)) (r : Result) :
    (db.finish i r).result? i = some r := by
  unfold Database.finish Database.result?
  rw [setStand_eq]
  dsimp only
  rw [Array.getElem?_modify, if_pos rfl, hop]
  rfl

/-- A commit that has ended has its result. -/
theorem result?_endCommit (hop : db.tasks[i]? = some (.operation op)) (c : ConnectionId)
    (t : TransactionId) (errors : List Error) (r : Result) :
    (db.endCommit i c t errors r).result? i = some (r.join errors) := by
  have htasks : ((((db.releaseLocks t).forgetLocks t).separate c t).retire t).tasks = db.tasks := by
    rw [separate_eq]
    rfl
  unfold Database.endCommit
  exact result?_finish (htasks ▸ hop) _

/-- A call whose transaction's writes have been applied is over after its turn. -/
theorem result?_of_applied {errors : List Error} {r : Result} (hruns : db.Runs i op me)
    (stand : op.stand = .applied errors r) : (db.resumeOperation i op me).result? i = op.outcome? := by
  unfold Database.resumeOperation Operation.outcome?
  rw [stand]
  exact result?_endCommit hruns.1 op.connection me.txn errors r

/-- A call that is over has the result that it was told. -/
theorem result?_of_over (hop : db.tasks[i]? = some (.operation op)) (hover : op.IsOver) :
    db.result? i = op.outcome? := by
  obtain ⟨r, hstand⟩ := hover
  unfold Database.result?
  rw [hop]
  show (Task.operation op).result? = op.outcome?
  unfold Task.result? Operation.outcome?
  dsimp only
  rw [hstand]

/-- An operation of a committed transaction is over after its next turn, with its outcome. -/
theorem Serialized.result?_resume (h : Serialized first db) (hruns : db.Runs i op me)
    (hcommitted : db.Committed me.txn) : (db.resume i).result? i = op.outcome? := by
  have hmem : (i, op) ∈ db.callsOn op.connection := mem_callsOn.mpr ⟨hruns.1, rfl⟩
  have hturn := resume_eq hruns
  have hover : op.IsOver → (db.resume i).result? i = op.outcome? := by
    intro hover
    rw [hturn, resumeOperation_of_over hover]
    exact result?_of_over hruns.1 hover
  -- Of a committed transaction no call is executed or applied any more.
  cases h.sessions op.connection with
  | detached detached => exact hover (detached.answered _ hmem).ended
  | resting resting => exact hover (resting.answered _ hmem).ended
  | running busy uncommitted phase entered call midway tracks =>
    rcases busy.over_or_last hruns rfl with hdone | ⟨rfl, rfl, rfl⟩
    · exact hover hdone
    · exact absurd (busy.txn ▸ hcommitted) uncommitted
  | applying busy uncommitted phase stand success tracks =>
    rcases busy.over_or_last hruns rfl with hdone | ⟨rfl, rfl, rfl⟩
    · exact hover hdone
    · exact absurd (busy.txn ▸ hcommitted) uncommitted
  | applied busy phase stand success =>
    rcases busy.over_or_last hruns rfl with hdone | ⟨rfl, rfl, rfl⟩
    · exact hover hdone
    · rw [hturn]
      exact result?_of_applied hruns stand

/-- Strict serializability: after any run in which every connection makes one call at a time, on any
tables, no transaction was committed twice, and executing the committed ones one after the other,
each alone, in the order in which their writes were applied and on what the tables held at first,
yields for every statement the result that its caller was told, and leaves what the tables hold now.
What the caller was told is settled by then: every operation of a committed transaction is over
after its next turn at the latest, and a commit never fails. -/
theorem serializable_of_run {config : Config} {clock : Clock} {hasher : Hasher}
    {tables : List MemoryTable} (run : Run Serially (withTables config clock hasher tables) db) :
    (db.commits.map Commit.txn).Nodup ∧
    (∃ results,
      Serial.schedule (withTables config clock hasher tables).locate
          (db.commits.map fun commit => (db.history commit.txn).map Prod.fst)
          (withTables config clock hasher tables).contents = (results, db.contents) ∧
        (db.commits.map fun commit => (db.history commit.txn).map Prod.snd) =
          results.map (List.map some)) ∧
    (∀ i op me, db.Runs i op me → db.Committed me.txn → (db.resume i).result? i = op.outcome?) ∧
    ∀ i op me, db.Runs i op me → op.call = .commit → op.outcome? = some (.ok none) := by
  have huntouched := untouched_withTables config clock hasher tables
  have h := huntouched.serialized.run huntouched.apart run
  obtain ⟨honce, histories, htold, hschedule⟩ := h.explained
  -- What was committed is settled, so the histories carry no open results.
  have hprojected : ∀ {α : Type} (f : Statement × Option Result → α),
      (db.commits.map fun commit => (db.history commit.txn).map f) =
        histories.map (List.map fun p => f (settled p)) := by
    intro α f
    calc (db.commits.map fun commit => (db.history commit.txn).map f)
        = (db.commits.map fun commit => db.history commit.txn).map (List.map f) := by
          rw [List.map_map]
          rfl
      _ = (histories.map (List.map settled)).map (List.map f) := by rw [htold]
      _ = histories.map (List.map fun p => f (settled p)) := by
          rw [List.map_map]
          congr 1
          funext history
          exact List.map_map ..
  refine ⟨honce, ⟨histories.map (List.map Prod.snd), ?_, ?_⟩, fun i op me => h.result?_resume,
    fun i op me hruns hcall => ?_⟩
  · rw [hprojected Prod.fst]
    exact hschedule
  · rw [hprojected Prod.snd, List.map_map]
    congr 1
    funext history
    show _ = List.map some (List.map Prod.snd history)
    rw [List.map_map]
    rfl
  · exact (h.sessions op.connection).success (mem_callsOn.mpr ⟨hruns.1, rfl⟩) hruns.2 hcall

/-- One table with one row. -/
def oneRow : Database MemoryTable :=
  withTables .standard default ⟨"Constant", fun _ => ⟨7⟩⟩
    [⟨"t", .any, .any, ⟨[(.integer 1, .null)]⟩⟩]

/-- A transaction that removes the row, and while it looks for it another one that began later,
writes a second row and commits. -/
def overtaking : List (Action MemoryTable) :=
  [ .beginTransaction 0, .beginTransaction 1,
    .submit 0 (.statement (.delete "t" (.integer 1))),
    .submit 1 (.statement (.put "t" (.integer 2) .null)),
    .resume 0, .resume 1, .submit 1 .commit, .resume 0, .resume 2, .resume 2, .resume 0,
    .submit 0 .commit, .resume 3, .resume 3 ]

/-- For instance, the later transaction commits first and comes first in the order of execution. -/
theorem serializable_of_run_overtaking :
    Run Serially oneRow (overtaking.foldl perform oneRow) ∧
      (overtaking.foldl perform oneRow).commits.map Commit.txn = [⟨1⟩, ⟨0⟩] ∧
      ∃ results,
        Serial.schedule oneRow.locate
            [[.put "t" (.integer 2) .null], [.delete "t" (.integer 1)]] oneRow.contents =
          (results, (overtaking.foldl perform oneRow).contents) ∧
        [[some (.ok none)], [some (.ok none)]] = results.map (List.map some) := by
  have run : Run Serially oneRow (overtaking.foldl perform oneRow) :=
    Run.performAll .start (by decide)
  obtain ⟨-, hserial, -⟩ := serializable_of_run run
  exact ⟨run, by decide, hserial⟩

end TxStore.Database
