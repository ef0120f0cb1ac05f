import TxStore.Database.Run
import TxStore.Proofs.Transaction.Directory

/-!
# Runs of a database

A run of a database is any sequence of actions: what clients call, on any connections, and the turns
of the tasks, in any order. A turn may be given to any task at any time, whether it stands in line
or not, and so a run covers every order in which a scheduler could interleave the tasks at their
waits. `Database.Run` restricts the actions where a statement is about clients who keep to a
discipline. What an action other than a call comes to is said here once, and every invariant starts
from it.

Two things are no actions of their own. The writes of a commit are applied in one turn
(`Database.apply`), and no turn of another task comes between two of them. And no action takes a
task away: a client that has called a commit, a rollback or a disconnect waits for its end, and so
does one that has called a statement. It is assumed that clients do not drop such a call half-way.
-/

namespace TxStore

/-- What happens to a database. A task that has been submitted is there to stay, whether it is given
further turns or not. -/
inductive Action (σ : Type) where
  /-- A connection is opened. -/
  | connect
  /-- A table is registered. -/
  | createTable (table : σ)
  /-- A table is taken out of the registry. -/
  | dropTable (name : String)
  /-- An explicit transaction is begun. -/
  | beginTransaction (c : ConnectionId)
  /-- A call is made on a connection. -/
  | submit (c : ConnectionId) (call : Call)
  /-- A bare request for a lock is made. -/
  | requestLock (mode : Lock.Mode) (holder : Lock.Holder) (key : Lock.Key)
  /-- A task is given a turn. A commit applies all of its writes in one. -/
  | resume (i : TaskId)
  /-- Time passes. -/
  | reach (instant : Duration)

/-- A task that stands elsewhere, if it is an operation. -/
def Task.withStand (stand : Stand) : Task → Task
  | .operation op => .operation { op with stand := stand }
  | .request r => .request r

namespace Database

variable {σ : Type}

/-- The database after an action. -/
def perform [Backend σ] (db : Database σ) : Action σ → Database σ
  | .connect => db.connect.2
  | .createTable table => (db.createTable table).2
  | .dropTable name => (db.dropTable name).2
  | .beginTransaction c => (db.beginTransaction c).2
  | .submit c call => db.submit c call
  | .requestLock mode holder key => db.requestLock mode holder key
  | .resume i => db.resume i
  | .reach instant => db.reach instant

/-- The databases that are reached from `first` by actions that are permitted in the state in which
they are taken. -/
inductive Run [Backend σ] (Permitted : Database σ → Action σ → Prop) (first : Database σ) :
    Database σ → Prop where
  /-- Nothing has happened. -/
  | start : Run Permitted first first
  /-- One more action. -/
  | perform {db : Database σ} {action : Action σ} (run : Run Permitted first db)
      (permitted : Permitted db action) : Run Permitted first (db.perform action)

/-- The databases that are reached from one without tables and connections by any actions. -/
def Reachable [Backend σ] (db : Database σ) : Prop :=
  ∃ config clock hasher, Run (fun _ _ => True) (.new config clock hasher) db

section

variable [Backend σ] {P : Database σ → Action σ → Prop} {first db : Database σ}

/-- Whether each of several actions is permitted when its turn comes. -/
def Admits (Permitted : Database σ → Action σ → Prop) (db : Database σ) : List (Action σ) → Prop
  | [] => True
  | action :: rest => Permitted db action ∧ Admits Permitted (db.perform action) rest

/-- Whether actions are admitted can be found out by performing them. -/
instance decidableAdmits [∀ db action, Decidable (P db action)] :
    (db : Database σ) → (actions : List (Action σ)) → Decidable (Admits P db actions)
  | _, [] => isTrue trivial
  | db, action :: rest =>
    have : Decidable (Admits P (db.perform action) rest) := decidableAdmits _ rest
    inferInstanceAs (Decidable (P db action ∧ Admits P (db.perform action) rest))

/-- A run goes on with several actions. -/
theorem Run.performAll {actions : List (Action σ)} (run : Run P first db)
    (h : Admits P db actions) : Run P first (actions.foldl Database.perform db) := by
  induction actions generalizing db with
  | nil => exact run
  | cons action rest ih => exact ih (run.perform h.1) h.2

/-- Any actions, taken one after the other, reach a database. -/
theorem reachable_performAll (config : Config) (clock : Clock) (hasher : Hasher)
    (actions : List (Action σ)) :
    (actions.foldl Database.perform (.new config clock hasher)).Reachable := by
  have hfold : ∀ (actions : List (Action σ)) (db : Database σ), db.Reachable →
      (actions.foldl Database.perform db).Reachable := by
    intro actions
    induction actions with
    | nil => exact fun _ h => h
    | cons action rest ih =>
      rintro db ⟨config, clock, hasher, run⟩
      exact ih _ ⟨config, clock, hasher, .perform run trivial⟩
  exact hfold actions _ ⟨config, clock, hasher, .start⟩

/-- Running the line is part of a run. -/
theorem Run.settle (hturns : ∀ db i, P db (.resume i)) (run : Run P first db) :
    Run P first db.settle := by
  have hwithin : ∀ fuel (db : Database σ), Run P first db → Run P first (db.settleWithin fuel) := by
    intro fuel
    induction fuel with
    | zero => exact fun _ run => run
    | succ fuel ih =>
      intro db run
      unfold settleWithin
      split
      · exact run
      · exact ih _ (.perform run (hturns _ _))
  exact hwithin _ db run

end

/-! ## Changes of tasks -/

/-- Modifying a task that is there puts another one in its place. -/
theorem modify_eq_set {tasks : Array Task} {i : TaskId} {task : Task} {f : Task → Task}
    (h : tasks[i]? = some task) : tasks.modify i f = tasks.setIfInBounds i (f task) := by
  have hlt : i < tasks.size := (Array.getElem?_eq_some_iff.mp h).1
  apply Array.ext_getElem?
  intro j
  rw [Array.getElem?_setIfInBounds, Array.getElem?_modify]
  by_cases hij : i = j
  · subst hij
    rw [if_pos rfl, if_pos rfl, if_pos hlt, h]
    rfl
  · rw [if_neg hij, if_neg hij]

/-- Modifying a task that is not there, or that is no operation, changes nothing. -/
theorem modify_eq_self {tasks : Array Task} {i : TaskId} {f : Task → Task}
    (h : ∀ task, tasks[i]? = some task → f task = task) : tasks.modify i f = tasks := by
  apply Array.ext_getElem?
  intro j
  rw [Array.getElem?_modify]
  split
  · rename_i hij
    subst hij
    cases htask : tasks[i]? with
    | none => rfl
    | some task => exact congrArg some (h task htask)
  · rfl

/-- Setting where an operation stands changes its task and nothing else. -/
theorem setStand_eq (db : Database σ) (i : TaskId) (stand : Stand) :
    db.setStand i stand = { db with tasks := db.tasks.modify i (Task.withStand stand) } := by
  unfold setStand
  cases htask : db.tasks[i]? with
  | none =>
    have hsame : db.tasks.modify i (Task.withStand stand) = db.tasks := by
      apply modify_eq_self
      intro task hnone
      rw [htask] at hnone
      cases hnone
    rw [hsame]
  | some task =>
    cases task with
    | operation op =>
      rw [modify_eq_set htask]
      rfl
    | request r =>
      have hsame : db.tasks.modify i (Task.withStand stand) = db.tasks := by
        apply modify_eq_self
        rw [htask]
        rintro _ ⟨⟩
        rfl
      rw [hsame]

/-- An operation that is found after another one was moved is that one, or was there before. -/
theorem getElem?_setStand {db : Database σ} {i j : TaskId} {stand : Stand} {op : Operation}
    (h : (db.setStand i stand).tasks[j]? = some (.operation op)) :
    i ≠ j ∧ db.tasks[j]? = some (.operation op) ∨
      i = j ∧ ∃ old, db.tasks[i]? = some (.operation old) ∧ op = { old with stand := stand } := by
  rw [setStand_eq] at h
  dsimp only at h
  rw [Array.getElem?_modify] at h
  split at h
  · rename_i hij
    subst hij
    obtain ⟨task, htask, hmoved⟩ := Option.map_eq_some_iff.mp h
    cases task with
    | operation old =>
      refine .inr ⟨rfl, old, htask, ?_⟩
      cases hmoved
      rfl
    | request r => cases hmoved
  · rename_i hij
    exact .inl ⟨hij, h⟩

/-- Whether task `i` is an operation of the transaction that the locks know as `me`. -/
def Runs (db : Database σ) (i : TaskId) (op : Operation) (me : Lock.Holder) : Prop :=
  db.tasks[i]? = some (.operation op) ∧ op.holder = some me

/-- Who runs is told by the tasks. -/
theorem runs_of_tasks {db db' : Database σ} {i : TaskId} {op : Operation} {me : Lock.Holder}
    (h : db'.tasks = db.tasks) : db'.Runs i op me ↔ db.Runs i op me := by
  unfold Runs
  rw [h]

/-- An operation is the only one with its number. -/
theorem Runs.unique {op op' : Operation} {me me' : Lock.Holder} {db : Database σ} {i : TaskId}
    (h : db.Runs i op me) (h' : db.Runs i op' me') : op' = op ∧ me' = me := by
  have hop : op' = op := by
    have heq := h.1.symm.trans h'.1
    cases heq
    rfl
  refine ⟨hop, ?_⟩
  have hme := h'.2
  rw [hop, h.2] at hme
  cases hme
  rfl

/-- An operation that runs after another one was moved is that one, or ran before. -/
theorem runs_setStand {db : Database σ} {i j : TaskId} {op : Operation} {me : Lock.Holder}
    {stand : Stand} (h : (db.setStand i stand).Runs j op me) :
    db.Runs j op me ∨ i = j ∧ ∃ old, db.Runs i old me ∧ op = { old with stand := stand } := by
  obtain ⟨hop, hme⟩ := h
  rcases getElem?_setStand hop with ⟨-, hop⟩ | ⟨hij, old, hold, rfl⟩
  · exact .inl ⟨hop, hme⟩
  · exact .inr ⟨hij, old, ⟨hold, hme⟩, rfl⟩

/-! ## What an action comes to -/

section

variable [Backend σ]

/-- Creating a table changes at most the tables. -/
theorem exists_createTable (db : Database σ) (table : σ) :
    ∃ store registry, (db.createTable table).2 =
      { db with store := store, registry := registry } := by
  unfold Database.createTable
  dsimp only
  split
  · exact ⟨_, _, rfl⟩
  · exact ⟨_, _, rfl⟩

omit [Backend σ] in
/-- Dropping a table changes at most the registry. -/
theorem exists_dropTable (db : Database σ) (name : String) :
    ∃ registry, (db.dropTable name).2 = { db with registry := registry } := by
  unfold Database.dropTable
  split
  · exact ⟨_, rfl⟩
  · exact ⟨_, rfl⟩

omit [Backend σ] in
/-- What starting a transaction comes to on a connection that has none. -/
theorem start_eq {db : Database σ} {c : ConnectionId}
    (hcurrent : db.directory.current.get? c = none) (origin : Origin) :
    db.start c origin =
      (.ok (db.directory.place c db.clock.read.1 origin).1,
        { db with
          clock := db.clock.read.2
          directory := (db.directory.place c db.clock.read.1 origin).2
          attached := db.attached.insert c (db.directory.place c db.clock.read.1 origin).1 }) := by
  have hstart : ∀ ts, db.directory.start c ts origin = .ok (db.directory.place c ts origin) := by
    intro ts
    unfold Directory.start Dict.contains
    rw [hcurrent]
    rfl
  unfold Database.start
  dsimp only
  rw [hstart]

omit [Backend σ] in
/-- On a connection that has a transaction none is started, and only the clock is read. -/
theorem start_cases (db : Database σ) (c : ConnectionId) (origin : Origin) :
    db.directory.current.get? c = none ∨
      ∃ e, db.start c origin = (.error e, { db with clock := db.clock.read.2 }) := by
  unfold Database.start Directory.start Dict.contains
  dsimp only
  cases hcurrent : db.directory.current.get? c with
  | none => exact .inl rfl
  | some t => exact .inr ⟨_, rfl⟩

omit [Backend σ] in
/-- A transaction is started at most when a statement has none. -/
theorem attach_cases (db : Database σ) (c : ConnectionId) :
    (db.attach c).2 = db ∨ (db.attach c).2 = (db.start c .implicit).2 := by
  unfold Database.attach
  split
  · exact .inl rfl
  · split
    · split
      · rename_i heq
        exact .inr (congrArg Prod.snd heq).symm
      · rename_i heq
        exact .inr (congrArg Prod.snd heq).symm
    · exact .inl rfl

omit [Backend σ] in
/-- A transaction is started when it is begun, unless the connection has one. -/
theorem beginTransaction_cases (db : Database σ) (c : ConnectionId) :
    (db.beginTransaction c).2 = db ∨ (db.beginTransaction c).2 = (db.start c .explicit).2 := by
  unfold Database.beginTransaction
  split
  · exact .inl rfl
  · exact .inr rfl

/-- In its turn an operation goes on from where it stands. -/
theorem resume_eq {db : Database σ} {i : TaskId} {op : Operation} {me : Lock.Holder}
    (hruns : db.Runs i op me) : db.resume i =
      ({ db with ready := db.ready.erase i } : Database σ).resumeOperation i op me := by
  unfold Database.resume
  dsimp only
  rw [hruns.1]
  dsimp only
  rw [hruns.2]

/-- In its turn a bare request moves the locks on. -/
theorem resume_eq_of_request {db : Database σ} {i : TaskId} {r : Lock.Request}
    (hr : db.tasks[i]? = some (.request r)) : db.resume i =
      ({ db with
          ready := db.ready.erase i
          tasks := db.tasks.setIfInBounds i (.request { r with
            stage := (r.run db.locks db.now).2 }) } : Database σ).withLocks
        (r.run db.locks db.now).1 := by
  unfold Database.resume
  dsimp only
  rw [hr]

/-- A task that is given a turn is an operation of a transaction, or a bare request, or only leaves
the line. -/
theorem resume_cases (db : Database σ) (i : TaskId) :
    (∃ op me, db.Runs i op me) ∨ (∃ r, db.tasks[i]? = some (.request r)) ∨
      (∀ op me, ¬ db.Runs i op me) ∧ db.resume i = { db with ready := db.ready.erase i } := by
  unfold Database.resume
  dsimp only
  cases htask : db.tasks[i]? with
  | none =>
    refine .inr (.inr ⟨fun op me hruns => ?_, rfl⟩)
    rw [hruns.1] at htask
    cases htask
  | some task =>
    cases task with
    | request r => exact .inr (.inl ⟨r, rfl⟩)
    | operation op =>
      cases hholder : op.holder with
      | some me => exact .inl ⟨op, me, htask, hholder⟩
      | none =>
        refine .inr (.inr ⟨fun op' me hruns => ?_, ?_⟩)
        · cases hruns.1.symm.trans htask
          exact absurd (hholder.symm.trans hruns.2) nofun
        · dsimp only
          rw [hholder]

end

/-! ## Changes at the end of a transaction -/

/-- Separating a transaction from its connection clears both records of the connection that name it,
and changes nothing else. -/
theorem separate_eq (db : Database σ) (c : ConnectionId) (t : TransactionId) :
    db.separate c t =
      { db with
        attached := if db.attached.get? c = some t then db.attached.erase c else db.attached
        directory :=
          { db.directory with
            current :=
              if db.directory.current.get? c = some t then db.directory.current.erase c
              else db.directory.current } } := by
  have hstop : ∀ d : Directory, d.current.get? c = some t →
      d.stop c = .ok (t, { d with current := d.current.erase c }) := by
    intro d hcurrent
    unfold Directory.stop
    rw [hcurrent]
  unfold separate
  -- The two records are looked at one after the other, and each may name another transaction.
  by_cases hattached : db.attached.get? c = some t
  · rw [if_pos hattached, if_pos hattached]
    dsimp only
    by_cases hcurrent : db.directory.current.get? c = some t
    · rw [if_pos hcurrent, if_pos hcurrent, hstop _ hcurrent]
      rfl
    · rw [if_neg hcurrent, if_neg hcurrent]
  · rw [if_neg hattached, if_neg hattached]
    dsimp only
    by_cases hcurrent : db.directory.current.get? c = some t
    · rw [if_pos hcurrent, if_pos hcurrent, hstop _ hcurrent]
      rfl
    · rw [if_neg hcurrent, if_neg hcurrent]

/-- After that a connection is attached as before, unless it was the one, and to that transaction.
-/
theorem get?_attached_separate (db : Database σ) (c : ConnectionId) (t : TransactionId)
    (d : ConnectionId) : (db.separate c t).attached.get? d =
      if c = d ∧ db.attached.get? c = some t then none else db.attached.get? d := by
  rw [separate_eq]
  dsimp only
  by_cases hattached : db.attached.get? c = some t
  · rw [if_pos hattached, Dict.get?_erase]
    by_cases hcd : c = d
    · rw [if_pos hcd, if_pos ⟨hcd, hattached⟩]
    · rw [if_neg hcd, if_neg fun h => hcd h.1]
  · rw [if_neg hattached, if_neg fun h => hattached h.2]

/-- Separating a transaction from its connection changes no transaction. -/
theorem find?_separate (db : Database σ) (c : ConnectionId) (t u : TransactionId) :
    (db.separate c t).directory.find? u = db.directory.find? u := by
  rw [separate_eq]
  rfl

/-- The release of a transaction may be forgotten before or after another is separated from its
connection. -/
theorem separate_forgetLocks (db : Database σ) (c : ConnectionId) (t u : TransactionId) :
    (db.forgetLocks u).separate c t = (db.separate c t).forgetLocks u := by
  rw [separate_eq, separate_eq]
  rfl

/-- Calls may end before or after their transaction is separated from its connection. -/
theorem separate_finish (db : Database σ) (c : ConnectionId) (t : TransactionId) (i : TaskId)
    (result : Result) :
    (db.separate c t).finish i result = (db.finish i result).separate c t := by
  unfold finish
  rw [separate_eq, separate_eq, setStand_eq, setStand_eq]

/-- What retiring a transaction comes to. -/
theorem retire_eq {db : Database σ} {t : TransactionId} {txn : Transaction}
    (hfound : db.directory.find? t = some txn) :
    db.retire t = db.withDirectory (db.directory.set t txn.finish) := by
  unfold Database.retire Directory.modify
  rw [hfound]

/-- Transactions may be retired before or after they are separated from their connection. -/
theorem separate_retire (db : Database σ) (c : ConnectionId) (t : TransactionId) :
    (db.separate c t).retire t = (db.retire t).separate c t := by
  rw [separate_eq, separate_eq]
  unfold retire withDirectory
  dsimp only
  rw [Directory.current_modify]
  unfold Directory.modify Directory.find? Directory.set
  dsimp only
  split <;> rfl

end Database

end TxStore
