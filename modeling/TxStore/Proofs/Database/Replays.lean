import TxStore.Proofs.Database.Attempts

/-!
# Tables are replays of the commits

A memory table never breaks off, so applying a plan replays on each table those of its writes that
go there, and skips the ones that fail (`getElem?_applyPlan`). No other move touches a table. What
every table ever made holds is therefore what it was made with, with the writes of all commits
replayed in the order in which they were applied; this is kept through every run (`Stored`), and
with the fates of the transactions it says that nothing that was discarded is ever seen in a table
(`finalised_once`).
-/

namespace TxStore.Database

section

variable {σ : Type}

/-- The writes of a plan that go to one table. -/
def writesTo (ref : TableRef) (plan : List PlannedWrite) : List WriteEntry :=
  plan.filterMap fun w => if w.table = some ref then some w.entry else none

/-- The writes that all commits have made to one table, in the order in which they were applied. -/
def written (db : Database σ) (ref : TableRef) : List WriteEntry :=
  db.commits.flatMap fun commit => writesTo ref commit.plan

/-- The tables that are made in several actions. -/
def made (actions : List (Action σ)) : List σ :=
  actions.filterMap fun
    | .createTable table => some table
    | .connect | .dropTable _ | .beginTransaction _ | .submit _ _ | .requestLock _ _ _ | .resume _
    | .reach _ => none

/-- Writes none of which goes to a table do nothing to it. -/
theorem writesTo_eq_nil {ref : TableRef} {plan : List PlannedWrite}
    (h : ∀ w ∈ plan, w.table ≠ some ref) : writesTo ref plan = [] :=
  List.filterMap_eq_nil_iff.mpr fun w hw => if_neg (h w hw)

end

variable {db mid db' : Database MemoryTable} {i : TaskId} {op : Operation} {me : Lock.Holder}
  {t : TransactionId} {stand stand' : Stand} {writes : List WriteEntry}
  {plan : List PlannedWrite} {tables : List MemoryTable} {action : Action MemoryTable}

/-- A table after a write. If the write fails the table is as it was. -/
def afterWrite (table : MemoryTable) (e : WriteEntry) : MemoryTable :=
  match applyWrite table e with
  | .done table' => table'
  | .failed _ | .broken _ => table

/-- A table after several writes. -/
def replayed (table : MemoryTable) (entries : List WriteEntry) : MemoryTable :=
  entries.foldl afterWrite table

/-- Memory tables do not break off. -/
theorem applyWrite_ne_broken (table : MemoryTable) (e : WriteEntry) (text : String) :
    applyWrite table e ≠ .broken text := by
  have hexcept : ∀ x : Except TableError MemoryTable, Outcome.ofExcept x ≠ .broken text := by
    intro x
    cases x <;> exact nofun
  unfold applyWrite
  split
  · exact hexcept _
  · exact hexcept _

/-- Applying a plan replays on each table the writes that go to it. -/
theorem getElem?_applyPlan (store : Array MemoryTable) (plan : List PlannedWrite) (ref : TableRef) :
    (applyPlan store plan).1[ref]? =
      store[ref]?.map fun table => replayed table (writesTo ref plan) := by
  induction plan generalizing store with
  | nil => exact Option.map_id'.symm
  | cons w rest ih =>
    have hskip : w.table ≠ some ref → writesTo ref (w :: rest) = writesTo ref rest :=
      fun hne => List.filterMap_cons_none (if_neg hne)
    have htake : w.table = some ref → writesTo ref (w :: rest) = w.entry :: writesTo ref rest :=
      fun heq => List.filterMap_cons_some (if_pos heq)
    unfold applyPlan
    split
    · -- The table of the write is not there, and so it is not this one.
      rename_i hnone
      show (applyPlan store rest).1[ref]? = _
      rw [ih]
      by_cases heq : w.table = some ref
      · rw [heq, Option.bind_some, Option.map_eq_none_iff] at hnone
        rw [hnone]
        rfl
      · rw [hskip heq]
    · -- The write goes to a table that is there; it matters if it is this one and does not fail.
      rename_i found table hfound
      obtain ⟨ref', href', htable⟩ := Option.bind_eq_some_iff.mp hfound
      obtain ⟨table', htable, heq⟩ := Option.map_eq_some_iff.mp htable
      cases heq
      have hlt : found < store.size := (Array.getElem?_eq_some_iff.mp htable).1
      by_cases heq : found = ref
      · subst heq
        rw [htake href', htable]
        split
        · rename_i changed hdone
          rw [ih, Array.getElem?_setIfInBounds_self_of_lt hlt]
          show some (replayed changed _) = some (replayed (afterWrite table w.entry) _)
          unfold afterWrite
          rw [hdone]
        · rename_i e hfailed
          show (applyPlan store rest).1[found]? = _
          rw [ih, htable]
          show some (replayed table _) = some (replayed (afterWrite table w.entry) _)
          unfold afterWrite
          rw [hfailed]
        · rename_i hbroken
          exact absurd hbroken (applyWrite_ne_broken _ _ _)
      · have hne : w.table ≠ some ref := by
          rw [href']
          exact fun h => heq (Option.some.inj h)
        rw [hskip hne]
        split
        · rw [ih, Array.getElem?_setIfInBounds_ne heq]
        · exact ih store
        · rename_i hbroken
          exact absurd hbroken (applyWrite_ne_broken _ _ _)

/-- What the tables ever made hold. -/
structure Stored (db : Database MemoryTable) (tables : List MemoryTable) : Prop where
  /-- All tables are kept. -/
  size : db.store.size = tables.length
  /-- Every registered table is one of them. -/
  registered : ∀ id entry, db.registry.get? id = some entry → entry.table < db.store.size
  /-- What is taken down to be applied goes to them. -/
  planned : ∀ t plan, db.Snapshot t plan → ∀ w ∈ plan, ∀ ref, w.table = some ref →
    ref < db.store.size
  /-- Each holds what it was made with and what the commits have written. -/
  contents : ∀ ref, db.store[ref]? = tables[ref]?.map fun table => replayed table (db.written ref)

/-- The tables that are registered or taken down are there. -/
theorem Stored.housed (h : db.Stored tables) : db.Housed :=
  ⟨h.registered, h.planned⟩

/-- It depends on the tables, the commits and what is taken down. -/
theorem Stored.of_eq (h : db.Stored tables) (hstore : db'.store = db.store)
    (hregistry : ∀ id entry, db'.registry.get? id = some entry → db.registry.get? id = some entry)
    (hcommits : db'.commits = db.commits)
    (hsnapshot : ∀ t plan, db'.Snapshot t plan → db.Snapshot t plan) : db'.Stored tables where
  size := hstore ▸ h.size
  registered id entry hentry := hstore ▸ h.registered id entry (hregistry id entry hentry)
  planned t plan htaken w hw ref href :=
    hstore ▸ h.planned t plan (hsnapshot t plan htaken) w hw ref href
  contents ref := by
    unfold written
    rw [hstore, hcommits]
    exact h.contents ref

/-- No commit has written to a table that is yet to be made. -/
theorem Stored.unwritten (h : db.Stored tables) {ref : TableRef} (hsize : db.store.size ≤ ref) :
    db.written ref = [] := by
  refine List.flatMap_eq_nil_iff.mpr fun commit hmem => writesTo_eq_nil fun w hw href => ?_
  have hlt := h.planned commit.txn commit.plan (.inl hmem) w hw ref href
  exact absurd hlt (Nat.not_lt.mpr hsize)

/-- A table may be made. -/
theorem Stored.push (h : db.Stored tables) (table : MemoryTable) :
    ({ db with store := db.store.push table } : Database MemoryTable).Stored
      (tables ++ [table]) where
  size := by
    rw [List.length_append, ← h.size]
    exact Array.size_push ..
  registered := (h.housed.push table).registered
  planned := (h.housed.push table).planned
  contents ref := by
    show (db.store.push table)[ref]? =
      (tables ++ [table])[ref]?.map fun table => replayed table (db.written ref)
    rw [Array.getElem?_push]
    by_cases heq : ref = db.store.size
    · -- No commit can have written to the new table.
      rw [if_pos heq, heq, h.unwritten (Nat.le_refl _), h.size, List.getElem?_concat_length]
      rfl
    · rw [if_neg heq, h.contents ref]
      by_cases hlt : ref < tables.length
      · rw [List.getElem?_append_left hlt]
      · have hlarge : tables.length + 1 ≤ ref :=
          Nat.lt_of_le_of_ne (Nat.not_lt.mp hlt) fun h' => heq (h'.symm.trans h.size.symm)
        have hnone : (tables ++ [table])[ref]? = none :=
          List.getElem?_eq_none (by rw [List.length_append]; exact hlarge)
        rw [hnone, List.getElem?_eq_none (Nat.not_lt.mp hlt)]

/-- A table may be registered. -/
theorem Stored.createTable (h : db.Stored tables) (table : MemoryTable) :
    (db.createTable table).2.Stored (tables ++ [table]) := by
  have hpush := h.push table
  have hhoused := h.housed.createTable table
  refine ⟨?_, hhoused.registered, hhoused.planned, ?_⟩
  · unfold Database.createTable
    dsimp only
    split <;> exact hpush.size
  · unfold Database.createTable
    dsimp only
    split <;> exact hpush.contents

/-- A table may be taken out of the registry, and is kept. -/
theorem Stored.dropTable (h : db.Stored tables) (name : String) :
    (db.dropTable name).2.Stored tables := by
  have hhoused := h.housed.dropTable name
  obtain ⟨registry, heq⟩ := db.exists_dropTable name
  rw [heq] at hhoused ⊢
  exact ⟨h.size, hhoused.registered, hhoused.planned, h.contents⟩

/-- Any move may happen. -/
theorem Stored.move (hmove : Move i op me db stand writes db' stand')
    (hturn : db.InTurn i op me stand) (h : (db.setStand i stand).Stored tables) :
    (db'.setStand i stand').Stored tables := by
  have heffect := hmove.effect hturn
  have hwritten : ∀ (db : Database MemoryTable) stand ref,
      (db.setStand i stand).written ref = db.written ref := by
    intro db stand ref
    unfold written
    rw [commits_setStand]
  have hhoused := h.housed.move hmove hturn
  refine ⟨?_, hhoused.registered, hhoused.planned, fun ref => ?_⟩
  · rw [store_setStand, heffect.size, ← store_setStand db i stand]
    exact h.size
  · have hcontents := h.contents ref
    rw [store_setStand, hwritten] at hcontents
    rw [store_setStand, hwritten]
    unfold written at hcontents ⊢
    cases heffect.carries with
    | idle plan commits store => rw [store, commits, hcontents]
    | taken found before plan commits store => rw [store, commits, hcontents]
    | @applied plan before after commits store =>
      rw [store, commits, getElem?_applyPlan, hcontents, Option.map_map, List.flatMap_append,
        List.flatMap_singleton]
      congr 1
      funext table
      exact List.foldl_append.symm

/-- Every action keeps it. -/
theorem Stored.perform (h : db.Stored tables) (hlifecycle : db.Lifecycle) (htwoPhase : db.TwoPhase)
    (action : Action MemoryTable) : (db.perform action).Stored (tables ++ made [action]) := by
  -- Only the actions about tables make any, and they leave the contents of the others.
  have hsame : (action.isTabular = false → (db.perform action).Stored tables) →
      (db.perform action).Stored (tables ++ made [action]) := by
    intro hperform
    cases action with
    | createTable table => exact h.createTable table
    | dropTable name =>
      show (db.dropTable name).2.Stored (tables ++ [])
      rw [List.append_nil]
      exact h.dropTable name
    | connect => exact (List.append_nil tables).symm ▸ hperform rfl
    | beginTransaction c => exact (List.append_nil tables).symm ▸ hperform rfl
    | submit c call => exact (List.append_nil tables).symm ▸ hperform rfl
    | requestLock mode holder key => exact (List.append_nil tables).symm ▸ hperform rfl
    | resume i => exact (List.append_nil tables).symm ▸ hperform rfl
    | reach instant => exact (List.append_nil tables).symm ▸ hperform rfl
  refine hsame fun hother => ?_
  cases hlifecycle.deed htwoPhase action with
  | tabular about quiet =>
    rw [hother] at about
    cases about
  | quiet quiet store registry =>
    exact h.of_eq store (fun id entry hentry => registry ▸ hentry) quiet.commits
      fun t plan => quiet.snapshot_iff.mp
  | @turn i op me first stand writes begins held leads =>
    obtain ⟨last, stand', hmoves, -, hlast⟩ := leads
    obtain ⟨ready, heq⟩ := last.putDown_eq i stand'
    obtain ⟨hstore, hregistry⟩ := begins.tables
    have hfirst : (first.setStand i stand).Stored tables := by
      refine h.of_eq ((store_setStand ..).trans hstore) (fun id entry hentry => ?_)
        begins.quiet.commits fun t plan => begins.quiet.snapshot_iff.mp
      rw [registry_setStand, hregistry] at hentry
      exact hentry
    have hstored := hmoves.keeps (P := fun mid stand => (mid.setStand i stand).Stored tables)
      (fun move hturn hmid => hmid.move move hturn) held hfirst
    rw [hlast, heq]
    exact hstored.of_eq rfl (fun _ _ hentry => hentry) rfl fun _ _ htaken => htaken

/-- Several actions keep it. -/
theorem Stored.performAll (h : db.Stored tables) (hlifecycle : db.Lifecycle)
    (htwoPhase : db.TwoPhase) (actions : List (Action MemoryTable)) :
    (actions.foldl Database.perform db).Stored (tables ++ made actions) := by
  induction actions generalizing db tables with
  | nil => exact (List.append_nil tables).symm ▸ h
  | cons action rest ih =>
    have hmade : tables ++ made (action :: rest) = tables ++ made [action] ++ made rest := by
      have hcons : made (action :: rest) = made [action] ++ made rest :=
        List.filterMap_append (l := [action])
      rw [hcons, List.append_assoc]
    rw [hmade]
    exact ih (h.perform hlifecycle htwoPhase action) (hlifecycle.perform htwoPhase action)
      (htwoPhase.perform action)

/-- In a new database there are no tables. -/
theorem stored_new (config : Config) (clock : Clock) (hasher : Hasher) :
    (new config clock hasher : Database MemoryTable).Stored [] where
  size := rfl
  registered _ _ hentry := by cases hentry
  planned _ _ htaken := by
    rcases htaken with hmem | ⟨i, op, me, hruns, -⟩
    · cases hmem
    · cases hruns.1
  contents _ := rfl

/-- A result to which the end of the transaction is joined is an error that tells of it. -/
theorem join_terminalState (result : Result) : ∃ e, result.join [Cause.terminalState] = .error e ∧
    .one .terminalState ∈ e.members := by
  cases result with
  | ok value => exact ⟨_, rfl, List.mem_singleton.mpr rfl⟩
  | error e => exact ⟨_, rfl, List.mem_append_right _ (List.mem_singleton.mpr rfl)⟩

/-- Every transaction is finished once, and only commits touch the tables. After any actions on
memory tables: the fate of a transaction stays once it is decided, and it is decided by one of its
operations, which then is the only one that finishes it. All who come later to finish it are told
that it is over, or they lost a lock and change nothing. The commits are those of transactions that
were applied, each once and in the order in which they were applied, and what each has written is
its write buffer, with the tables registered in the action in which the buffer was taken down. Every
table ever made holds what it was made with and, in this order, what the commits have written to it,
less the writes that failed. -/
theorem finalised_once {config : Config} {clock : Clock} {hasher : Hasher}
    {actions : List (Action MemoryTable)}
    (reached : actions.foldl perform (new config clock hasher) = db) :
    (∀ t f action, db.fate? t = some f → (db.perform action).fate? t = some f) ∧
    (∀ t f action, db.fate? t = none → (db.perform action).fate? t = some f →
      ∃ i op me, db.actor? action = some i ∧ (db.perform action).Runs i op me ∧ me.txn = t ∧
        (f = .applied → op.call = .commit ∨ op.opened)) ∧
    (∀ i j op op' me me', db.Runs i op me → db.Runs j op' me' → op.stand.isClosing →
      op'.stand.isClosing → me.txn = me'.txn → i = j) ∧
    (∀ (mid : Database MemoryTable) t f c, mid.fate? t = some f →
      (mid.attached.get? c = some t → ∀ call : Call, call.isStatement = false →
        mid.submit c call = mid.push (.operation
          ⟨c, call, mid.attachedHolder c, false, .finished (.error Cause.terminalState)⟩)) ∧
      (∀ i (result : Result), ∃ e, mid.commit i c (some t) result = mid.finish i (.error e) ∧
        .one .terminalState ∈ e.members) ∧
      ∀ i why, mid.abort i c t why = mid.finish i (.error (Cause.lock why))) ∧
    (∀ commit ∈ db.commits, db.fate? commit.txn = some .applied ∧
      ∃ before action later mid txn, actions = before ++ action :: later ∧
        before.foldl perform (new config clock hasher) = mid ∧
        (∀ plan, ¬ mid.Snapshot commit.txn plan) ∧
        (mid.perform action).Snapshot commit.txn commit.plan ∧
        db.directory.find? commit.txn = some txn ∧ commit.plan = mid.plan txn.log.entries) ∧
    (db.commits.map Commit.txn).Nodup ∧
    (∀ action, db.commits <+: (db.perform action).commits) ∧
    ∀ ref, db.store[ref]? =
      (made actions)[ref]?.map fun table => replayed table (db.written ref) := by
  have hreached : ∀ actions : List (Action MemoryTable),
      (actions.foldl perform (new config clock hasher)).Reachable :=
    reachable_performAll config clock hasher
  have htwoPhase : db.TwoPhase := (reached ▸ hreached actions).twoPhase
  have h : db.Lifecycle := (reached ▸ hreached actions).lifecycle
  have hstored : db.Stored (made actions) := by
    rw [← reached]
    exact (stored_new config clock hasher).performAll (lifecycle_new config clock hasher)
      (twoPhase_new config clock hasher) actions
  refine ⟨fun t f action hfate => h.fate?_perform htwoPhase hfate action,
    fun t f action => h.decided_perform htwoPhase, h.alone, fun mid t f c hfate => ⟨?_, ?_, ?_⟩,
    fun commit hmem => ⟨?_, ?_⟩, h.once, fun action => h.commits_perform htwoPhase action,
    hstored.contents⟩
  · exact fun hattached call hcall => submit_of_decided hfate hattached hcall
  · intro i result
    obtain ⟨e, heq, hmem⟩ := join_terminalState result
    exact ⟨e, heq ▸ commit_of_decided hfate i c result, hmem⟩
  · exact fun i why => abort_of_decided hfate i c why
  · exact h.fate?_of_commit hmem
  · have htaken : db.Snapshot commit.txn commit.plan := .inl hmem
    obtain ⟨txn, hfound, -, -, hentries⟩ := h.snapshot htaken
    obtain ⟨before, action, later, rfl, hbefore, hafter, hplan⟩ :=
      exists_taken (lifecycle_new config clock hasher) (twoPhase_new config clock hasher) actions
        (not_snapshot_new config clock hasher) (reached ▸ htaken)
    refine ⟨before, action, later, _, txn, rfl, rfl, fun plan hother => hbefore ?_, hafter, hfound,
      hentries ▸ hplan⟩
    -- A transaction is taken down once, so nothing else was before.
    have hmid := (hreached before).lifecycle
    have htwoPhase := (hreached before).twoPhase
    have hsame := (hmid.perform htwoPhase action).snapshot_unique
      (hmid.snapshot_perform htwoPhase hother action) hafter
    exact hsame ▸ hother

/-- A table with one row. -/
def oneRowed : MemoryTable := ⟨"t", .any, .any, ⟨[(.integer 1, .null)]⟩⟩

/-- Two connections each write a row. The first one commits while its write is in flight, and then
tries to roll back; the second one rolls back while its write is in flight. -/
def rivals : List (Action MemoryTable) :=
  [ .createTable oneRowed, .beginTransaction 0,
    .submit 0 (.statement (.put "t" (.integer 1) (.bool true))), .submit 0 .commit,
    .submit 0 .rollback, .submit 1 (.statement (.put "t" (.integer 2) .null)), .submit 1 .rollback,
    .resume 0, .resume 3, .resume 4, .resume 1, .resume 1, .resume 1 ]

/-- For instance, of two transactions the first is applied although it was rolled back, too, and of
the second nothing is seen. -/
theorem finalised_once_rivals :
    ∃ db : Database MemoryTable,
      rivals.foldl perform (new .standard default ⟨"Constant", fun _ => ⟨7⟩⟩) = db ∧
      db.fate? ⟨0⟩ = some .applied ∧ db.fate? ⟨1⟩ = some .discarded ∧
      db.result? 2 = some (.error Cause.terminalState) ∧
      (∀ action, (db.perform action).fate? ⟨1⟩ = some .discarded) ∧
      db.store[0]? = some (replayed oneRowed [⟨⟨7⟩, .integer 1, .put (.bool true)⟩]) ∧
      db.store[0]? = some { oneRowed with rows := ⟨[(.integer 1, .bool true)]⟩ } := by
  obtain ⟨hstays, -, -, -, -, -, -, hcontents⟩ := finalised_once
    (show rivals.foldl perform (new .standard default ⟨"Constant", fun _ => ⟨7⟩⟩) = _ from rfl)
  exact ⟨_, rfl, by decide, by decide, by decide,
    fun action => hstays ⟨1⟩ .discarded action (by decide), hcontents 0, by decide⟩

end TxStore.Database
