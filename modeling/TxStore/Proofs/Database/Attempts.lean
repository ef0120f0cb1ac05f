import TxStore.Proofs.Database.Contents
import TxStore.Proofs.Database.Fates

/-!
# Applying a plan, write by write

Whatever the tables are, applying a plan attempts its writes one after the other, each on the tables
as the earlier ones have left them. `Attempt` tells how one of them may end, `Attempts` chains them,
and `Application` adds the attempt that breaks off, after which there is none. `applyPlan` keeps to
this (`application_applyPlan`) if all tables of the plan are there, and they are for every plan that
is ever taken down (`Housed`).
-/

namespace TxStore.Database

variable {σ : Type} [Backend σ] {db mid db' : Database σ} {i : TaskId} {op : Operation}
  {me : Lock.Holder} {stand stand' : Stand} {writes : List WriteEntry} {store store' : Array σ}
  {plan : List PlannedWrite} {causes : List Cause} {action : Action σ}

/-! ## What may come of a plan -/

/-- How an attempt at a planned write may end without breaking off: what the tables are then, and
why it has failed, if it has. -/
inductive Attempt (store : Array σ) (w : PlannedWrite) : Array σ → Option Cause → Prop
  /-- The table takes the write. -/
  | done {ref : TableRef} {table table' : σ} (planned : w.table = some ref)
      (found : store[ref]? = some table) (written : applyWrite table w.entry = .done table') :
      Attempt store w (store.setIfInBounds ref table') none
  /-- The table refuses it, and nothing changes. -/
  | refused {ref : TableRef} {table : σ} {e : TableError} (planned : w.table = some ref)
      (found : store[ref]? = some table) (refused : applyWrite table w.entry = .failed e) :
      Attempt store w store (some (.table e))
  /-- No table was registered for it. -/
  | missing (unplanned : w.table = none) :
      Attempt store w store (some (.tableNotFound w.entry.table.display))

/-- Whether an attempt at a planned write breaks off with a text. -/
def Breaks (store : Array σ) (w : PlannedWrite) (text : String) : Prop :=
  ∃ ref table, w.table = some ref ∧ store[ref]? = some table ∧
    applyWrite table w.entry = .broken text

/-- What attempts at planned writes come to, one for each and one after the other: what the tables
are then, and why some have failed. -/
inductive Attempts : Array σ → List PlannedWrite → Array σ → List Cause → Prop
  /-- There are none. -/
  | nil {store : Array σ} : Attempts store [] store []
  /-- The first one is followed by the others. -/
  | cons {store mid store' : Array σ} {w : PlannedWrite} {rest : List PlannedWrite}
      {cause : Option Cause} {causes : List Cause} (first : Attempt store w mid cause)
      (later : Attempts mid rest store' causes) :
      Attempts store (w :: rest) store' (cause.toList ++ causes)

/-- What applying a plan comes to: what the tables are then, and which causes are reported, or with
which text an attempt has broken off. -/
inductive Application (store : Array σ) (plan : List PlannedWrite) :
    Array σ → Except String (List Cause) → Prop
  /-- All writes are attempted. -/
  | whole {store' : Array σ} {causes : List Cause} (attempts : Attempts store plan store' causes) :
      Application store plan store' (.ok causes)
  /-- An attempt breaks off. The writes before it are attempted and those after it are not. -/
  | broken {store' : Array σ} {before after : List PlannedWrite} {w : PlannedWrite}
      {causes : List Cause} {text : String} (split : plan = before ++ w :: after)
      (attempts : Attempts store before store' causes) (breaks : Breaks store' w text) :
      Application store plan store' (.error text)

omit [Backend σ] in
/-- A report to which no causes are added stays as it is. -/
theorem map_nil_append (report : Except String (List Cause)) : report.map ([] ++ ·) = report := by
  cases report with
  | error text => rfl
  | ok causes => rfl

/-- A write may be attempted before those of a plan. -/
theorem Application.cons {w : PlannedWrite} {mid : Array σ} {cause : Option Cause}
    {report : Except String (List Cause)} (first : Attempt store w mid cause)
    (h : Application mid plan store' report) :
    Application store (w :: plan) store' (report.map (cause.toList ++ ·)) := by
  cases h with
  | whole attempts => exact .whole (.cons first attempts)
  | @broken before after w' causes text split attempts breaks =>
    have hsplit : w :: plan = (w :: before) ++ w' :: after := congrArg (w :: ·) split
    exact .broken hsplit (.cons first attempts) breaks

/-! ## What comes of it -/

/-- Applying a plan makes no table and loses none. -/
theorem size_applyPlan (store : Array σ) (plan : List PlannedWrite) :
    (applyPlan store plan).1.size = store.size := by
  induction plan generalizing store with
  | nil => rfl
  | cons w rest ih =>
    unfold applyPlan
    split
    · exact ih store
    · split
      · exact (ih _).trans Array.size_setIfInBounds
      · exact ih store
      · rfl

/-- A plan whose tables are all there is applied in this way. -/
theorem application_applyPlan
    (hthere : ∀ w ∈ plan, ∀ ref, w.table = some ref → ref < store.size) :
    Application store plan (applyPlan store plan).1 (applyPlan store plan).2 := by
  induction plan generalizing store with
  | nil => exact .whole .nil
  | cons w rest ih =>
    -- Applying a write adds no table and takes none away.
    have hrest : ∀ {mid : Array σ}, mid.size = store.size →
        ∀ w ∈ rest, ∀ ref, w.table = some ref → ref < mid.size :=
      fun hsize w hw ref href => hsize ▸ hthere w (List.mem_cons_of_mem _ hw) ref href
    unfold applyPlan
    split
    · rename_i hnone
      refine (ih (hrest rfl)).cons (.missing ?_)
      cases htable : w.table with
      | none => rfl
      | some ref =>
        rw [htable, Option.bind_some, Option.map_eq_none_iff, Array.getElem?_eq_none_iff] at hnone
        exact absurd (hthere w List.mem_cons_self ref htable) (Nat.not_lt.mpr hnone)
    · rename_i ref table hfound
      obtain ⟨ref', hplanned, hfound⟩ := Option.bind_eq_some_iff.mp hfound
      obtain ⟨table', hfound, heq⟩ := Option.map_eq_some_iff.mp hfound
      cases heq
      split
      · rename_i written hdone
        have hlater := (ih (hrest Array.size_setIfInBounds)).cons (.done hplanned hfound hdone)
        rwa [Option.toList_none, map_nil_append] at hlater
      · rename_i e hrefused
        exact (ih (hrest rfl)).cons (.refused hplanned hfound hrefused)
      · -- The rest of the plan is not reached.
        rename_i text hbroken
        have hsplit : w :: rest = [] ++ w :: rest := rfl
        exact .broken hsplit .nil ⟨ref, table, hplanned, hfound, hbroken⟩

/-! ## The tables of a plan are there -/

/-- Whether the tables that are registered, and those to which writes are taken down to be applied,
are there. -/
structure Housed (db : Database σ) : Prop where
  /-- Every registered table is. -/
  registered : ∀ id entry, db.registry.get? id = some entry → entry.table < db.store.size
  /-- So is every table of what is taken down. -/
  planned : ∀ t plan, db.Snapshot t plan → ∀ w ∈ plan, ∀ ref, w.table = some ref →
    ref < db.store.size

namespace Housed

omit [Backend σ] in
/-- It depends on the number of tables, the registered ones and what is taken down. -/
theorem of_eq (h : db.Housed) (hsize : db'.store.size = db.store.size)
    (hregistry : ∀ id entry, db'.registry.get? id = some entry → db.registry.get? id = some entry)
    (hsnapshot : ∀ t plan, db'.Snapshot t plan → db.Snapshot t plan) : db'.Housed where
  registered id entry hentry := hsize ▸ h.registered id entry (hregistry id entry hentry)
  planned t plan htaken w hw ref href :=
    hsize ▸ h.planned t plan (hsnapshot t plan htaken) w hw ref href

omit [Backend σ] in
/-- A table may be made. -/
theorem push (h : db.Housed) (table : σ) :
    ({ db with store := db.store.push table } : Database σ).Housed where
  registered id entry hentry := by
    show entry.table < (db.store.push table).size
    rw [Array.size_push]
    exact Nat.lt_succ_of_lt (h.registered id entry hentry)
  planned t plan htaken w hw ref href := by
    show ref < (db.store.push table).size
    rw [Array.size_push]
    exact Nat.lt_succ_of_lt (h.planned t plan htaken w hw ref href)

/-- A table may be registered. -/
theorem createTable (h : db.Housed) (table : σ) : (db.createTable table).2.Housed := by
  have hpush := h.push table
  unfold Database.createTable
  dsimp only
  split
  · exact hpush
  · rename_i id r hcreate
    refine ⟨fun j entry hentry => ?_, hpush.planned⟩
    have hentry := (Registry.get?_of_create hcreate j).symm.trans hentry
    split at hentry
    · cases hentry
      show db.store.size < (db.store.push table).size
      rw [Array.size_push]
      exact Nat.lt_succ_self _
    · exact hpush.registered j entry hentry

omit [Backend σ] in
/-- A table may be taken out of the registry. -/
theorem dropTable (h : db.Housed) (name : String) : (db.dropTable name).2.Housed := by
  unfold Database.dropTable
  split
  · exact h
  · rename_i entry r hdrop
    refine h.of_eq rfl (fun id entry hentry => ?_) fun _ _ htaken => htaken
    unfold Registry.drop at hdrop
    split at hdrop
    · cases hdrop
    · cases hdrop
      have hentry := (Dict.get?_erase ..).symm.trans hentry
      split at hentry
      · cases hentry
      · exact hentry

end Housed

/-- No move makes a table or loses one. -/
theorem Effect.size (h : Effect op me db stand writes db' stand') :
    db'.store.size = db.store.size := by
  cases h.carries with
  | idle plan commits store => rw [store]
  | taken found before plan commits store => rw [store]
  | applied before after commits store => rw [store, size_applyPlan]

namespace Housed

/-- Any move may happen. -/
theorem move (hmove : Move i op me db stand writes db' stand') (hturn : db.InTurn i op me stand)
    (h : (db.setStand i stand).Housed) : (db'.setStand i stand').Housed := by
  have heffect := hmove.effect hturn
  have hregistered := h.registered
  rw [registry_setStand, store_setStand] at hregistered
  refine ⟨fun id entry hentry => ?_, fun t plan htaken w hw ref href => ?_⟩
  · rw [registry_setStand, heffect.registry] at hentry
    rw [store_setStand, heffect.size]
    exact hregistered id entry hentry
  · rw [store_setStand, heffect.size]
    rcases heffect.snapshot_new hturn htaken with hold | hnew
    · exact store_setStand db i stand ▸ h.planned t plan hold w hw ref href
    · -- What is taken down goes to registered tables.
      rw [hnew] at hw
      obtain ⟨e, -, rfl⟩ := List.mem_map.mp hw
      obtain ⟨entry, hentry, rfl⟩ := Option.map_eq_some_iff.mp href
      exact hregistered _ entry hentry

/-- Every action keeps it. -/
theorem perform (h : db.Housed) (hlifecycle : db.Lifecycle) (htwoPhase : db.TwoPhase)
    (action : Action σ) : (db.perform action).Housed := by
  cases hlifecycle.deed htwoPhase action with
  | tabular about quiet =>
    cases action with
    | createTable table => exact h.createTable table
    | dropTable name => exact h.dropTable name
    | connect | beginTransaction c | submit c call | requestLock mode holder key | resume i
    | reach instant => cases about
  | quiet quiet store registry =>
    exact h.of_eq (congrArg Array.size store) (fun id entry hentry => registry ▸ hentry)
      fun t plan => quiet.snapshot_iff.mp
  | @turn i op me first stand writes begins held leads =>
    obtain ⟨last, stand', hmoves, -, hlast⟩ := leads
    obtain ⟨ready, heq⟩ := last.putDown_eq i stand'
    obtain ⟨hstore, hregistry⟩ := begins.tables
    have hfirst : (first.setStand i stand).Housed := by
      refine h.of_eq (congrArg Array.size ((store_setStand ..).trans hstore))
        (fun id entry hentry => ?_) fun t plan => begins.quiet.snapshot_iff.mp
      rw [registry_setStand, hregistry] at hentry
      exact hentry
    have hhoused := hmoves.keeps (P := fun mid stand => (mid.setStand i stand).Housed)
      (fun move hturn hmid => hmid.move move hturn) held hfirst
    rw [hlast, heq]
    exact hhoused.of_eq rfl (fun _ _ hentry => hentry) fun _ _ htaken => htaken

omit [Backend σ] in
/-- In a new database there are no tables. -/
theorem of_new (config : Config) (clock : Clock) (hasher : Hasher) :
    (new config clock hasher : Database σ).Housed where
  registered _ _ hentry := by cases hentry
  planned _ _ htaken := (not_snapshot_new config clock hasher htaken).elim

end Housed

/-- So it is in every database that is reached by any actions. -/
theorem Reachable.housed (h : db.Reachable) : db.Housed := by
  obtain ⟨config, clock, hasher, run⟩ := h
  induction run with
  | start => exact .of_new config clock hasher
  | perform run _ ih =>
    exact ih.perform
      (run.lifecycle (lifecycle_new config clock hasher) (twoPhase_new config clock hasher))
      (run.twoPhase (twoPhase_new config clock hasher)) _

end TxStore.Database
