import TxStore.Proofs.Database.Effects

/-!
# What an action comes to

An action registers a table or takes one out, or it changes nothing of what is there already
(`Quiet`), or it gives an operation a turn. `Deed` tells these three apart, and so a property of
runs takes three steps: for the tables, for the quiet actions all at once, and for the moves of a
turn.
-/

namespace TxStore

/-- Whether an action is about the tables. -/
def Action.isTabular {σ : Type} : Action σ → Bool
  | .createTable _ | .dropTable _ => true
  | .connect | .beginTransaction _ | .submit _ _ | .requestLock _ _ _ | .resume _
  | .reach _ => false

namespace Database

variable {σ : Type} {db mid db' : Database σ} {i : TaskId} {op : Operation} {me : Lock.Holder}
  {t : TransactionId} {txn txn' : Transaction} {stand : Stand} {c : ConnectionId}

/-- A change that keeps transactions, operations and commits as they are. Transactions and
operations may be added, and operations may register. -/
structure Quiet (db db' : Database σ) : Prop where
  /-- Every transaction keeps its phase and its writes. -/
  kept : ∀ u txn, db.directory.find? u = some txn →
    ∃ txn', db'.directory.find? u = some txn' ∧ txn'.phase = txn.phase ∧ txn'.log = txn.log
  /-- A transaction that was not known is new. -/
  fresh : ∀ u txn, db'.directory.find? u = some txn →
    db.Known u ∨ txn.phase = .active ∧ txn.log = .empty
  /-- No commit is recorded. -/
  commits : db'.commits = db.commits
  /-- Every operation stands where it stood. -/
  operations : ∀ (j : TaskId) (op : Operation),
    db.tasks[j]? = some (.operation op) → db'.tasks[j]? = some (.operation op)
  /-- An operation that was not there has just been made. -/
  added : ∀ (j : TaskId) (op : Operation), db'.tasks[j]? = some (.operation op) →
    db.tasks[j]? = some (.operation op) ∨
      db.tasks.size ≤ j ∧ op.stand.plan? = none ∧ op.stand.target? = none
  /-- An operation begins to work only in an active transaction. -/
  entered : ∀ j op me, db'.Runs j op me → op.stand.isWorking →
    db.Runs j op me ∨ ∃ txn, db'.directory.find? me.txn = some txn ∧ txn.phase = .active

namespace Quiet

/-- A change that touches neither transactions nor operations nor commits is quiet. -/
theorem of_eq (hdirectory : db'.directory = db.directory) (hcommits : db'.commits = db.commits)
    (htasks : db'.tasks = db.tasks) : db.Quiet db' where
  kept _ txn hu := ⟨txn, hdirectory ▸ hu, rfl, rfl⟩
  fresh _ txn hu := .inl ⟨txn, hdirectory ▸ hu⟩
  commits := hcommits
  operations _ _ hop := htasks ▸ hop
  added _ _ hop := .inl (htasks ▸ hop)
  entered _ _ _ hruns _ := .inl ⟨htasks ▸ hruns.1, hruns.2⟩

/-- Two quiet changes come to one, if the first adds no task. -/
theorem trans (h : db.Quiet mid) (htasks : mid.tasks = db.tasks) (h' : mid.Quiet db') :
    db.Quiet db' where
  kept u txn hu := by
    obtain ⟨txn₁, hu₁, hphase₁, hlog₁⟩ := h.kept u txn hu
    obtain ⟨txn₂, hu₂, hphase₂, hlog₂⟩ := h'.kept u txn₁ hu₁
    exact ⟨txn₂, hu₂, hphase₂.trans hphase₁, hlog₂.trans hlog₁⟩
  fresh u txn hu := by
    rcases h'.fresh u txn hu with ⟨txn₁, hu₁⟩ | hnew
    · obtain ⟨txn₂, hu₂, hphase, hlog⟩ := h'.kept u txn₁ hu₁
      rw [hu] at hu₂
      cases hu₂
      rw [hphase, hlog]
      exact h.fresh u txn₁ hu₁
    · exact .inr hnew
  commits := h'.commits.trans h.commits
  operations j op hop := h'.operations j op (h.operations j op hop)
  added j op hop := by
    rcases h'.added j op hop with hop | hnew
    · exact h.added j op hop
    · exact .inr (htasks ▸ hnew)
  entered j op me hruns hworking := by
    rcases h'.entered j op me hruns hworking with hruns | hactive
    · exact .inl ⟨htasks ▸ hruns.1, hruns.2⟩
    · exact .inr hactive

/-- A task may be added quietly. -/
theorem push (task : Task)
    (htask : ∀ op, task = .operation op → op.stand.plan? = none ∧ op.stand.target? = none ∧
      ∀ me, op.holder = some me → op.stand.isWorking →
        ∃ txn, db.directory.find? me.txn = some txn ∧ txn.phase = .active) :
    db.Quiet (db.push task) where
  kept u txn hu := ⟨txn, hu, rfl, rfl⟩
  fresh u txn hu := .inl ⟨txn, hu⟩
  commits := rfl
  operations j op hop := by
    have hlt := (Array.getElem?_eq_some_iff.mp hop).1
    exact (Array.getElem?_push_lt hlt).trans ((Array.getElem?_eq_getElem hlt).symm.trans hop)
  added j op hop := by
    have hop := Array.getElem?_push.symm.trans hop
    split at hop
    · rename_i hj
      cases hop
      obtain ⟨hplan, htarget, -⟩ := htask op rfl
      exact .inr ⟨Nat.le_of_eq hj.symm, hplan, htarget⟩
    · exact .inl hop
  entered j op me hruns hworking := by
    have hop := Array.getElem?_push.symm.trans hruns.1
    split at hop
    · cases hop
      exact .inr ((htask op rfl).2.2 me hruns.2 hworking)
    · exact .inl ⟨hop, hruns.2⟩

/-- Tasks may be put in line quietly. -/
theorem wake (h : db.Quiet db') (woken : List TaskId) : db.Quiet (db'.wake woken) :=
  ⟨h.kept, h.fresh, h.commits, h.operations, h.added, h.entered⟩

/-- Changed locks may be taken over quietly. -/
theorem withLocks (h : db.Quiet db') (m : Lock.Manager) : db.Quiet (db'.withLocks m) :=
  ⟨h.kept, h.fresh, h.commits, h.operations, h.added, h.entered⟩

/-- A transaction may be started quietly. -/
theorem start (db : Database σ) (c : ConnectionId) (origin : Origin) :
    db.Quiet (db.start c origin).2 := by
  rcases db.start_cases c origin with hcurrent | ⟨e, heq⟩
  · rw [start_eq hcurrent]
    refine ⟨fun u txn hu => ?_, fun u txn hu => ?_, rfl, fun _ _ hop => hop,
      fun _ _ hop => .inl hop, fun _ _ _ hruns _ => .inl hruns⟩
    · exact ⟨txn, Directory.find?_place_of_some _ _ hu, rfl, rfl⟩
    · have hu := (Directory.find?_place ..).symm.trans hu
      split at hu
      · cases hu
        exact .inr ⟨rfl, rfl⟩
      · exact .inl ⟨txn, hu⟩
  · rw [heq]
    exact .of_eq rfl rfl rfl

/-- A connection may be attached quietly. -/
theorem attach (db : Database σ) (c : ConnectionId) : db.Quiet (db.attach c).2 := by
  rcases db.attach_cases c with heq | heq
  · rw [heq]
    exact .of_eq rfl rfl rfl
  · rw [heq]
    exact Quiet.start db c .implicit

/-- The number in flight may change quietly. -/
theorem set (hfound : db.directory.find? t = some txn) (txn' : Transaction)
    (hphase : txn'.phase = txn.phase)
    (hlog : txn'.log = txn.log) :
    db.Quiet (db.withDirectory (db.directory.set t txn')) where
  kept u old hu := by
    by_cases heq : t = u
    · subst heq
      rw [hfound] at hu
      cases hu
      exact ⟨txn', (Directory.find?_set hfound txn' t).trans (if_pos rfl), hphase, hlog⟩
    · exact ⟨old, (Directory.find?_set hfound txn' u).trans ((if_neg heq).trans hu), rfl, rfl⟩
  fresh u old hu := by
    have hu := (Directory.find?_set hfound txn' u).symm.trans hu
    split at hu
    · rename_i heq
      exact .inl ⟨txn, heq ▸ hfound⟩
    · exact .inl ⟨old, hu⟩
  commits := rfl
  operations _ _ hop := hop
  added _ _ hop := .inl hop
  entered _ _ _ hruns _ := .inl hruns

/-- A statement is issued quietly. -/
theorem statement (h : db.TwoPhase) (c : ConnectionId) (s : Statement) :
    db.Quiet (db.submit c (.statement s)) := by
  have hattach := Quiet.attach db c
  have htasks := db.tasks_attach c
  rcases db.submit_statement_cases c s with ⟨e, heq⟩ | ⟨t, opened, txn, -, hfound, hactive, heq⟩
  · rw [heq]
    refine hattach.trans htasks (.push _ fun op heq => ?_)
    cases heq
    exact ⟨rfl, rfl, nofun⟩
  · rw [heq]
    have hid : txn.holder.txn = t := (h.attach c).numbered t txn hfound
    have hset := Quiet.set hfound { txn with inFlight := txn.inFlight + 1 } rfl rfl
    have hpush := hset.trans rfl (.push (.operation
      ⟨c, .statement s, some txn.holder, opened, .issued⟩) fun op heq => by
        cases heq
        refine ⟨rfl, rfl, fun me hholder _ => ?_⟩
        cases hholder
        rw [hid]
        exact ⟨_, (Directory.find?_set hfound _ t).trans (if_pos rfl), hactive⟩)
    exact (hattach.trans htasks hpush).wake _

/-- A bare request may move on quietly. -/
theorem setRequest (db : Database σ) {r : Lock.Request} (hr : db.tasks[i]? = some (.request r))
    (r' : Lock.Request) :
    db.Quiet ({ db with tasks := db.tasks.setIfInBounds i (.request r') } : Database σ) := by
  have hlt := (Array.getElem?_eq_some_iff.mp hr).1
  have htasks : ∀ (j : TaskId) (op : Operation),
      (db.tasks.setIfInBounds i (.request r'))[j]? = some (.operation op) ↔
        db.tasks[j]? = some (.operation op) := by
    intro j op
    rw [Array.getElem?_setIfInBounds]
    by_cases hij : i = j
    · subst hij
      rw [if_pos rfl, if_pos hlt, hr]
      exact ⟨nofun, nofun⟩
    · rw [if_neg hij]
  exact ⟨fun u txn hu => ⟨txn, hu, rfl, rfl⟩, fun u txn hu => .inl ⟨txn, hu⟩, rfl,
    fun j op hop => (htasks j op).mpr hop, fun j op hop => .inl ((htasks j op).mp hop),
    fun j op me hruns _ => .inl ⟨(htasks j op).mp hruns.1, hruns.2⟩⟩

end Quiet

/-- The task to which an action gives a turn. -/
def actor? (db : Database σ) : Action σ → Option TaskId
  | .submit _ _ => some db.tasks.size
  | .resume i => some i
  | .connect | .createTable _ | .dropTable _ | .beginTransaction _ | .requestLock _ _ _
  | .reach _ => none

/-- How the turn of an operation begins, with the operation held at `stand`. -/
inductive Begins [Backend σ] (db : Database σ) (i : TaskId) (op : Operation) (me : Lock.Holder) :
    Action σ → Database σ → Stand → List WriteEntry → Prop where
  /-- The operation goes on. -/
  | resume (runs : db.Runs i op me) :
      Begins db i op me (.resume i) { db with ready := db.ready.erase i } op.stand
        (db.turnWrites op me)
  /-- It is issued, and is to finish its transaction. -/
  | submit {c : ConnectionId} {call : Call} (new : i = db.tasks.size)
      (made : op = ⟨c, call, some me, false, .issued⟩) (finishes : call.isStatement = false)
      (holder : db.attachedHolder c = some me) (result : Result) :
      Begins db i op me (.submit c call) (db.issue c call) (.finished result) []

section

variable [Backend σ] {action : Action σ} {first : Database σ} {writes : List WriteEntry}

/-- The operation whose turn begins is the actor. -/
theorem Begins.actor (h : db.Begins i op me action first stand writes) :
    db.actor? action = some i := by
  cases h with
  | resume runs => rfl
  | submit new made finishes holder result => rw [new]; rfl

/-- At the beginning of a turn the tables are as they were. -/
theorem Begins.tables (h : db.Begins i op me action first stand writes) :
    first.store = db.store ∧ first.registry = db.registry := by
  cases h with
  | resume runs => exact ⟨rfl, rfl⟩
  | submit new made finishes holder result => exact ⟨rfl, rfl⟩

/-- A turn begins quietly. -/
theorem Begins.quiet (h : db.Begins i op me action first stand writes) :
    db.Quiet (first.setStand i stand) := by
  cases h with
  | resume runs =>
    rw [setStand_self { db with ready := db.ready.erase i } runs.1]
    exact .of_eq rfl rfl rfl
  | submit new made finishes holder result =>
    rw [new]
    unfold Database.issue
    rw [setStand_push]
    refine .push _ fun op heq => ?_
    cases heq
    exact ⟨rfl, rfl, nofun⟩

/-- What an action comes to. -/
inductive Deed (db : Database σ) (action : Action σ) : Prop where
  /-- It registers a table or takes one out. -/
  | tabular (about : action.isTabular) (quiet : db.Quiet (db.perform action))
  /-- It does nothing to the tables, and to others only quietly. -/
  | quiet (quiet : db.Quiet (db.perform action)) (store : (db.perform action).store = db.store)
      (registry : (db.perform action).registry = db.registry)
  /-- It gives an operation a turn. -/
  | turn {i : TaskId} {op : Operation} {me : Lock.Holder} {first : Database σ} {stand : Stand}
      {writes : List WriteEntry} (begins : db.Begins i op me action first stand writes)
      (held : first.InTurn i op me stand)
      (leads : Leads i op me first stand writes (db.perform action))

omit [Backend σ] in
/-- Starting a transaction does nothing to the tables. -/
theorem tables_start (db : Database σ) (c : ConnectionId) (origin : Origin) :
    (db.start c origin).2.store = db.store ∧ (db.start c origin).2.registry = db.registry := by
  unfold Database.start
  dsimp only
  split <;> exact ⟨rfl, rfl⟩

omit [Backend σ] in
/-- Attaching a connection does nothing to the tables. -/
theorem tables_attach (db : Database σ) (c : ConnectionId) :
    (db.attach c).2.store = db.store ∧ (db.attach c).2.registry = db.registry := by
  rcases db.attach_cases c with heq | heq
  · rw [heq]
    exact ⟨rfl, rfl⟩
  · rw [heq]
    exact db.tables_start c .implicit

omit [Backend σ] in
/-- Issuing a statement does nothing to the tables. -/
theorem tables_statement (db : Database σ) (c : ConnectionId) (s : Statement) :
    (db.submit c (.statement s)).store = db.store ∧
      (db.submit c (.statement s)).registry = db.registry := by
  have hattach := db.tables_attach c
  rcases db.submit_statement_cases c s with ⟨e, heq⟩ | ⟨t, opened, txn, -, -, -, heq⟩
  · rw [heq]
    exact hattach
  · rw [heq]
    exact hattach

/-- A call may be made. -/
theorem Lifecycle.deed_submit (h : db.Lifecycle) (htwoPhase : db.TwoPhase) (c : ConnectionId)
    (call : Call) : db.Deed (.submit c call) := by
  by_cases hcall : call.isStatement
  · cases call with
    | statement s =>
      obtain ⟨hstore, hregistry⟩ := db.tables_statement c s
      exact .quiet (.statement htwoPhase c s) hstore hregistry
    | commit => cases hcall
    | rollback => cases hcall
    | disconnect => cases hcall
  · have hcall : call.isStatement = false := Bool.eq_false_iff.mpr hcall
    rcases h.submit_cases htwoPhase hcall c with ⟨-, result, heq⟩ | ⟨me, hholder, hknown, hleads⟩
    · have heq : db.perform (.submit c call) = _ := heq
      refine .quiet ?_ (by rw [heq]; rfl) (by rw [heq]; rfl)
      rw [heq]
      refine .push _ fun op heq => ?_
      cases heq
      exact ⟨rfl, rfl, nofun⟩
    · have hheld := h.take ⟨c, call, some me, false, .issued⟩ rfl hknown (.ok none)
      refine .turn (.submit rfl rfl hcall hholder (.ok none)) ?_ (hleads (.ok none))
      rw [issue_eq hholder]
      exact hheld

/-- A task may be given a turn. -/
theorem Lifecycle.deed_resume (h : db.Lifecycle) (i : TaskId) : db.Deed (.resume i) := by
  have hidle : db.resume i = { db with ready := db.ready.erase i } → db.Deed (.resume i) := by
    intro heq
    have heq : db.perform (.resume i) = _ := heq
    exact .quiet (heq ▸ .of_eq rfl rfl rfl) (by rw [heq]) (by rw [heq])
  -- A turn of what is no operation of a transaction, or is over, changes at most a bare request.
  rcases db.resume_cases i with ⟨op, me, hruns⟩ | ⟨r, hr⟩ | ⟨-, heq⟩
  · rcases h.resume_cases hruns with ⟨heq, -⟩ | ⟨-, hleads⟩
    · exact hidle heq
    · exact .turn (.resume hruns) (h.inTurn hruns) hleads
  · have heq : db.perform (.resume i) = _ := resume_eq_of_request hr
    have hline : db.Quiet { db with ready := db.ready.erase i } := .of_eq rfl rfl rfl
    have hset := hline.trans rfl (.setRequest { db with ready := db.ready.erase i } hr
      { r with stage := (r.run db.locks db.now).2 })
    refine .quiet ?_ (by rw [heq]; rfl) (by rw [heq]; rfl)
    rw [heq]
    exact hset.withLocks (r.run db.locks db.now).1
  · exact hidle heq

/-- Every action comes to one of these. -/
theorem Lifecycle.deed (h : db.Lifecycle) (htwoPhase : db.TwoPhase) (action : Action σ) :
    db.Deed action := by
  -- Only submissions and turns move an operation; the other actions are quiet, apart from what two of
  -- them do to the tables.
  cases action with
  | connect => exact .quiet (.of_eq rfl rfl rfl) rfl rfl
  | createTable table =>
    refine .tabular rfl ?_
    show db.Quiet (db.createTable table).2
    obtain ⟨store, registry, heq⟩ := db.exists_createTable table
    rw [heq]
    exact .of_eq rfl rfl rfl
  | dropTable name =>
    refine .tabular rfl ?_
    show db.Quiet (db.dropTable name).2
    obtain ⟨registry, heq⟩ := db.exists_dropTable name
    rw [heq]
    exact .of_eq rfl rfl rfl
  | beginTransaction c =>
    have hstart := Quiet.start db c .explicit
    obtain ⟨hstore, hregistry⟩ := db.tables_start c .explicit
    have hbegin : db.perform (.beginTransaction c) = db ∨
        db.perform (.beginTransaction c) = (db.start c .explicit).2 :=
      db.beginTransaction_cases c
    rcases hbegin with heq | heq
    · have hsame : db.Quiet db := .of_eq rfl rfl rfl
      exact .quiet (by rw [heq]; exact hsame) (by rw [heq]) (by rw [heq])
    · exact .quiet (by rw [heq]; exact hstart) (by rw [heq, hstore]) (by rw [heq, hregistry])
  | submit c call => exact h.deed_submit htwoPhase c call
  | requestLock mode holder key =>
    have hpush : db.Quiet (db.push (.request ⟨mode, holder, key, .issued⟩)) :=
      .push _ fun _ heq => by cases heq
    exact .quiet (hpush.wake _) rfl rfl
  | resume i => exact h.deed_resume i
  | reach instant => exact .quiet (.of_eq rfl rfl rfl) rfl rfl

end

end Database

end TxStore
