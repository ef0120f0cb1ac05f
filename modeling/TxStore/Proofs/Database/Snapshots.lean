import TxStore.Proofs.Database.Replays

/-!
# What a commit applies

The operations of a transaction register when they are issued and buffer their writes later, in
turns of their own and in any order. A commit waits for all of them before it takes down the writes.
So what it takes down are the writes of all bodies that have succeeded in the run, each once, and
for every table in the order in which the bodies succeeded (`snapshot_complete`). `Logged` is the
invariant behind it: the write buffer of every transaction that is not discarded is the record of
its successful bodies.
-/

namespace TxStore

/-- The write that a statement makes if it succeeds. -/
def Statement.entry? (hasher : Hasher) (s : Statement) : Option WriteEntry :=
  s.write?.map fun w => ⟨hasher.tableId s.table, s.key, w⟩

/-- The body of a put or a delete that has succeeded. -/
structure Success where
  /-- The task. -/
  task : TaskId
  /-- The transaction. -/
  txn : TransactionId
  /-- The put or delete. -/
  statement : Statement
  deriving DecidableEq

/-- The writes of the successful bodies of a transaction. -/
def Success.entries (hasher : Hasher) (past : List Success) (t : TransactionId) :
    List WriteEntry :=
  (past.filter fun x => x.txn = t).filterMap fun x => x.statement.entry? hasher

/-- The writes of earlier bodies come before those of later ones. -/
theorem Success.entries_append (hasher : Hasher) (past later : List Success) (t : TransactionId) :
    entries hasher (past ++ later) t = entries hasher past t ++ entries hasher later t := by
  unfold entries
  rw [List.filter_append, List.filterMap_append]

/-- A body makes its write. -/
theorem Success.entries_self (hasher : Hasher) (i : TaskId) (t : TransactionId) (s : Statement) :
    entries hasher [⟨i, t, s⟩] t = (s.entry? hasher).toList := by
  have hself : ([⟨i, t, s⟩] : List Success).filter (fun x => x.txn = t) = [⟨i, t, s⟩] :=
    List.filter_cons_of_pos (decide_eq_true rfl)
  unfold entries
  rw [hself]
  cases hentry : s.entry? hasher with
  | none => exact List.filterMap_cons_none hentry
  | some e => exact List.filterMap_cons_some hentry

/-- Bodies of other transactions add nothing. -/
theorem Success.entries_eq_nil {hasher : Hasher} {past : List Success} {t : TransactionId}
    (h : ∀ x ∈ past, x.txn ≠ t) : entries hasher past t = [] := by
  have hnone : (past.filter fun x => x.txn = t) = [] :=
    List.filter_eq_nil_iff.mpr fun x hx heq => h x hx (of_decide_eq_true heq)
  unfold entries
  rw [hnone]
  rfl

namespace Database

variable {σ : Type} {db mid db' : Database σ} {i j : TaskId} {op : Operation} {me : Lock.Holder}
  {t u : TransactionId} {txn : Transaction} {stand stand' : Stand} {writes : List WriteEntry}
  {s : Statement} {plan : List PlannedWrite} {past : List Success} {hasher : Hasher}
  {action : Action σ}

/-- The body that succeeds in the turn of an operation, if it is that of a put or a delete. -/
def bodySuccess? [Backend σ] (db : Database σ) (i : TaskId) (op : Operation) (me : Lock.Holder) :
    Option Success :=
  match op.call, db.bodyEnding? op me with
  | .statement s, some (.done none) => some ⟨i, me.txn, s⟩
  | _, _ => none

/-- The body of a put or a delete that succeeds in an action. -/
def success? [Backend σ] (db : Database σ) : Action σ → Option Success
  | .resume i =>
    match db.tasks[i]? with
    | some (.operation op) => op.holder.bind fun me => db.bodySuccess? i op me
    | some (.request _) | none => none
  | .connect | .createTable _ | .dropTable _ | .beginTransaction _ | .submit _ _
  | .requestLock _ _ _ | .reach _ => none

/-- The bodies of puts and deletes that succeed in several actions, in this order. -/
def successes [Backend σ] (db : Database σ) : List (Action σ) → List Success
  | [] => []
  | action :: rest => (db.success? action).toList ++ successes (db.perform action) rest

section

variable [Backend σ]

/-! ## Bodies -/

/-- What `success?` says of an operation. -/
theorem success?_resume (h : db.Runs i op me) :
    db.success? (.resume i) = db.bodySuccess? i op me := by
  unfold success?
  dsimp only
  rw [h.1]
  dsimp only
  rw [h.2]
  rfl

/-- A body that succeeds is that of its operation, and has ended. -/
theorem bodySuccess?_eq_some {x : Success} (h : db.bodySuccess? i op me = some x) :
    op.call = .statement x.statement ∧ x.task = i ∧ x.txn = me.txn ∧
      db.bodyEnding? op me = some (.done none) := by
  unfold bodySuccess? at h
  split at h
  · rename_i s hcall hending
    cases h
    exact ⟨hcall, rfl, rfl, hending⟩
  · cases h

/-- A body succeeds in a turn of its operation. -/
theorem success?_eq_some {x : Success} (h : db.success? action = some x) :
    ∃ op me, action = .resume x.task ∧ db.Runs x.task op me ∧ x.txn = me.txn ∧
      op.call = .statement x.statement ∧ db.bodyEnding? op me = some (.done none) := by
  cases action with
  | resume i =>
    unfold success? at h
    dsimp only at h
    split at h
    · rename_i op hop
      obtain ⟨me, hme, hbody⟩ := Option.bind_eq_some_iff.mp h
      obtain ⟨hcall, rfl, htxn, hending⟩ := bodySuccess?_eq_some hbody
      exact ⟨op, me, rfl, ⟨hop, hme⟩, htxn, hcall, hending⟩
    · cases h
    · cases h
  | connect => cases h
  | createTable table => cases h
  | dropTable name => cases h
  | beginTransaction c => cases h
  | submit c call => cases h
  | requestLock mode holder key => cases h
  | reach instant => cases h

omit [Backend σ] in
/-- With the lock of its row, only a body that writes succeeds without a value to tell. -/
theorem write?_of_lockedEnding? {target : Target}
    (h : db.lockedEnding? t target s = some (.done none)) : s.write?.isSome := by
  cases s with
  | put table key value => rfl
  | delete table key => rfl
  | get table key =>
    unfold lockedEnding? at h
    dsimp only at h
    split at h <;> cases h

omit [Backend σ] in
/-- So it is with a body that has asked for its lock or looked for the answer. -/
theorem write?_of_acquiredEnding? {target : Target} {a : Lock.Acquisition}
    (h : db.acquiredEnding? t target s a = some (.done none)) : s.write?.isSome := by
  cases a with
  | answered answer =>
    cases answer with
    | ok got => exact write?_of_lockedEnding? h
    | error why => cases h
  | waiting w => cases h

/-- So it is with every body. -/
theorem write?_of_bodyEnding? (hcall : op.call = .statement s)
    (h : db.bodyEnding? op me = some (.done none)) : s.write?.isSome := by
  unfold bodyEnding? at h
  rw [hcall] at h
  dsimp only at h
  split at h
  · split at h
    · cases h
    · split at h
      · cases h
      · split at h
        · cases h
        · cases h
        · exact write?_of_acquiredEnding? h
  · exact write?_of_acquiredEnding? h
  · rename_i target row _
    cases row with
    | failed e => cases h
    | broken text => cases h
    | done value =>
      cases s with
      | put table key value => cases h
      | get table key => cases h
      | delete table key => rfl
  all_goals cases h

/-- The writes of a turn are those of the body that succeeds in it, if the operation works on the
table that its statement names. -/
theorem turnWrites_eq (haimed : ∀ s, op.call = .statement s →
    op.tableOf db.registry s = hasher.tableId s.table) (i : TaskId) :
    db.turnWrites op me =
      Success.entries hasher (db.bodySuccess? i op me).toList me.txn := by
  unfold turnWrites bodySuccess?
  cases hcall : op.call with
  | statement s =>
    dsimp only
    rw [haimed s hcall]
    cases db.bodyEnding? op me with
    | none => rfl
    | some ending =>
      cases ending with
      | done value =>
        cases value with
        | none =>
          dsimp only [Option.toList_some]
          rw [Success.entries_self]
          unfold entriesAt Statement.entry?
          cases s.write? <;> rfl
        | some value => rfl
      | failed e => rfl
      | refused why => rfl
      | broken text => rfl
  | commit => rfl
  | rollback => rfl
  | disconnect => rfl

/-! ## Moves -/

/-- In a turn the tasks are as they were until the operation is put down. -/
theorem Moves.tasks (hmoves : Moves i op me db stand writes db' stand')
    (h : db.InTurn i op me stand) : db'.tasks = db.tasks :=
  hmoves.keeps (P := fun mid _ => mid.tasks = db.tasks)
    (fun move h hmid => (move.effect h).tasks.trans hmid) h rfl

/-- After a turn the operation in hand has moved, and the others are where they were. -/
theorem Moves.runs_putDown_iff {op' : Operation} {me' : Lock.Holder}
    (hmoves : Moves i op me db stand writes db' stand') (h : db.InTurn i op me stand) :
    (db'.putDown i stand').Runs j op' me' ↔ i = j ∧ op' = { op with stand := stand' } ∧ me' = me ∨
      i ≠ j ∧ (db.setStand i stand).Runs j op' me' := by
  have hsame : ∀ {j op me}, db'.Runs j op me ↔ db.Runs j op me := runs_of_tasks (hmoves.tasks h)
  obtain ⟨ready, heq⟩ := db'.putDown_eq i stand'
  rw [heq]
  refine (runs_setStand_iff (hmoves.inTurn h).runs).trans (or_congr Iff.rfl ⟨?_, ?_⟩)
  · rintro ⟨hne, hop⟩
    exact ⟨hne, (runs_setStand_iff h.runs).mpr (.inr ⟨hne, hsame.mp hop⟩)⟩
  · rintro ⟨hne, hop⟩
    rcases (runs_setStand_iff h.runs).mp hop with ⟨hij, -⟩ | ⟨-, hop⟩
    · exact absurd hij hne
    · exact ⟨hne, hsame.mpr hop⟩

/-- In its turn an operation that is at work goes on with its body. -/
theorem works_resume (hruns : db.Runs i op me) (hcall : op.call = .statement s)
    (hworking : op.stand.isWorking) :
    Works i op me { db with ready := db.ready.erase i } op.stand (op.tableOf db.registry s) s
      (db.bodyEnding? op me) (db.resume i) := by
  rw [resume_eq hruns]
  exact works_resumeOperation hcall hworking

/-- An operation is not at work after a turn in which its body ends. -/
theorem Lifecycle.over_of_bodyEnding? {ending : Ending} (h : db.Lifecycle) (hruns : db.Runs i op me)
    (hcall : op.call = .statement s) (hending : db.bodyEnding? op me = some ending) :
    ∃ stand, (db.resume i).Runs i { op with stand := stand } me ∧ stand.isWorking = false := by
  have hworking : op.stand.isWorking := by
    cases hworking : op.stand.isWorking with
    | true => rfl
    | false =>
      rw [bodyEnding?_of_not_working hworking] at hending
      cases hending
  have hworks := works_resume hruns hcall hworking
  rw [hending] at hworks
  generalize hnext : db.resume i = next at hworks
  cases hworks with
  | @ends mid stand' _ moves working =>
    obtain ⟨result, last, final, hmoves, -, heq⟩ := leads_conclude mid i op me ending
    obtain ⟨ready, hlast⟩ := last.putDown_eq i final
    have hmid : mid.InTurn i op me stand' := moves.inTurn (h.inTurn hruns)
    have hmove : Move i op me mid stand' [] (mid.leave me.txn) (.finished result) :=
      .leave hcall working result
    have hleave := hmove.inTurn hmid
    refine ⟨final, ?_, hmoves.not_working rfl⟩
    rw [heq, hlast]
    exact (hmoves.inTurn hleave).moved

/-- Only an active transaction is entered: an operation that is at work after an action was at work
before, or its transaction may still go either way. -/
theorem Lifecycle.entered_perform (h : db.Lifecycle) (htwoPhase : db.TwoPhase) (action : Action σ)
    (hruns : (db.perform action).Runs j op me) (hworking : op.stand.isWorking) :
    (∃ before, db.Runs j before me ∧ before.stand.isWorking) ∨
      (db.perform action).fate? me.txn = none := by
  have hquiet : db.Quiet (db.perform action) →
      (∃ before, db.Runs j before me ∧ before.stand.isWorking) ∨
        (db.perform action).fate? me.txn = none := by
    intro hquiet
    rcases hquiet.entered j op me hruns hworking with hbefore | ⟨txn, hfound, hactive⟩
    · exact .inl ⟨op, hbefore, hworking⟩
    · exact .inr ((fate?_of_found hfound).trans (Phase.fate?_eq_none.mpr hactive))
  cases h.deed htwoPhase action with
  | tabular about quiet => exact hquiet quiet
  | quiet quiet store registry => exact hquiet quiet
  | @turn i own holder first stand writes begins held leads =>
    obtain ⟨last, stand', hmoves, -, heq⟩ := leads
    rw [heq] at hruns
    refine .inl ?_
    -- An operation that is put down at work was at work when it was taken up.
    have hfirst : ∃ before, (first.setStand i stand).Runs j before me ∧ before.stand.isWorking := by
      rcases (hmoves.runs_putDown_iff held).mp hruns with ⟨rfl, rfl, rfl⟩ | ⟨-, hop⟩
      · refine ⟨_, held.moved, ?_⟩
        by_contra hover
        exact absurd ((hmoves.not_working (Bool.eq_false_iff.mpr hover)).symm.trans hworking) nofun
      · exact ⟨op, hop, hworking⟩
    obtain ⟨before, hop, hbefore⟩ := hfirst
    cases begins with
    | resume runs =>
      rw [setStand_self { db with ready := db.ready.erase i } runs.1] at hop
      exact ⟨before, hop, hbefore⟩
    | submit new made finishes holder result =>
      rcases (runs_setStand_iff held.runs).mp hop with ⟨-, rfl, -⟩ | ⟨hne, hop⟩
      · cases hbefore
      · have hop' := Array.getElem?_push.symm.trans hop.1
        rw [if_neg fun hj => hne (new.trans hj.symm)] at hop'
        exact ⟨before, ⟨hop', hop.2⟩, hbefore⟩

/-- What becomes of the transactions in a turn that buffers writes. -/
structure Logs (me : Lock.Holder) (db : Database σ) (writes : List WriteEntry) (db' : Database σ) :
    Prop where
  /-- Other transactions stay as they are. -/
  others : ∀ u txn, u ≠ me.txn → db.directory.find? u = some txn →
    db'.directory.find? u = some txn
  /-- A transaction that was not known has no writes. -/
  fresh : ∀ u txn, db'.directory.find? u = some txn → db.Known u ∨ txn.log = .empty
  /-- The writes are added to the operation's own, unless that is discarded. -/
  mine : ∀ txn, db.directory.find? me.txn = some txn →
    ∃ txn', db'.directory.find? me.txn = some txn' ∧
      (db'.fate? me.txn ≠ some .discarded → txn'.log = txn.log.appendAll writes)

/-- What becomes of them in the moves of a turn. -/
theorem Moves.logs (hmoves : Moves i op me db stand writes db' stand')
    (h : db.InTurn i op me stand) : Logs me db writes db' := by
  induction hmoves with
  | nil =>
    exact ⟨fun _ _ _ hu => hu, fun _ txn hu => .inl ⟨txn, hu⟩,
      fun txn hu => ⟨txn, hu, fun _ => rfl⟩⟩
  | @cons db mid db' stand stand₁ stand' writes writes' move rest ih =>
    have heffect := move.effect h
    have hrest := ih (move.inTurn h)
    -- A transaction that the first move places is not the operation's, and the rest leaves it.
    refine ⟨fun u txn hne hu => hrest.others u txn hne (heffect.others u txn hne hu),
      fun u txn hu => ?_, fun txn hu => ?_⟩
    · rcases hrest.fresh u txn hu with ⟨found, hmid⟩ | hempty
      · rcases heffect.fresh u found hmid with hknown | ⟨-, hempty⟩
        · exact .inl hknown
        · by_cases heq : u = me.txn
          · obtain ⟨own, hown, -⟩ := h.found
            exact .inl ⟨own, heq ▸ hown⟩
          · have hsame := (hrest.others u found heq hmid).symm.trans hu
            cases hsame
            exact .inr hempty
      · exact .inr hempty
    · obtain ⟨txn₁, hmid, hpasses, hlog₁⟩ := heffect.mine txn hu
      obtain ⟨txn₂, hlast, hlog₂⟩ := hrest.mine txn₁ hmid
      refine ⟨txn₂, hlast, fun hkept => ?_⟩
      -- If the transaction were being discarded now, it would be in the end.
      have hphase : txn.phase ≠ .aborting := by
        intro haborting
        have hfate : db.fate? me.txn = some .discarded := by
          rw [fate?_of_found hu, haborting]
          rfl
        exact hkept ((Moves.cons move rest).fate h hfate)
      rw [hlog₂ hkept, hlog₁ hphase, WriteBuffer.appendAll_append]

/-- Whether an operation at a stand works on the table that its statement names. -/
def Aimed (registry : Registry TableRef) (op : Operation) (stand : Stand) : Prop :=
  ∀ s target, op.call = .statement s → stand.target? = some target →
    target.id = registry.tableId s.table

omit [Backend σ] in
/-- A table that an operation aims at is the one that its statement names. -/
theorem Aimed.target {target : Target} (h : Aimed db.registry op op.stand)
    (haims : op.Aims db.registry target) (hcall : op.call = .statement s) :
    target.id = db.registry.tableId s.table := by
  rcases haims with hstand | ⟨s', entry, hcall', hlook⟩
  · exact h s target hcall hstand
  · rw [hcall] at hcall'
    cases hcall'
    exact (Registry.tableId_of_lookUp hlook).symm

/-- A move keeps an operation at work on its table. -/
theorem Move.aimed (hmove : Move i op me db stand writes db' stand')
    (hop : Aimed db.registry op op.stand) (h : Aimed db.registry op stand) :
    Aimed db.registry op stand' := by
  have hstandAt : ∀ {target : Target} {stand : Stand} (a : Lock.Acquisition),
      (∀ s, op.call = .statement s → target.id = db.registry.tableId s.table) →
      Aimed db.registry op stand → Aimed db.registry op (a.standAt target stand) := by
    intro target stand a htarget h
    cases a with
    | answered answer => exact h
    | waiting w =>
      intro s target' hcall heq
      cases heq
      exact htarget s hcall
  have hreads : ∀ {target : Target}, op.Aims db.registry target →
      ∀ s target', op.call = .statement s → some target = some target' →
        target'.id = db.registry.tableId s.table := by
    intro target aims s target' hcall heq
    cases heq
    exact hop.target aims hcall
  -- A stand names a table only while the body is at work, and then the one it named before.
  cases hmove with
  | ask call aims asked => exact hstandAt _ (fun s hcall => hop.target aims hcall) h
  | look call looked => exact hstandAt _ (fun s hcall => h s _ hcall rfl) h
  | read call working aims => exact hreads aims
  | fetch call working aims row => exact hreads aims
  | buffer call working target write => exact h
  | leave call working result => exact nofun
  | tell idle result => exact nofun
  | close idle own attached turned result => exact nofun
  | discard idle attached turned restart result => exact nofun
  | park found busy => exact nofun
  | snapshot found idle => exact nofun
  | apply errors => exact nofun
  | release => exact nofun
  | forget ends => exact h
  | separate ends => exact h
  | replace ends => exact nofun
  | retire ends result => exact nofun

/-- Several moves do, too. -/
theorem Moves.aimed (hmoves : Moves i op me db stand writes db' stand')
    (hturn : db.InTurn i op me stand) (hop : Aimed db.registry op op.stand)
    (h : Aimed db.registry op stand) : Aimed db.registry op stand' :=
  (hmoves.keeps (P := fun mid stand => mid.registry = db.registry ∧ Aimed db.registry op stand)
    (fun move hturn hmid => by
      obtain ⟨hregistry, haimed⟩ := hmid
      rw [← hregistry] at hop haimed ⊢
      exact ⟨(move.effect hturn).registry, move.aimed hop haimed⟩) hturn ⟨rfl, h⟩).2

/-! ## Runs -/

/-- Whether a write buffer of `t` is the record of the bodies that have succeeded: for each table,
the entries are their writes, in their order. -/
def Records (hasher : Hasher) (past : List Success) (t : TransactionId) (log : WriteBuffer) :
    Prop :=
  WriteBuffer.Ascending log.groups ∧ ∀ table,
    (log.entries.filter fun e => e.table = table) =
      (Success.entries hasher past t).filter fun e => e.table = table

omit [Backend σ] in
/-- The empty buffer is the record of no bodies. -/
theorem records_empty (hnone : Success.entries hasher past t = []) :
    Records hasher past t .empty := by
  unfold Records
  rw [hnone]
  exact ⟨List.Pairwise.nil, fun _ => rfl⟩

/-- Appending writes goes with the success of their bodies. -/
theorem Records.appendAll {log : WriteBuffer} {later : List Success}
    (h : Records hasher past t log) :
    Records hasher (past ++ later) t (log.appendAll (Success.entries hasher later t)) := by
  obtain ⟨hascending, hentries⟩ := h
  refine ⟨WriteBuffer.ascending_appendAll hascending, fun table => ?_⟩
  rw [WriteBuffer.filter_entries_appendAll hascending, hentries, Success.entries_append,
    List.filter_append]

/-- Whether the body that has succeeded is over, and has written. -/
def Wrote (db : Database σ) (x : Success) : Prop :=
  ∃ op me, db.Runs x.task op me ∧ me.txn = x.txn ∧ op.call = .statement x.statement ∧
    op.stand.isWorking = false ∧ x.statement.write?.isSome

/-- The write buffer of every transaction that is not discarded is the record of the successful
bodies. -/
structure Logged (db : Database σ) (hasher : Hasher) (past : List Success) : Prop where
  /-- Tables are named by the hasher. -/
  named : db.registry.hasher = hasher
  /-- Every operation works on the table that its statement names. -/
  aimed : ∀ i op me, db.Runs i op me → Aimed db.registry op op.stand
  /-- The entries are the writes of the successful bodies. -/
  kept : ∀ t txn, db.directory.find? t = some txn → db.fate? t ≠ some .discarded →
    Records hasher past t txn.log
  /-- A body that has succeeded is over. -/
  ended : ∀ x ∈ past, db.Wrote x
  /-- No body succeeds twice. -/
  once : (past.map Success.task).Nodup

omit [Backend σ] in
/-- Names of tables depend on the hasher only. -/
theorem Aimed.congr {registry registry' : Registry TableRef} (h : Aimed registry op stand)
    (hhasher : registry'.hasher = registry.hasher) : Aimed registry' op stand := by
  intro s target hcall htarget
  unfold Registry.tableId
  rw [hhasher]
  exact h s target hcall htarget

omit [Backend σ] in
/-- No body of an unknown transaction has succeeded. -/
theorem Logged.entries_eq_nil (h : db.Logged hasher past) (hlifecycle : db.Lifecycle)
    (hunknown : ¬ db.Known t) : Success.entries hasher past t = [] := by
  refine Success.entries_eq_nil fun x hx heq => hunknown ?_
  obtain ⟨op, me, hruns, htxn, -⟩ := h.ended x hx
  obtain ⟨txn, hfound, -⟩ := hlifecycle.fits x.task op me hruns
  exact ⟨txn, (htxn.trans heq) ▸ hfound⟩

omit [Backend σ] in
/-- What is done quietly leaves the record. -/
theorem Logged.quiet (h : db.Logged hasher past) (hlifecycle : db.Lifecycle) (hquiet : db.Quiet db')
    (hhasher : db'.registry.hasher = db.registry.hasher) : db'.Logged hasher past where
  named := hhasher.trans h.named
  aimed j op me hruns := by
    rcases hquiet.added j op hruns.1 with hold | ⟨-, -, hnew⟩
    · exact (h.aimed j op me ⟨hold, hruns.2⟩).congr hhasher
    · intro s target hcall htarget
      rw [hnew] at htarget
      cases htarget
  kept t txn' hfound' hkept := by
    by_cases hknown : db.Known t
    · obtain ⟨txn, hfound⟩ := hknown
      obtain ⟨txn'', hfound'', -, hlog⟩ := hquiet.kept t txn hfound
      rw [hfound'] at hfound''
      cases hfound''
      rw [hlog]
      exact h.kept t txn hfound fun hfate => hkept (hquiet.fate hfate)
    · rcases hquiet.fresh t txn' hfound' with hold | ⟨-, hempty⟩
      · exact absurd hold hknown
      · rw [hempty]
        exact records_empty (h.entries_eq_nil hlifecycle hknown)
  ended x hx := by
    obtain ⟨op, me, hruns, hover⟩ := h.ended x hx
    exact ⟨op, me, ⟨hquiet.operations _ _ hruns.1, hruns.2⟩, hover⟩
  once := h.once

/-- The body that succeeds in a turn belongs to the transaction of the operation. -/
theorem Begins.success {first : Database σ} (h : db.Begins i op me action first stand writes)
    {x : Success} (hx : db.success? action = some x) : x.txn = me.txn := by
  obtain ⟨op', me', rfl, hruns, htxn, -⟩ := success?_eq_some hx
  cases h with
  | resume runs =>
    obtain ⟨rfl, rfl⟩ := hruns.unique runs
    exact htxn

/-- The writes of a turn are those of the body that succeeds in it. -/
theorem Begins.writes_eq {first : Database σ} (h : db.Begins i op me action first stand writes)
    (hlogged : db.Logged hasher past) :
    writes = Success.entries hasher (db.success? action).toList me.txn := by
  cases h with
  | resume runs =>
    rw [success?_resume runs]
    refine turnWrites_eq (fun s hcall => ?_) i
    have haimed := hlogged.aimed i op me runs
    unfold Operation.tableOf
    split
    · rename_i target htarget
      rw [haimed s target hcall htarget]
      exact congrArg (·.tableId s.table) hlogged.named
    · exact congrArg (·.tableId s.table) hlogged.named
  | submit new made finishes holder result => rfl

/-- At the beginning of a turn the operation works on the table that its statement names. -/
theorem Begins.aimed {first : Database σ} (h : db.Begins i op me action first stand writes)
    (hlogged : db.Logged hasher past) : Aimed db.registry op op.stand := by
  cases h with
  | resume runs => exact hlogged.aimed i op me runs
  | submit new made finishes holder result =>
    subst made
    exact nofun

/-- The moves of a turn keep the record, if they buffer the writes of the bodies that succeed. -/
theorem Logged.records {first last : Database σ} {later : List Success}
    (h : (first.setStand i stand).Logged hasher past) (held : first.InTurn i op me stand)
    (hmoves : Moves i op me first stand writes last stand')
    (hwrites : writes = Success.entries hasher later me.txn) (hown : ∀ x ∈ later, x.txn = me.txn)
    (hfound' : last.directory.find? u = some txn) (hkept : last.fate? u ≠ some .discarded) :
    Records hasher (past ++ later) u txn.log := by
  have hlogs := hmoves.logs held
  have hopen : first.fate? u ≠ some .discarded := fun hfate => hkept (hmoves.fate held hfate)
  have hbefore : ∀ txn, first.directory.find? u = some txn → Records hasher past u txn.log := by
    intro txn hfound
    refine h.kept u txn ((directory_setStand first i stand).symm ▸ hfound) ?_
    rw [fate?_of_eq (directory_setStand ..) (commits_setStand ..) u]
    exact hopen
  by_cases hu : u = me.txn
  · subst hu
    obtain ⟨before, hfound, -⟩ := held.found
    obtain ⟨after, hfound'', hlog⟩ := hlogs.mine before hfound
    rw [hfound'] at hfound''
    cases hfound''
    rw [hlog hkept, hwrites]
    exact (hbefore before hfound).appendAll
  · -- The bodies that succeed now belong to another transaction.
    have hsame : Success.entries hasher (past ++ later) u = Success.entries hasher past u := by
      rw [Success.entries_append,
        Success.entries_eq_nil fun x hx htxn => hu (htxn.symm.trans (hown x hx)), List.append_nil]
    unfold Records
    rw [hsame]
    by_cases hknown : first.Known u
    · obtain ⟨before, hfound⟩ := hknown
      have hsame := (hlogs.others u before hu hfound).symm.trans hfound'
      cases hsame
      exact hbefore _ hfound
    · rw [(hlogs.fresh u txn hfound').resolve_left hknown]
      refine records_empty (h.entries_eq_nil held.lifecycle ?_)
      rintro ⟨found, hfound⟩
      exact hknown ⟨found, directory_setStand first i stand ▸ hfound⟩

/-- A body that succeeds in an action is over then. -/
theorem Lifecycle.wrote {x : Success} (h : db.Lifecycle) (hx : db.success? action = some x) :
    (db.perform action).Wrote x := by
  obtain ⟨op, me, rfl, hruns, htxn, hcall, hending⟩ := success?_eq_some hx
  obtain ⟨final, hop, hover⟩ := h.over_of_bodyEnding? hruns hcall hending
  exact ⟨_, me, hop, htxn.symm, hcall, hover, write?_of_bodyEnding? hcall hending⟩

/-- A body that succeeds has not succeeded before: it would be over, and would not end again. -/
theorem Logged.once_append (h : db.Logged hasher past) (action : Action σ) :
    ((past ++ (db.success? action).toList).map Success.task).Nodup := by
  rw [List.map_append, List.nodup_append]
  refine ⟨h.once, ?_, fun j hj k hk hjk => ?_⟩
  · cases db.success? action with
    | none => exact List.nodup_nil
    | some x => exact List.nodup_singleton _
  · obtain ⟨x, hx, rfl⟩ := List.mem_map.mp hj
    obtain ⟨y, hy, rfl⟩ := List.mem_map.mp hk
    obtain ⟨op, me, -, hruns, -, -, hending⟩ := success?_eq_some (Option.mem_toList.mp hy)
    obtain ⟨op', me', hop, -, -, hover, -⟩ := h.ended x hx
    obtain ⟨rfl, rfl⟩ := hruns.unique (hjk ▸ hop)
    rw [bodyEnding?_of_not_working hover] at hending
    cases hending

/-- A turn keeps the record. -/
theorem Logged.turn {first : Database σ} (h : db.Logged hasher past) (hlifecycle : db.Lifecycle)
    (begins : db.Begins i op me action first stand writes) (held : first.InTurn i op me stand)
    (leads : Leads i op me first stand writes (db.perform action)) :
    (db.perform action).Logged hasher (past ++ (db.success? action).toList) := by
  obtain ⟨hstore, hregistry⟩ := begins.tables
  -- What comes before the moves, the issuing of a call or the taking out of the line, writes
  -- nothing.
  have hfirst : (first.setStand i stand).Logged hasher past :=
    h.quiet hlifecycle begins.quiet (by rw [registry_setStand, hregistry])
  have haimed : Aimed first.registry op stand := by
    have hmoved := hfirst.aimed i _ me held.moved
    rw [registry_setStand] at hmoved
    exact hmoved
  obtain ⟨last, stand', hmoves, -, heq⟩ := leads
  obtain ⟨ready, hlast⟩ := last.putDown_eq i stand'
  have hregistry' : (db.perform action).registry = first.registry := by
    rw [heq, hlast]
    exact (registry_setStand ..).trans (hmoves.registry held)
  have hdirectory : (db.perform action).directory = last.directory := by
    rw [heq, hlast]
    exact directory_setStand ..
  -- Afterwards the operation stands where its moves have led it, and the others where they stood.
  have hruns : ∀ j op' me', (db.perform action).Runs j op' me' ↔
      i = j ∧ op' = { op with stand := stand' } ∧ me' = me ∨
        i ≠ j ∧ (first.setStand i stand).Runs j op' me' := by
    intro j op' me'
    rw [heq]
    exact hmoves.runs_putDown_iff held
  refine ⟨?_, fun j op' me' hop => ?_, fun u txn' hfound' hkept => ?_, fun x hx => ?_,
    h.once_append action⟩
  · rw [hregistry', hregistry]
    exact h.named
  · rw [hregistry']
    rcases (hruns j op' me').mp hop with ⟨-, rfl, -⟩ | ⟨-, hop⟩
    · exact hmoves.aimed held (hregistry ▸ begins.aimed h) haimed
    · have hother := hfirst.aimed j op' me' hop
      rw [registry_setStand] at hother
      exact hother
  · -- The log of a transaction grows by what the operation has written in its name.
    rw [hdirectory] at hfound'
    rw [heq, fate?_putDown] at hkept
    exact hfirst.records held hmoves (begins.writes_eq h)
      (fun x hx => begins.success (Option.mem_toList.mp hx)) hfound' hkept
  · -- Of the successes the earlier ones belong to bodies that have ended, and the new one to this
    -- turn.
    rcases List.mem_append.mp hx with hx | hx
    · obtain ⟨op', me', hop, htxn, hcall, hover, hwrite⟩ := hfirst.ended x hx
      by_cases hij : i = x.task
      · rw [← hij] at hop
        obtain ⟨rfl, rfl⟩ := held.moved.unique hop
        exact ⟨_, _, (hruns x.task _ _).mpr (.inl ⟨hij, rfl, rfl⟩), htxn, hcall,
          hmoves.not_working hover, hwrite⟩
      · exact ⟨op', me', (hruns x.task op' me').mpr (.inr ⟨hij, hop⟩), htxn, hcall, hover, hwrite⟩
    · exact hlifecycle.wrote (Option.mem_toList.mp hx)

/-- No body succeeds while a table is registered or taken out. -/
theorem success?_of_tabular (h : action.isTabular) : db.success? action = none := by
  cases hsuccess : db.success? action with
  | none => rfl
  | some x =>
    obtain ⟨op, me, rfl, -⟩ := success?_eq_some hsuccess
    cases h

/-- Tables are named by the same hasher when one is registered or taken out. -/
theorem hasher_perform (h : action.isTabular) :
    (db.perform action).registry.hasher = db.registry.hasher := by
  cases action with
  | createTable table =>
    show (db.createTable table).2.registry.hasher = _
    unfold Database.createTable
    dsimp only
    split
    · rfl
    · rename_i hcreate
      unfold Registry.create at hcreate
      split at hcreate
      · cases hcreate
      · split at hcreate
        · cases hcreate
        · cases hcreate
          rfl
  | dropTable name =>
    show (db.dropTable name).2.registry.hasher = _
    unfold Database.dropTable
    split
    · rfl
    · rename_i hdrop
      unfold Registry.drop at hdrop
      split at hdrop
      · cases hdrop
      · cases hdrop
        rfl
  | connect => cases h
  | beginTransaction c => cases h
  | submit c call => cases h
  | requestLock mode holder key => cases h
  | resume i => cases h
  | reach instant => cases h

/-- Every action keeps the record. -/
theorem Logged.perform (h : db.Logged hasher past) (hlifecycle : db.Lifecycle)
    (htwoPhase : db.TwoPhase) (action : Action σ) :
    (db.perform action).Logged hasher (past ++ (db.success? action).toList) := by
  have hidle : ∀ {db' : Database σ}, db.Quiet db' → db'.registry.hasher = db.registry.hasher →
      db.success? action = none → db'.Logged hasher (past ++ (db.success? action).toList) := by
    intro db' hquiet hhasher hnone
    rw [hnone]
    exact (List.append_nil past).symm ▸ h.quiet hlifecycle hquiet hhasher
  cases hlifecycle.deed htwoPhase action with
  | tabular about quiet => exact hidle quiet (hasher_perform about) (success?_of_tabular about)
  | quiet quiet store registry =>
    refine hidle quiet (by rw [registry]) ?_
    cases hsuccess : db.success? action with
    | none => rfl
    | some x =>
      -- A body that ends does not stand where it stood.
      obtain ⟨op, me, rfl, hruns, -, hcall, hending⟩ := success?_eq_some hsuccess
      obtain ⟨stand, hmoved, hover⟩ := hlifecycle.over_of_bodyEnding? hruns hcall hending
      obtain ⟨heq, -⟩ := hmoved.unique ⟨quiet.operations _ _ hruns.1, hruns.2⟩
      rw [bodyEnding?_of_not_working (heq ▸ hover)] at hending
      cases hending
  | turn begins held leads => exact h.turn hlifecycle begins held leads

/-- Several actions do. -/
theorem Logged.performAll (h : db.Logged hasher past) (hlifecycle : db.Lifecycle)
    (htwoPhase : db.TwoPhase) (actions : List (Action σ)) :
    (actions.foldl Database.perform db).Logged hasher (past ++ db.successes actions) := by
  induction actions generalizing db past with
  | nil => exact (List.append_nil past).symm ▸ h
  | cons action rest ih =>
    unfold successes
    rw [← List.append_assoc]
    exact ih (h.perform hlifecycle htwoPhase action) (hlifecycle.perform htwoPhase action)
      (htwoPhase.perform action)

omit [Backend σ] in
/-- In a new database no body has succeeded. -/
theorem logged_new (config : Config) (clock : Clock) (hasher : Hasher) :
    (new config clock hasher : Database σ).Logged hasher [] where
  named := rfl
  aimed _ _ _ hruns := by cases hruns.1
  kept _ _ hfound := by cases hfound
  ended _ hx := by cases hx
  once := List.nodup_nil

/-- A commit loses and invents no write. After any actions: when the writes of a transaction have
been taken down, to be applied, no operation of it is in flight, none can enter any more, and so it
stays, whatever is done next. What was taken down are, for each table, the writes of all bodies of
the transaction that have succeeded so far, in the order in which they did. All of these are bodies
of puts and deletes, each of them counts once, and it is over. An operation enters only a
transaction that has not yet begun to be finished. In a turn of an operation that is at work its
body ends as `bodyEnding?` tells, or it goes on. -/
theorem snapshot_complete {config : Config} {clock : Clock} {hasher : Hasher}
    {actions : List (Action σ)}
    (reached : actions.foldl perform (new config clock hasher) = db)
    (counted : (new config clock hasher).successes actions = past) :
    (∀ t plan, db.Snapshot t plan →
      (∃ txn, db.directory.find? t = some txn ∧ txn.inFlight = 0) ∧ db.working t = 0 ∧
      db.enroll t = .error .terminalState ∧ (∀ action, (db.perform action).Snapshot t plan) ∧
      ∀ table, ((plan.map PlannedWrite.entry).filter fun e => e.table = table) =
        (Success.entries hasher past t).filter fun e => e.table = table) ∧
    (∀ x ∈ past, x.statement.write?.isSome ∧ ∃ op me, db.Runs x.task op me ∧ me.txn = x.txn ∧
      op.call = .statement x.statement ∧ op.stand.isWorking = false) ∧
    (past.map Success.task).Nodup ∧
    (∀ action i op me, (db.perform action).Runs i op me → op.stand.isWorking →
      (∃ before, db.Runs i before me ∧ before.stand.isWorking) ∨
        (db.perform action).fate? me.txn = none) ∧
    ∀ i op me, db.Runs i op me → op.stand.isWorking →
      (∃ ending, db.bodyEnding? op me = some ending ∧
        ∃ mid : Database σ, db.resume i = mid.conclude i op me.txn ending) ∨
      db.bodyEnding? op me = none ∧
        ∃ stand, (db.resume i).Runs i { op with stand := stand } me ∧ stand.isWorking := by
  have hreached : db.Reachable := reached ▸ reachable_performAll config clock hasher actions
  have htwoPhase := hreached.twoPhase
  have h := hreached.lifecycle
  have hlogged : db.Logged hasher past := by
    rw [← reached, ← counted]
    exact (logged_new config clock hasher).performAll (lifecycle_new config clock hasher)
      (twoPhase_new config clock hasher) actions
  refine ⟨fun t plan htaken => ?_, fun x hx => ?_, hlogged.once,
    fun action i op me => h.entered_perform htwoPhase action, fun i op me hruns hworking => ?_⟩
  · obtain ⟨txn, hfound, -, hidle, hplan⟩ := h.snapshot htaken
    have hfate := h.fate?_of_snapshot htaken
    refine ⟨⟨txn, hfound, hidle⟩, (h.inFlight t txn hfound).symm.trans hidle,
      enroll_of_decided hfate, fun action => h.snapshot_perform htwoPhase htaken action, ?_⟩
    rw [hplan]
    refine (hlogged.kept t txn hfound ?_).2
    rw [hfate]
    exact nofun
  · obtain ⟨op, me, hruns, htxn, hcall, hover, hwrite⟩ := hlogged.ended x hx
    exact ⟨hwrite, op, me, hruns, htxn, hcall, hover⟩
  · obtain ⟨s, hcall⟩ := Call.exists_statement (h.placed i op hruns.1 hworking)
    have hworks := works_resume hruns hcall hworking
    generalize hnext : db.resume i = next at hworks ⊢
    generalize db.bodyEnding? op me = ending at hworks ⊢
    cases hworks with
    | @ends mid stand' ending moves working => exact .inl ⟨ending, rfl, mid, rfl⟩
    | @goesOn mid stand' moves working waits =>
      refine .inr ⟨rfl, stand', ?_, working⟩
      exact (moves.runs_putDown_iff (h.inTurn hruns)).mpr (.inl ⟨rfl, rfl, rfl⟩)

end

/-- A row is deleted and another one put, and the commit is issued before the two have had a turn.
The put is done while the delete still reads its row. -/
def unawaited : List (Action MemoryTable) :=
  [ .createTable oneRowed, .beginTransaction 0, .submit 0 (.statement (.delete "t" (.integer 1))),
    .submit 0 (.statement (.put "t" (.integer 2) .null)), .submit 0 .commit, .resume 0, .resume 1,
    .resume 0, .resume 0, .resume 2 ]

/-- For instance, a commit that has waited for two bodies takes down what both have written, that of
the later call first. -/
theorem snapshot_complete_unawaited :
    ∃ (db : Database MemoryTable) (plan : List PlannedWrite),
      unawaited.foldl perform (new .standard default ⟨"Constant", fun _ => ⟨7⟩⟩) = db ∧
      (new .standard default ⟨"Constant", fun _ => ⟨7⟩⟩).successes unawaited =
        [⟨1, ⟨0⟩, .put "t" (.integer 2) .null⟩, ⟨0, ⟨0⟩, .delete "t" (.integer 1)⟩] ∧
      db.Snapshot ⟨0⟩ plan ∧ (∀ action, (db.perform action).Snapshot ⟨0⟩ plan) ∧
      ((plan.map PlannedWrite.entry).filter fun e => e.table = ⟨7⟩) =
        [⟨⟨7⟩, .integer 2, .put .null⟩, ⟨⟨7⟩, .integer 1, .delete⟩] := by
  obtain ⟨hsnapshot, -⟩ := snapshot_complete
    (show unawaited.foldl perform (new .standard default ⟨"Constant", fun _ => ⟨7⟩⟩) = _ from rfl)
    rfl
  have htaken : (unawaited.foldl perform
      (new .standard default ⟨"Constant", fun _ => ⟨7⟩⟩ : Database MemoryTable)).Snapshot ⟨0⟩ _ :=
    .inr ⟨2, _, _, ⟨rfl, rfl⟩, rfl, rfl⟩
  obtain ⟨-, -, -, hstays, hentries⟩ := hsnapshot ⟨0⟩ _ htaken
  exact ⟨_, _, rfl, by decide, htaken, hstays, (hentries ⟨7⟩).trans (by decide)⟩

end Database

end TxStore
