import TxStore.Proofs.Database.Amendments

/-!
# The records agree after every run

A turn keeps the records of the transactions' lives in agreement since its moves do. The other
actions start a transaction, add a task, or touch none of the records. `submit_statement_cases`,
`Lifecycle.submit_cases` and `Lifecycle.resume_cases` say what becomes of a call and of a turn,
whatever is to be shown of them.
-/

namespace TxStore.Database

variable {σ : Type} {db db' : Database σ} {i j : TaskId} {op : Operation} {me : Lock.Holder}
  {t : TransactionId} {txn : Transaction} {c : ConnectionId} {result : Result}

/-- An operation that stands where it stands is where it is. -/
theorem setStand_self (db : Database σ) (h : db.tasks[i]? = some (.operation op)) :
    db.setStand i op.stand = db := by
  rw [setStand_eq]
  have hsame : db.tasks.modify i (Task.withStand op.stand) = db.tasks := by
    apply modify_eq_self
    rw [h]
    rintro _ ⟨⟩
    rfl
  rw [hsame]

/-- An operation that was added is one of the tasks. -/
theorem runs_push (hme : op.holder = some me) :
    (db.push (.operation op)).Runs db.tasks.size op me :=
  ⟨Array.getElem?_push_size, hme⟩

/-- A task that is found after another one was added is that one, or was there before. -/
theorem getElem?_push_cases {task added : Task} (h : (db.push added).tasks[j]? = some task) :
    task = added ∨ db.tasks[j]? = some task := by
  have h := Array.getElem?_push.symm.trans h
  split at h
  · cases h
    exact .inl rfl
  · exact .inr h

/-- A task that belongs to no transaction or is over may be added. -/
theorem Lifecycle.push (h : db.Lifecycle) (task : Task)
    (htask : ∀ op, task = .operation op → (∃ result, op.stand = .finished result) ∧
      ∀ me, op.holder = some me → db.Known me.txn) : (db.push task).Lifecycle := by
  -- An operation that is found afterwards is the new task, or it was there.
  have hcases : ∀ {j : TaskId} {op' : Operation}, (db.push task).tasks[j]? = some (.operation op') →
      task = .operation op' ∨ db.tasks[j]? = some (.operation op') :=
    fun hop => (getElem?_push_cases hop).imp Eq.symm id
  have hruns : ∀ {j op' me'}, (db.push task).Runs j op' me' →
      task = .operation op' ∧ op'.holder = some me' ∨ db.Runs j op' me' :=
    fun hop => (hcases hop.1).imp (⟨·, hop.2⟩) (⟨·, hop.2⟩)
  have hkept : ∀ {j op' me'}, db.Runs j op' me' → (db.push task).Runs j op' me' := by
    rintro j op' me' ⟨hop, hme⟩
    have hlt := (Array.getElem?_eq_some_iff.mp hop).1
    exact ⟨(Array.getElem?_push_lt hlt).trans ((Array.getElem?_eq_getElem hlt).symm.trans hop), hme⟩
  -- What is over is neither at work nor finishes anything.
  have hover : ∀ {op'}, task = .operation op' → op'.stand.isWorking = false ∧
      op'.stand.isClosing = false ∧ op'.stand.isCommitting = false := by
    intro op' heq
    obtain ⟨⟨result, hstand⟩, -⟩ := htask op' heq
    rw [hstand]
    exact ⟨rfl, rfl, rfl⟩
  -- The new task is counted for no transaction.
  have hworking : ∀ t, (db.push task).working t = db.working t := by
    intro t
    refine Array.countP_push.trans ?_
    have hidle : Task.worksFor t task = false := by
      cases task with
      | request r => rfl
      | operation op =>
        unfold Task.worksFor
        dsimp only
        rw [(hover rfl).1, Bool.and_false, Bool.false_and]
    rw [hidle]
    rfl
  -- Each record is that of before, since the new task is of no account to it.
  refine ⟨h.attached, h.present, fun t txn hfound => ?_, fun j op' hop hworks => ?_,
    fun j op' hop hopen => ?_, fun j op' hop hcommitting => ?_, fun j op' me' hop => ?_,
    fun j k op₁ op₂ me₁ me₂ h₁ h₂ hclosing₁ hclosing₂ heq => ?_, fun t txn hfound hclosing => ?_,
    h.ready, h.once, h.recorded⟩
  · rw [hworking]
    exact h.inFlight t txn hfound
  · rcases hcases hop with heq | hop
    · rw [(hover heq).1] at hworks
      cases hworks
    · exact h.placed j op' hop hworks
  · rcases hcases hop with heq | hop
    · obtain ⟨⟨result, hstand⟩, -⟩ := htask op' heq
      exact absurd hstand (hopen result)
    · exact h.held j op' hop hopen
  · rcases hcases hop with heq | hop
    · rw [(hover heq).2.2] at hcommitting
      cases hcommitting
    · exact h.owned j op' hop hcommitting
  · rcases hruns hop with ⟨heq, hme⟩ | hop
    · obtain ⟨-, hknown⟩ := htask op' heq
      obtain ⟨txn, hfound⟩ := hknown me' hme
      exact ⟨txn, hfound, Stand.fits_of_not_closing (hover heq).2.1⟩
    · exact h.fits j op' me' hop
  · rcases hruns h₁ with ⟨heq₁, -⟩ | h₁
    · rw [(hover heq₁).2.1] at hclosing₁
      cases hclosing₁
    · rcases hruns h₂ with ⟨heq₂, -⟩ | h₂
      · rw [(hover heq₂).2.1] at hclosing₂
        cases hclosing₂
      · exact h.alone j k op₁ op₂ me₁ me₂ h₁ h₂ hclosing₁ hclosing₂ heq
  · obtain ⟨j, op', me', hop, hstand, htxn⟩ := h.closer t txn hfound hclosing
    exact ⟨j, op', me', hkept hop, hstand, htxn⟩

/-- An operation may be added before or after it is moved. -/
theorem setStand_push (db : Database σ) (op : Operation) (stand : Stand) :
    (db.push (.operation op)).setStand db.tasks.size stand =
      db.push (.operation { op with stand := stand }) := by
  have hlast : (db.tasks.push (.operation op))[db.tasks.size]? = some (.operation op) :=
    Array.getElem?_push_size
  have htasks : (db.tasks.push (.operation op)).modify db.tasks.size (Task.withStand stand) =
      db.tasks.push (.operation { op with stand := stand }) := by
    rw [modify_eq_set hlast]
    apply Array.ext_getElem?
    intro j
    rw [Array.getElem?_setIfInBounds, Array.getElem?_push, Array.getElem?_push, Array.size_push]
    by_cases hj : db.tasks.size = j
    · rw [if_pos hj, if_pos (hj ▸ Nat.lt_succ_self _), if_pos hj.symm]
      rfl
    · rw [if_neg hj]
      have hne : ¬ j = db.tasks.size := fun heq => hj heq.symm
      rw [if_neg hne, if_neg hne]
  rw [setStand_eq]
  exact congrArg (fun tasks => ({ db with tasks := tasks } : Database σ)) htasks

/-- An operation of a known transaction may be added, and is then held as one that is over. -/
theorem Lifecycle.take (h : db.Lifecycle) (op : Operation) (hme : op.holder = some me)
    (hknown : db.Known me.txn) (result : Result) :
    (db.push (.operation op)).InTurn db.tasks.size op me (.finished result) := by
  refine ⟨runs_push hme, ?_⟩
  rw [setStand_push]
  refine h.push _ fun op' heq => ?_
  cases heq
  refine ⟨⟨result, rfl⟩, fun me' hme' => ?_⟩
  have heq := hme.symm.trans hme'
  cases heq
  exact hknown

/-- A transaction may be started on a connection that has none. -/
theorem Lifecycle.start (h : db.Lifecycle) (c : ConnectionId) (origin : Origin) :
    (db.start c origin).2.Lifecycle := by
  rcases db.start_cases c origin with hcurrent | ⟨e, heq⟩
  · rw [start_eq hcurrent]
    exact h.place c db.clock.read.1 db.clock.read.2 origin
  · rw [heq]
    exact h.of_eq rfl rfl rfl rfl

/-- A connection that is attached to a transaction, or is now. -/
theorem Lifecycle.attachOrStart (h : db.Lifecycle) (c : ConnectionId) :
    (db.attach c).2.Lifecycle := by
  rcases db.attach_cases c with heq | heq
  · rw [heq]
    exact h
  · rw [heq]
    exact h.start c .implicit

/-- Starting a transaction adds no task. -/
@[simp] theorem tasks_start (db : Database σ) (c : ConnectionId) (origin : Origin) :
    (db.start c origin).2.tasks = db.tasks := by
  unfold Database.start
  dsimp only
  split <;> rfl

/-- Attaching a connection adds no task. -/
@[simp] theorem tasks_attach (db : Database σ) (c : ConnectionId) :
    (db.attach c).2.tasks = db.tasks := by
  rcases db.attach_cases c with heq | heq
  · rw [heq]
  · rw [heq]
    exact db.tasks_start c .implicit

/-- What becomes of a statement when it is issued: it is turned away, or it registers with a
transaction that is active, which may have been made for it. -/
theorem submit_statement_cases (db : Database σ) (c : ConnectionId) (s : Statement) :
    (∃ e, db.submit c (.statement s) = (db.attach c).2.push
      (.operation ⟨c, .statement s, none, false, .finished (.error (.one e))⟩)) ∨
    ∃ t opened txn, (db.attach c).1 = .ok (t, opened) ∧
      (db.attach c).2.directory.find? t = some txn ∧ txn.phase = .active ∧
      db.submit c (.statement s) =
        (((db.attach c).2.withDirectory ((db.attach c).2.directory.set t
          { txn with inFlight := txn.inFlight + 1 })).push
          (.operation ⟨c, .statement s, some txn.holder, opened, .issued⟩)).wake
          [db.tasks.size] := by
  unfold Database.submit Database.register
  dsimp only
  cases hattach : db.attach c with
  | mk attachment db' =>
    cases attachment with
    | error e => exact .inl ⟨e, rfl⟩
    | ok attached =>
      obtain ⟨t, opened⟩ := attached
      dsimp only
      cases henroll : db'.enroll t with
      | error e => exact .inl ⟨e, rfl⟩
      | ok enrolled =>
        obtain ⟨me, entered⟩ := enrolled
        obtain ⟨txn, hfound, hactive, rfl, rfl⟩ := enroll_ok henroll
        exact .inr ⟨t, opened, txn, rfl, hfound, hactive, rfl⟩

/-- A connection that the locks know no transaction of is attached to none. -/
theorem Lifecycle.attached_eq_none (h : db.Lifecycle) (hholder : db.attachedHolder c = none) :
    db.attached.get? c = none := by
  cases hattached : db.attached.get? c with
  | none => rfl
  | some t =>
    obtain ⟨txn, hfound⟩ := h.present c t hattached
    rw [attachedHolder_of_attached hattached hfound] at hholder
    cases hholder

/-- The locks know the transaction of a connection by its identifier. -/
theorem TwoPhase.txn_attachedHolder (h : db.TwoPhase) (hholder : db.attachedHolder c = some me) :
    db.attached.get? c = some me.txn ∧ db.Known me.txn := by
  obtain ⟨txn, hbind, rfl⟩ := Option.map_eq_some_iff.mp hholder
  obtain ⟨t, hattached, hfound⟩ := Option.bind_eq_some_iff.mp hbind
  have hid : txn.holder.txn = t := h.numbered t txn hfound
  exact ⟨hid ▸ hattached, txn, hid ▸ hfound⟩

/-- What becomes of a call that is to finish a transaction: it has a turn at once, or it is over at
once because its connection has no transaction. -/
theorem Lifecycle.submit_cases [Backend σ] (h : db.Lifecycle) (htwoPhase : db.TwoPhase)
    {call : Call} (hcall : call.isStatement = false) (c : ConnectionId) :
    (db.attached.get? c = none ∧ ∃ result, db.submit c call =
      db.push (.operation ⟨c, call, none, false, .finished result⟩)) ∨
    ∃ me, db.attachedHolder c = some me ∧ db.Known me.txn ∧ ∀ result,
      Leads db.tasks.size ⟨c, call, some me, false, .issued⟩ me (db.issue c call)
        (.finished result) [] (db.submit c call) := by
  cases hholder : db.attachedHolder c with
  | none =>
    -- The connection has no transaction: every such call is over as soon as it is issued, with an
    -- error or without.
    have hattached := h.attached_eq_none hholder
    have hissue : ∀ result, (db.issue c call).finish db.tasks.size result =
        db.push (.operation ⟨c, call, none, false, .finished result⟩) := by
      intro result
      rw [issue_eq hholder]
      exact setStand_push db _ _
    have hattached' : (db.issue c call).attached.get? c = none := hattached
    refine .inl ⟨hattached, ?_⟩
    unfold Database.submit
    dsimp only
    cases call with
    | statement s => cases hcall
    | commit =>
      dsimp only
      unfold Database.commit
      rw [hattached']
      exact ⟨_, hissue _⟩
    | rollback =>
      dsimp only
      unfold Database.rollback
      rw [hattached']
      exact ⟨_, hissue _⟩
    | disconnect =>
      dsimp only
      unfold Database.disconnect Dict.contains
      rw [hattached']
      exact ⟨_, hissue _⟩
  | some me =>
    obtain ⟨hattached, hknown⟩ := htwoPhase.txn_attachedHolder hholder
    refine .inr ⟨me, rfl, hknown, fun result => ?_⟩
    -- It has one, and the call is led to its end in moves of that transaction.
    have hmine : ∀ t, (db.issue c call).attached.get? c = some t → t = me.txn := by
      intro t ht
      have heq := ht.symm.trans hattached
      cases heq
      rfl
    have hidle : ∀ op : Operation, op.IdlesAt (.finished result) :=
      fun _ => ⟨rfl, Bool.and_false _⟩
    unfold Database.submit
    cases call with
    | statement s => cases hcall
    | commit =>
      exact leads_commit (hidle ⟨c, .commit, some me, false, .issued⟩) (.inl rfl)
        fun t ht _ => hmine t ht
    | rollback =>
      exact leads_rollback (hidle ⟨c, .rollback, some me, false, .issued⟩) hmine
    | disconnect =>
      exact leads_disconnect (hidle ⟨c, .disconnect, some me, false, .issued⟩) hmine

/-- A call that is over when it is issued may be made. -/
theorem Lifecycle.push_over (h : db.Lifecycle) (call : Call) (c : ConnectionId) (result : Result) :
    (db.push (.operation ⟨c, call, none, false, .finished result⟩)).Lifecycle := by
  refine h.push _ fun op heq => ?_
  cases heq
  exact ⟨⟨result, rfl⟩, nofun⟩

/-- A statement may register. -/
theorem InTurn.register (h : db.InTurn i op me (.finished result))
    (hfound : db.directory.find? me.txn = some txn) (hactive : txn.phase = .active)
    (hcall : op.call.isStatement) :
    (db.withDirectory (db.directory.set me.txn { txn with inFlight := txn.inFlight + 1 })).InTurn i
      op me .issued := by
  obtain ⟨txn', hfound', hsound, -⟩ := h.found
  rw [hfound] at hfound'
  cases hfound'
  exact h.set hfound (amends_register hsound hactive hcall)

section

variable [Backend σ]

/-- A call may be made. -/
theorem Lifecycle.submit (h : db.Lifecycle) (htwoPhase : db.TwoPhase) (c : ConnectionId)
    (call : Call) : (db.submit c call).Lifecycle := by
  have hfinish : ∀ {call : Call}, call.isStatement = false → (db.submit c call).Lifecycle := by
    intro call hcall
    rcases h.submit_cases htwoPhase hcall c with ⟨-, result, heq⟩ | ⟨me, hholder, hknown, hleads⟩
    · rw [heq]
      exact h.push_over call c result
    · refine (hleads (.ok none)).lifecycle ?_
      rw [issue_eq hholder]
      exact h.take _ rfl hknown _
  cases call with
  | statement s =>
    have hattached := h.attachOrStart c
    rcases db.submit_statement_cases c s with ⟨e, heq⟩ | ⟨t, opened, txn, -, hfound, hactive, heq⟩
    · rw [heq]
      exact hattached.push_over _ c _
    · rw [heq]
      have hid : txn.holder.txn = t := (htwoPhase.attach c).numbered t txn hfound
      subst hid
      have htaken := hattached.take ⟨c, .statement s, some txn.holder, opened, .issued⟩ rfl
        ⟨txn, hfound⟩ (.ok none)
      have hregistered := htaken.register hfound hactive rfl
      have hself := setStand_self _ hregistered.runs.1
      exact (hself ▸ hregistered.lifecycle).of_eq rfl rfl rfl rfl
  | commit => exact hfinish rfl
  | rollback => exact hfinish rfl
  | disconnect => exact hfinish rfl

/-- An operation that is over has nothing left to do in its turn. -/
theorem resumeOperation_of_finished (hover : op.stand = .finished result) :
    db.resumeOperation i op me = db := by
  unfold Database.resumeOperation
  rw [hover]

/-- What a turn of an operation comes to. -/
theorem Lifecycle.resume_cases (h : db.Lifecycle) (hruns : db.Runs i op me) :
    db.resume i = { db with ready := db.ready.erase i } ∧ (∃ result, op.stand = .finished result) ∨
    (∀ result, op.stand ≠ .finished result) ∧
      Leads i op me { db with ready := db.ready.erase i } op.stand (db.turnWrites op me)
        (db.resume i) := by
  rw [resume_eq hruns]
  by_cases hover : ∃ result, op.stand = .finished result
  · obtain ⟨result, hstand⟩ := hover
    exact .inl ⟨resumeOperation_of_finished hstand, result, hstand⟩
  · have hover : ∀ result, op.stand ≠ .finished result := fun result heq => hover ⟨result, heq⟩
    obtain ⟨txn, hfound, -⟩ := h.fits i op me hruns
    exact .inr ⟨hover, leads_resumeOperation { db with ready := db.ready.erase i }
      (h.placed i op hruns.1) hfound hover⟩

omit [Backend σ] in
/-- A turn begins with the operation where it stands. -/
theorem Lifecycle.inTurn (h : db.Lifecycle) (hruns : db.Runs i op me) :
    ({ db with ready := db.ready.erase i } : Database σ).InTurn i op me op.stand := by
  have hturn : ({ db with ready := db.ready.erase i } : Database σ).Lifecycle :=
    h.of_eq rfl rfl rfl rfl
  exact ⟨hruns, (setStand_self { db with ready := db.ready.erase i } hruns.1).symm ▸ hturn⟩

omit [Backend σ] in
/-- A bare request may move on. -/
theorem Lifecycle.setRequest (h : db.Lifecycle) {r : Lock.Request}
    (hr : db.tasks[i]? = some (.request r)) (r' : Lock.Request) :
    ({ db with tasks := db.tasks.setIfInBounds i (.request r') } : Database σ).Lifecycle := by
  obtain ⟨hlt, htask⟩ := Array.getElem?_eq_some_iff.mp hr
  refine h.of_operations rfl (fun j op => ?_) (fun t => ?_) rfl h.attached h.present
  · show (db.tasks.setIfInBounds i (.request r'))[j]? = _ ↔ _
    rw [Array.getElem?_setIfInBounds]
    by_cases hij : i = j
    · subst hij
      rw [if_pos rfl, if_pos hlt, hr]
      exact ⟨nofun, nofun⟩
    · rw [if_neg hij]
  · show (db.tasks.setIfInBounds i (.request r')).countP (Task.worksFor t) = _
    rw [Array.setIfInBounds, dif_pos hlt, Array.countP_set, htask]
    rfl

/-- A task may be given a turn. -/
theorem Lifecycle.resume (h : db.Lifecycle) (i : TaskId) : (db.resume i).Lifecycle := by
  have hturn : ({ db with ready := db.ready.erase i } : Database σ).Lifecycle :=
    h.of_eq rfl rfl rfl rfl
  rcases db.resume_cases i with ⟨op, me, hruns⟩ | ⟨r, hr⟩ | ⟨-, heq⟩
  · rcases h.resume_cases hruns with ⟨heq, -⟩ | ⟨-, hleads⟩
    · rw [heq]
      exact hturn
    · exact hleads.lifecycle (h.inTurn hruns)
  · rw [resume_eq_of_request hr]
    exact (hturn.setRequest hr _).of_eq rfl rfl rfl rfl
  · rw [heq]
    exact hturn

omit [Backend σ] in
/-- The records of a new database agree. -/
theorem lifecycle_new (config : Config) (clock : Clock) (hasher : Hasher) :
    (new config clock hasher : Database σ).Lifecycle where
  attached _ := rfl
  present _ _ h := by cases h
  inFlight _ _ h := by cases h
  placed _ _ h := by cases h
  held _ _ h := by cases h
  owned _ _ h := by cases h
  fits _ _ _ h := by cases h.1
  alone _ _ _ _ _ _ h := by cases h.1
  closer _ _ h := by cases h
  ready _ _ h := by cases h
  once := List.nodup_nil
  recorded _ h := by cases h

/-- Every action keeps the records in agreement. -/
theorem Lifecycle.perform (h : db.Lifecycle) (htwoPhase : db.TwoPhase) (action : Action σ) :
    (db.perform action).Lifecycle := by
  cases action with
  | connect => exact h.of_eq rfl rfl rfl rfl
  | createTable table =>
    show (db.createTable table).2.Lifecycle
    obtain ⟨store, registry, heq⟩ := db.exists_createTable table
    rw [heq]
    exact h.of_eq rfl rfl rfl rfl
  | dropTable name =>
    show (db.dropTable name).2.Lifecycle
    obtain ⟨registry, heq⟩ := db.exists_dropTable name
    rw [heq]
    exact h.of_eq rfl rfl rfl rfl
  | beginTransaction c =>
    show (db.beginTransaction c).2.Lifecycle
    rcases db.beginTransaction_cases c with heq | heq
    · rw [heq]
      exact h
    · rw [heq]
      exact h.start c .explicit
  | submit c call => exact h.submit htwoPhase c call
  | requestLock mode holder key =>
    have hpush := h.push (.request ⟨mode, holder, key, .issued⟩) fun _ heq => by cases heq
    exact hpush.of_eq rfl rfl rfl rfl
  | resume i => exact h.resume i
  | reach instant => exact h.of_eq rfl rfl rfl rfl

/-- The records agree after any run. -/
theorem Run.lifecycle {P : Database σ → Action σ → Prop} {first : Database σ}
    (run : Run P first db) (hfirst : first.Lifecycle) (htwoPhase : first.TwoPhase) :
    db.Lifecycle := by
  induction run with
  | start => exact hfirst
  | perform run _ ih => exact ih.perform (run.twoPhase htwoPhase) _

/-- The records agree in every database that is reached by any actions. -/
theorem Reachable.lifecycle (h : db.Reachable) : db.Lifecycle := by
  obtain ⟨config, clock, hasher, run⟩ := h
  exact run.lifecycle (lifecycle_new config clock hasher) (twoPhase_new config clock hasher)

/-- In every such database the locks cover the writes. -/
theorem Reachable.twoPhase (h : db.Reachable) : db.TwoPhase := by
  obtain ⟨config, clock, hasher, run⟩ := h
  exact run.twoPhase (twoPhase_new config clock hasher)

end

end TxStore.Database
