import TxStore.Proofs.Database.Roster

/-!
# What a turn leaves to others

An operation that has a turn works on its own transaction and its own connection. All other
transactions and all other tasks stay as they are, a connection loses its transaction only to the
operation that ends this transaction's life, and what has been said to a caller stays said.

Every action either gives an operation such a turn, and `Takes` says what holds when the turn
begins, or it is `Calm`: it leaves the locks alone and takes no connection away from its
transaction.
-/

namespace TxStore

/-- Whether an action may start a transaction on a connection. -/
def Action.opens {σ : Type} (c : ConnectionId) : Action σ → Prop
  | .beginTransaction d | .submit d (.statement _) => d = c
  | .connect | .createTable _ | .dropTable _ | .submit _ .commit | .submit _ .rollback
  | .submit _ .disconnect | .requestLock _ _ _ | .resume _ | .reach _ => False

namespace Database

variable {σ : Type} {db mid db' : Database σ} {i j : TaskId} {op other : Operation}
  {me you : Lock.Holder} {t u : TransactionId} {txn : Transaction} {stand stand' : Stand}
  {writes : List WriteEntry} {c : ConnectionId} {n : Lock.Ticket} {wake : Lock.Wake}

section

variable [Backend σ] {action : Action σ}

/-! ## Transactions and tasks -/

/-- A turn leaves every other transaction as it is. -/
theorem Leads.others (hleads : Leads i op me db stand writes db') (h : db.InTurn i op me stand)
    (hne : u ≠ me.txn) (hfound : db.directory.find? u = some txn) :
    db'.directory.find? u = some txn := by
  obtain ⟨mid, stand', hmoves, -, rfl⟩ := hleads
  obtain ⟨ready, heq⟩ := mid.putDown_eq i stand'
  have hmid := hmoves.keeps (P := fun mid _ => mid.directory.find? u = some txn)
    (fun hmove hturn hmid => (hmove.effect hturn).others u txn hne hmid) h hfound
  rw [heq]
  show (mid.setStand i stand').directory.find? u = some txn
  rw [directory_setStand]
  exact hmid

/-- A turn leaves every other task as it is. -/
theorem Leads.tasks (hleads : Leads i op me db stand writes db') (h : db.InTurn i op me stand)
    (hne : i ≠ j) : db'.tasks[j]? = db.tasks[j]? := by
  obtain ⟨mid, stand', hmoves, -, rfl⟩ := hleads
  obtain ⟨ready, heq⟩ := mid.putDown_eq i stand'
  have hmid := hmoves.keeps (P := fun mid _ => mid.tasks = db.tasks)
    (fun hmove hturn hmid => (hmove.effect hturn).tasks.trans hmid) h rfl
  rw [heq]
  show (mid.setStand i stand').tasks[j]? = db.tasks[j]?
  rw [tasks_setStand_of_ne hne, hmid]

/-- An operation in its turn leaves every other transaction as it is. -/
theorem Lifecycle.others_resume (h : db.Lifecycle) (hruns : db.Runs i op me) (hne : u ≠ me.txn)
    (hfound : db.directory.find? u = some txn) :
    (db.resume i).directory.find? u = some txn := by
  rcases h.resume_cases hruns with ⟨heq, -⟩ | ⟨-, hleads⟩
  · rw [heq]
    exact hfound
  · exact hleads.others (h.inTurn hruns) hne hfound

/-- An operation stands where it stood, unless the action gives it a turn. -/
theorem Lifecycle.runs_perform (h : db.Lifecycle) (htwoPhase : db.TwoPhase)
    (hruns : db.Runs j other you) (hother : db.actor? action ≠ some j) :
    (db.perform action).Runs j other you := by
  cases h.deed htwoPhase action with
  | tabular about quiet => exact ⟨quiet.operations j other hruns.1, hruns.2⟩
  | quiet quiet store registry => exact ⟨quiet.operations j other hruns.1, hruns.2⟩
  | turn begins held leads =>
    have hne : _ ≠ j := fun heq => hother (begins.actor.trans (congrArg some heq))
    refine ⟨(leads.tasks held hne).trans ?_, hruns.2⟩
    have hfirst := begins.quiet.operations j other hruns.1
    rwa [tasks_setStand_of_ne hne] at hfirst

/-- An operation stands where it stood after a turn of another task. -/
theorem Lifecycle.runs_resume (h : db.Lifecycle) (htwoPhase : db.TwoPhase)
    (hruns : db.Runs j other you) (hne : j ≠ i) : (db.resume i).Runs j other you := by
  show (db.perform (.resume i)).Runs j other you
  exact h.runs_perform htwoPhase hruns fun heq => hne (Option.some.inj heq).symm

omit [Backend σ] in
/-- A task that is there has a turn only when it is resumed. -/
theorem Runs.eq_resume (h : db.Runs i op me)
    (hactor : db.actor? action = some i) : action = .resume i := by
  cases action with
  | submit c call =>
    have hlt : i < db.tasks.size := (Array.getElem?_eq_some_iff.mp h.1).1
    cases hactor
    exact absurd hlt (Nat.lt_irrefl _)
  | resume j =>
    cases hactor
    rfl
  | connect | createTable table | dropTable name | beginTransaction c | requestLock mode holder key
  | reach instant => cases hactor

omit [Backend σ] in
/-- An operation that runs may move to where it stands. -/
theorem Runs.setStand (h : db.Runs i op me) (stand : Stand) :
    (db.setStand i stand).Runs i { op with stand := stand } me :=
  (runs_setStand_iff h).mpr (.inl ⟨rfl, rfl, rfl⟩)

/-- An operation that has had its turn is where its last move has led it. -/
theorem Leads.runs (hleads : Leads i op me db stand writes db') (h : db.InTurn i op me stand) :
    ∃ stand', db'.Runs i { op with stand := stand' } me := by
  obtain ⟨mid, stand', hmoves, -, rfl⟩ := hleads
  obtain ⟨ready, heq⟩ := mid.putDown_eq i stand'
  refine ⟨stand', ?_⟩
  rw [heq]
  exact (hmoves.inTurn h).runs.setStand stand'

/-- An operation goes on for its transaction, wherever it stands. -/
theorem Lifecycle.stays_perform (h : db.Lifecycle) (htwoPhase : db.TwoPhase)
    (hruns : db.Runs j op me) (action : Action σ) :
    ∃ stand, (db.perform action).Runs j { op with stand := stand } me := by
  by_cases hactor : db.actor? action = some j
  · obtain rfl := hruns.eq_resume hactor
    rcases h.resume_cases hruns with ⟨heq, -⟩ | ⟨-, hleads⟩
    · refine ⟨op.stand, ?_⟩
      show (db.resume j).Runs j op me
      rw [heq]
      exact hruns
    · exact hleads.runs (h.inTurn hruns)
  · exact ⟨op.stand, h.runs_perform htwoPhase hruns hactor⟩

/-- So it does along a run. -/
theorem Regular.stays_run {clock : Clock} {last : Database σ}
    (run : Run Coordinated db last) (h : db.Regular clock) (hruns : db.Runs j op me) :
    ∃ stand, last.Runs j { op with stand := stand } me := by
  induction run with
  | start => exact ⟨op.stand, hruns⟩
  | perform further hcoordinated ih =>
    obtain ⟨stand, hlast⟩ := ih
    have hregular := further.regular h
    exact hregular.lifecycle.stays_perform hregular.twoPhase hlast _

/-! ## What an action comes to -/

/-- A change that gives no operation a turn. -/
structure Calm (db : Database σ) (action : Action σ) (db' : Database σ) : Prop where
  /-- Transactions, operations and commits are as they were. -/
  quiet : db.Quiet db'
  /-- So are the locks. -/
  locks : db'.locks = db.locks
  /-- A connection may be attached to a transaction that is started. -/
  attached : ∀ c, db'.attached.get? c = db.attached.get? c ∨
    db.attached.get? c = none ∧ action.opens c

/-- What holds of a database when an operation begins its turn, held at `stand`. -/
structure Takes (db : Database σ) (i : TaskId) (op : Operation) (me : Lock.Holder)
    (action : Action σ) (first : Database σ) (stand : Stand) (writes : List WriteEntry) : Prop where
  /-- The turn begins. -/
  begins : db.Begins i op me action first stand writes
  /-- The records agree. -/
  inTurn : first.InTurn i op me stand
  /-- The others are attended to. -/
  attended : first.Attended (some i)
  /-- The operation knows of its request. -/
  grasps : first.Grasps i me stand
  /-- The locks know the transactions. -/
  acquainted : first.Acquainted

omit [Backend σ] in
/-- A change that touches nothing but the tables, the line and the time is calm. -/
theorem Calm.of_eq (hdirectory : db'.directory = db.directory) (hcommits : db'.commits = db.commits)
    (htasks : db'.tasks = db.tasks) (hlocks : db'.locks = db.locks)
    (hattached : db'.attached = db.attached) : db.Calm action db' where
  quiet := .of_eq hdirectory hcommits htasks
  locks := hlocks
  attached _ := .inl (congrArg (Dict.get? · _) hattached)

omit [Backend σ] in
/-- Starting a transaction attaches a connection that has none. -/
theorem Lifecycle.attached_start (h : db.Lifecycle) (c : ConnectionId) (origin : Origin)
    (d : ConnectionId) : (db.start c origin).2.attached.get? d = db.attached.get? d ∨
      db.attached.get? d = none ∧ c = d := by
  rcases db.start_cases c origin with hcurrent | ⟨e, heq⟩
  · rw [start_eq hcurrent]
    by_cases hd : c = d
    · exact .inr ⟨hd ▸ (h.attached c).trans hcurrent, hd⟩
    · exact .inl ((Dict.get?_insert ..).trans (if_neg hd))
  · rw [heq]
    exact .inl rfl

omit [Backend σ] in
/-- So does attaching a connection. -/
theorem Lifecycle.attached_attach (h : db.Lifecycle) (c d : ConnectionId) :
    (db.attach c).2.attached.get? d = db.attached.get? d ∨
      db.attached.get? d = none ∧ c = d := by
  rcases db.attach_cases c with heq | heq
  · rw [heq]
    exact .inl rfl
  · rw [heq]
    exact h.attached_start c .implicit d

omit [Backend σ] in
/-- A statement is issued calmly. -/
theorem Lifecycle.calm_statement (h : db.Lifecycle) (htwoPhase : db.TwoPhase) (c : ConnectionId)
    (s : Statement) : db.Calm (.submit c (.statement s)) (db.submit c (.statement s)) := by
  have hsame : (db.submit c (.statement s)).locks = (db.attach c).2.locks ∧
      (db.submit c (.statement s)).attached = (db.attach c).2.attached := by
    rcases db.submit_statement_cases c s with ⟨e, heq⟩ | ⟨t, opened, txn, -, -, -, heq⟩
    · rw [heq]
      exact ⟨rfl, rfl⟩
    · rw [heq]
      exact ⟨rfl, rfl⟩
  exact ⟨.statement htwoPhase c s, hsame.1.trans (db.locks_attach c), fun d =>
    hsame.2 ▸ h.attached_attach c d⟩

omit [Backend σ] in
/-- A transaction is begun calmly. -/
theorem Lifecycle.calm_beginTransaction (h : db.Lifecycle) (c : ConnectionId) :
    db.Calm (.beginTransaction c) (db.beginTransaction c).2 := by
  rcases db.beginTransaction_cases c with heq | heq
  · rw [heq]
    exact .of_eq rfl rfl rfl rfl rfl
  · rw [heq]
    exact ⟨.start db c .explicit, db.locks_start c .explicit, h.attached_start c .explicit⟩

/-- Every action of clients who get their locks through their connections is calm, or it gives an
operation a turn. -/
theorem Regular.perform_cases {clock : Clock} (h : db.Regular clock)
    (hcoordinated : db.Coordinated action) : db.Calm action (db.perform action) ∨
      ∃ i op me first stand writes, db.Takes i op me action first stand writes ∧
        Leads i op me first stand writes (db.perform action) := by
  cases action with
  | connect => exact .inl (.of_eq rfl rfl rfl rfl rfl)
  | createTable table =>
    obtain ⟨store, registry, heq⟩ := db.exists_createTable table
    refine .inl ?_
    show db.Calm _ (db.createTable table).2
    rw [heq]
    exact .of_eq rfl rfl rfl rfl rfl
  | dropTable name =>
    obtain ⟨registry, heq⟩ := db.exists_dropTable name
    refine .inl ?_
    show db.Calm _ (db.dropTable name).2
    rw [heq]
    exact .of_eq rfl rfl rfl rfl rfl
  | beginTransaction c => exact .inl (h.lifecycle.calm_beginTransaction c)
  | submit c call =>
    cases hcall : call.isStatement with
    | true =>
      obtain ⟨s, rfl⟩ := Call.exists_statement hcall
      exact .inl (h.lifecycle.calm_statement h.twoPhase c s)
    | false =>
      rcases h.lifecycle.submit_cases h.twoPhase hcall c with
        ⟨-, result, heq⟩ | ⟨me, hholder, hknown, hleads⟩
      · refine .inl ?_
        show db.Calm _ (db.submit c call)
        rw [heq]
        refine ⟨.push _ fun op hop => ?_, rfl, fun _ => .inl rfl⟩
        cases hop
        exact ⟨rfl, rfl, nofun⟩
      · have hissue := issue_eq hholder call
        -- A commit, a rollback or a disconnect has its first turn when it is called.
        refine .inr ⟨_, _, me, _, _, _, ⟨.submit rfl rfl hcall hholder (.ok none), ?_, ?_, trivial,
          h.acquainted.issue h.twoPhase c call⟩, hleads (.ok none)⟩
        · rw [hissue]
          exact h.lifecycle.take _ rfl hknown _
        · rw [hissue]
          exact h.attended.push _ rfl fun op hop hopened => by cases hop; cases hopened
  | requestLock mode holder key => cases hcoordinated
  | resume i =>
    -- Taking a task out of the line is calm; a bare request cannot be there, since all locks are
    -- asked for through connections.
    have hidle : db.resume i = { db with ready := db.ready.erase i } →
        db.Calm (.resume i) (db.resume i) := fun heq => heq ▸ .of_eq rfl rfl rfl rfl rfl
    rcases db.resume_cases i with ⟨op, me, hruns⟩ | ⟨r, hr⟩ | ⟨-, heq⟩
    · rcases h.lifecycle.resume_cases hruns with ⟨heq, -⟩ | ⟨-, hleads⟩
      · exact .inl (hidle heq)
      · exact .inr ⟨i, op, me, _, _, _, ⟨.resume hruns, h.lifecycle.inTurn hruns,
          h.attended.erase i, h.attended.grasps hruns,
          h.acquainted.of_eq (List.prefix_refl _) rfl rfl⟩, hleads⟩
    · exact absurd hr (h.tidy.coordinated i r)
    · exact .inl (hidle heq)
  | reach instant => exact .inl (.of_eq rfl rfl rfl rfl rfl)

/-! ## What an action leaves -/

/-- A turn begins with the locks, the transactions, the attachments and the commits as they are. -/
theorem Takes.same {first : Database σ} (h : db.Takes i op me action first stand writes) :
    first.locks = db.locks ∧ first.directory = db.directory ∧ first.attached = db.attached ∧
      first.commits = db.commits := by
  cases h.begins with
  | resume runs => exact ⟨rfl, rfl, rfl, rfl⟩
  | submit new made finishes holder result => exact ⟨rfl, rfl, rfl, rfl⟩

omit [Backend σ] in
/-- What has been said to callers stays said in a move. -/
theorem Contends.resolved {m : Lock.Manager} (hcontends : Contends op me db stand m)
    (h : db.locks.Tallied) (hconsistent : db.locks.Consistent) :
    db.locks.resolved <+: m.resolved := by
  cases hcontends with
  | idle => exact List.prefix_refl _
  | ask call aims begins => exact (h.proceeds_acquire hconsistent _ _ _ _).follows.told
  | look waits => exact (h.proceeds_poll hconsistent _ _).follows.told
  | release =>
    have hproceeds : db.locks.Proceeds (db.locks.release me.txn) fun _ => False :=
      h.proceeds_release hconsistent _
    exact hproceeds.follows.told
  | forget ends =>
    have hproceeds : db.locks.Proceeds (db.locks.forget me.txn) fun _ => False :=
      h.proceeds_forget hconsistent _
    exact hproceeds.follows.told

/-- So it does in a turn. -/
theorem Leads.resolved (hleads : Leads i op me db stand writes db') (hturn : db.InTurn i op me stand)
    (h : db.Attended (some i)) (hgrasps : db.Grasps i me stand) :
    db.locks.resolved <+: db'.locks.resolved := by
  obtain ⟨mid, stand', hmoves, -, rfl⟩ := hleads
  obtain ⟨ready, heq⟩ := mid.putDown_eq i stand'
  obtain ⟨-, -, hmid⟩ := hmoves.keeps
    (P := fun mid stand => mid.Attended (some i) ∧ mid.Grasps i me stand ∧
      db.locks.resolved <+: mid.locks.resolved)
    (fun move hturn hmid =>
      have hkeeps := move.attended hturn hmid.1 hmid.2.1
      ⟨hkeeps.1, hkeeps.2,
        hmid.2.2.trans (move.contends.resolved hmid.1.tallied hmid.1.consistent)⟩)
    hturn ⟨h, hgrasps, List.prefix_refl _⟩
  rw [heq]
  show db.locks.resolved <+: (mid.setStand i stand').locks.resolved
  rw [setStand_eq]
  exact hmid

/-- And in every action. -/
theorem Regular.resolved_perform {clock : Clock} (h : db.Regular clock)
    (hcoordinated : db.Coordinated action) :
    db.locks.resolved <+: (db.perform action).locks.resolved := by
  rcases h.perform_cases hcoordinated with
    hcalm | ⟨i, op, me, first, stand, writes, htakes, hleads⟩
  · exact hcalm.locks ▸ List.prefix_refl _
  · rw [← htakes.same.1]
    exact hleads.resolved htakes.inTurn htakes.attended htakes.grasps

/-- A connection is attached as it was after a move, unless its transaction ends its life. -/
theorem Move.attached (hmove : Move i op me db stand writes db' stand')
    (hkept : op.connection = c → db.attached.get? c = some me.txn → ¬ db.Ends me.txn stand) :
    db'.attached.get? c = db.attached.get? c := by
  -- Attachments change in two moves only, a separation and a replacement, and both end a life.
  cases hmove with
  | ask call aims asked => rfl
  | look call looked => rfl
  | read call working aims => rfl
  | fetch call working aims row => rfl
  | buffer call working target write => rfl
  | leave call working result =>
    unfold Database.leave
    split <;> rfl
  | tell idle result => rfl
  | close idle own attached turned result =>
    obtain ⟨txn, -, -, rfl⟩ := turnTo_ok turned
    rfl
  | discard idle attached turned restart result =>
    obtain ⟨txn, -, -, rfl⟩ := turnTo_ok turned
    rfl
  | park found busy => rfl
  | snapshot found idle => rfl
  | apply errors => rfl
  | release => rfl
  | forget ends => rfl
  | separate ends =>
    rw [get?_attached_separate]
    refine if_neg fun ⟨hc, hattached⟩ => hkept hc (hc ▸ hattached) ends
  | replace ends =>
    unfold Database.replace
    split
    · rename_i hattached
      have hne : op.connection ≠ c := fun hc => hkept hc (hc ▸ hattached) ends
      split
      · rfl
      · dsimp only
        split
        · rfl
        · exact (Dict.get?_insert ..).trans (if_neg hne)
    · rfl
  | retire ends result => rfl

/-- A connection is attached as it was after a turn of an operation on another one. -/
theorem Leads.attached_of_ne (hleads : Leads i op me db stand writes db')
    (h : db.InTurn i op me stand) (hne : op.connection ≠ c) :
    db'.attached.get? c = db.attached.get? c := by
  obtain ⟨mid, stand', hmoves, -, rfl⟩ := hleads
  obtain ⟨ready, heq⟩ := mid.putDown_eq i stand'
  have hmid := hmoves.keeps (P := fun mid _ => mid.attached.get? c = db.attached.get? c)
    (fun move _ hmid => (move.attached fun hc => absurd hc hne).trans hmid) h rfl
  rw [heq]
  show (mid.setStand i stand').attached.get? c = _
  rw [attached_setStand]
  exact hmid

/-- An operation that does not finish its transaction does not begin to, once the fate of this is
decided. -/
theorem Move.not_closing (hmove : Move i op me db stand writes db' stand')
    (hfate : db.fate? me.txn ≠ none) (h : stand.isClosing = false) : stand'.isClosing = false := by
  -- Turning to a closing phase is refused once the phase is not active.
  have hturned : ∀ {target : Phase} {db' : Database σ}, db.turnTo me.txn target = .ok db' →
      False := by
    intro target db' hok
    obtain ⟨txn, hfound, hactive, -⟩ := turnTo_ok hok
    rw [fate?_of_found hfound, hactive] at hfate
    exact hfate rfl
  cases hmove with
  | ask call aims asked =>
    rename_i turn
    cases turn.2 with
    | answered answer => exact h
    | waiting w => rfl
  | look call looked =>
    rename_i turn
    cases turn.2 with
    | answered answer => exact h
    | waiting w => rfl
  | read call working aims => rfl
  | fetch call working aims row => rfl
  | buffer call working target write => exact h
  | leave call working result => rfl
  | tell idle result => rfl
  | close idle own attached turned result => exact (hturned turned).elim
  | discard idle attached turned restart result => exact (hturned turned).elim
  | park found busy => cases h
  | snapshot found idle => cases h
  | apply errors => cases h
  | release => cases h
  | forget ends => exact h
  | separate ends => exact h
  | replace ends => cases h
  | retire ends result => rfl

/-- A connection keeps a transaction of which the fate is decided in a turn of an operation that
does not finish this transaction. -/
theorem Leads.attached_of_decided (hleads : Leads i op me db stand writes db')
    (h : db.InTurn i op me stand) {f : Fate} (hfate : db.fate? t = some f)
    (hother : me.txn = t → stand.isClosing = false) (hattached : db.attached.get? c = some t) :
    db'.attached.get? c = some t := by
  obtain ⟨mid, stand', hmoves, -, rfl⟩ := hleads
  obtain ⟨ready, heq⟩ := mid.putDown_eq i stand'
  obtain ⟨hmid, -⟩ := hmoves.keeps
    (P := fun mid stand => mid.attached.get? c = some t ∧ mid.fate? t = some f ∧
      (me.txn = t → stand.isClosing = false))
    (fun {mid stand _ mid' stand'} move hturn ⟨hattached, hfate, hother⟩ => by
      refine ⟨(move.attached fun _ hmine hends => ?_).trans hattached,
        (move.effect hturn).fate hturn hfate, fun hmine => move.not_closing ?_ (hother hmine)⟩
      · have hstand := hother (Option.some.inj (hmine.symm.trans hattached))
        cases stand with
        | applied errors result => cases hstand
        | draining purpose result => cases hstand
        | issued | locking target w | reading target | fetched target row | applying plan result
        | finished result => exact hends
      · rw [hmine, hfate]
        exact nofun)
    h ⟨hattached, hfate, hother⟩
  rw [heq]
  show (mid.setStand i stand').attached.get? c = _
  rw [attached_setStand]
  exact hmid

/-- So it does in every action that gives no operation a turn that finishes this transaction. -/
theorem Regular.attached_of_decided {clock : Clock} (h : db.Regular clock)
    (hcoordinated : db.Coordinated action) {f : Fate} (hfate : db.fate? t = some f)
    (hother : ∀ j op me, db.actor? action = some j → db.Runs j op me → me.txn = t →
      op.stand.isClosing = false) (hattached : db.attached.get? c = some t) :
    (db.perform action).attached.get? c = some t := by
  rcases h.perform_cases hcoordinated with
    hcalm | ⟨i, op, me, first, stand, writes, htakes, hleads⟩
  · rcases hcalm.attached c with heq | ⟨hdetached, -⟩
    · exact heq.trans hattached
    · rw [hattached] at hdetached
      cases hdetached
  · obtain ⟨-, hdirectory, hsame, hcommits⟩ := htakes.same
    refine hleads.attached_of_decided htakes.inTurn
      ((fate?_of_eq hdirectory hcommits t).trans hfate) (fun hmine => ?_) (hsame ▸ hattached)
    cases htakes.begins with
    | resume runs => exact hother i op me rfl runs hmine
    | submit new made finishes holder result => rfl

end

end Database

end TxStore
