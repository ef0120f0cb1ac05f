import TxStore.Proofs.Database.Attempts
import TxStore.Proofs.Database.Settled
import TxStore.Proofs.Database.Snapshots
import TxStore.Proofs.Database.Solitary
import TxStore.Proofs.Database.Traceless

/-!
# What a commit reports

A commit ends with the causes for which its writes have failed, and nothing keeps it from ending. A
turn of an operation records at most one commit, that of its own transaction, and `Brings` says how:
the writes are applied in a turn of their own, or there are none and the commit ends at once. What
the operation has to tell besides is settled before it commits (`Carried`). Once a commit is
recorded, the operation is to tell its causes and has nothing else to do, and when it has told them
the transaction is over (`Settles`). With the record of the successful bodies this tells for every
run what is attempted, on which tables and in which order, and what is reported
(`reported_of_commit`).
-/

namespace TxStore

/-- The result with which an operation commits its transaction where it stands. -/
def Stand.committing? : Stand → Option Result
  | .draining .commit own | .applying _ own | .applied _ own => some own
  | .draining (.discard _) _ | .issued | .locking _ _ | .reading _ | .fetched _ _ | .finished _ =>
    none

/-- An operation that commits its transaction finishes it. -/
theorem Stand.closing_of_committing? {stand : Stand} {own : Result}
    (h : stand.committing? = some own) : stand.isClosing := by
  cases stand with
  | draining purpose result => rfl
  | applying plan result => rfl
  | applied errors result => rfl
  | issued | locking target w | reading target | fetched target row | finished result => cases h

/-- An operation that is at work does not commit. -/
theorem Stand.committing?_of_working {stand : Stand} (h : stand.isWorking) :
    stand.committing? = none := by
  cases stand with
  | issued | locking target w | reading target | fetched target row => rfl
  | draining purpose result | applying plan result | applied errors result | finished result =>
    cases h

/-- Whether `own` is what an operation that commits its transaction has to tell besides what comes
of the commit: nothing if it was called to commit, and else what its body has come to, by `ended`.
-/
def Operation.Bears (op : Operation) (ended : TaskId → Result → Prop) (i : TaskId) (own : Result) :
    Prop :=
  op.call = .commit ∧ own = .ok none ∨ op.opened ∧ ended i own

/-- What the caller of a commit is told that has `own` to tell besides the causes for which writes
have failed: just that if there are none, and else the causes after its own error, if that is one. A
single cause is told as it is. -/
def Result.report (own : Result) (causes : List Cause) : Result :=
  match own, causes with
  | own, [] => own
  | .ok _, [cause] => .error cause
  | .ok _, causes => .error (.joined (causes.map .one))
  | .error e, causes => .error (.joined (e.members ++ causes.map .one))

/-- Joining causes to a result comes to this. -/
theorem Result.join_causes (own : Result) (causes : List Cause) :
    own.join (causes.map .one) = own.report causes := by
  have hmembers : (causes.map Error.one).flatMap Error.members = causes.map .one := by
    induction causes with
    | nil => rfl
    | cons cause rest ih => exact congrArg (Error.one cause :: ·) ih
  cases own with
  | ok value =>
    unfold Result.join Error.join
    rw [hmembers]
    match causes with
    | [] => rfl
    | [cause] => rfl
    | cause :: other :: rest => rfl
  | error e =>
    unfold Result.join Error.join
    rw [hmembers]
    match causes with
    | [] => rfl
    | [cause] => rfl
    | cause :: other :: rest =>
      show Except.error (Error.joined ([e, _].flatMap Error.members)) = _
      rw [List.flatMap_cons, List.flatMap_singleton]
      rfl

namespace Database

variable {σ : Type} [Backend σ] {db mid db' : Database σ} {i j : TaskId} {op : Operation}
  {me : Lock.Holder} {t : TransactionId} {txn : Transaction} {stand : Stand}
  {writes : List WriteEntry} {ended : TaskId → Result → Prop} {own : Result} {c : ConnectionId}
  {action : Action σ}

/-! ## What a turn does to the commits -/

/-- What a turn of an operation does to the commits. -/
inductive Brings (ended : TaskId → Result → Prop) (i : TaskId) (op : Operation) (me : Lock.Holder)
    (db db' : Database σ) : Prop
  /-- It records none. If the operation commits its transaction, it still has the same to tell. -/
  | idle {stand : Stand} (runs : db'.Runs i { op with stand := stand } me)
      (commits : db'.commits = db.commits)
      (bears : ∀ own, stand.committing? = some own → op.Bears ended i own)
  /-- The operation commits its transaction, which has no writes, and ends it. -/
  | empty {own : Result} (bears : op.Bears ended i own)
      (runs : db'.Runs i { op with stand := .finished own } me)
      (commits : db'.commits = db.commits ++ [⟨me.txn, []⟩]) (store : db'.store = db.store)
      (retired : db'.Retired me.txn)
  /-- It applies the writes of its transaction. -/
  | applied {plan : List PlannedWrite} {own : Result} {report : Except String (List Cause)}
      (bears : op.Bears ended i own) (stand : op.stand = .applying plan own)
      (runs : db'.Runs i
        { op with stand := .applied ((causesOf report).map .one) own } me)
      (commits : db'.commits = db.commits ++ [⟨me.txn, plan⟩])
      (application : Application db.store plan db'.store report)

/-- It makes no difference what is done before to neither commits nor tables. -/
theorem Brings.of_eq (h : Brings ended i op me mid db') (hcommits : mid.commits = db.commits)
    (hstore : mid.store = db.store) : Brings ended i op me db db' := by
  cases h with
  | idle runs commits bears => exact .idle runs (commits.trans hcommits) bears
  | empty bears runs commits store retired =>
    exact .empty bears runs (hcommits ▸ commits) (store.trans hstore) retired
  | applied bears stand runs commits application =>
    exact .applied bears stand runs (hcommits ▸ commits) (hstore ▸ application)

/-- An operation may end. -/
theorem brings_finish (hruns : db.Runs i op me) (result : Result) :
    Brings ended i op me db (db.finish i result) :=
  .idle (hruns.setStand _) (commits_setStand ..) nofun

omit [Backend σ] in
/-- A commit that ends leaves its transaction over, and no other commit. -/
theorem endCommit_spec (hruns : db.Runs i op me) (hfound : db.directory.find? me.txn = some txn)
    (c : ConnectionId) (errors : List Error) (own : Result) :
    (db.endCommit i c me.txn errors own).Runs i
        { op with stand := .finished (own.join errors) } me ∧
      (db.endCommit i c me.txn errors own).commits = db.commits ∧
      (db.endCommit i c me.txn errors own).store = db.store ∧
      (db.endCommit i c me.txn errors own).Retired me.txn := by
  have hfound : (((db.releaseLocks me.txn).forgetLocks me.txn).separate c me.txn).directory.find?
      me.txn = some txn := (find?_separate ..).trans hfound
  unfold Database.endCommit Database.finish
  rw [retire_eq hfound]
  refine ⟨Runs.setStand ((runs_of_tasks ?_).mpr hruns) _, ?_, ?_, txn.finish, ?_, rfl⟩
  · rw [separate_eq]
    rfl
  · rw [commits_setStand, separate_eq]
    rfl
  · rw [store_setStand, separate_eq]
    rfl
  · rw [directory_setStand]
    exact (Directory.find?_set hfound _ me.txn).trans (if_pos rfl)

omit [Backend σ] in
/-- Putting a fresh transaction in the place of another one records no commit. -/
theorem commits_replace (db : Database σ) (c : ConnectionId) (t : TransactionId) :
    (db.replace c t).1.commits = db.commits := by
  unfold Database.replace
  split
  · split
    · rfl
    · dsimp only
      split <;> rfl
  · rfl

/-- A rollback or an abort may end. -/
theorem brings_endDiscard (hruns : db.Runs i op me) (c : ConnectionId) (restart : Bool)
    (result : Result) : Brings ended i op me db (db.endDiscard i c me.txn restart result) := by
  unfold Database.endDiscard
  dsimp only
  split
  · refine .idle (Runs.setStand ((runs_of_tasks ?_).mpr hruns) _) ?_ nofun
    · exact tasks_replace ..
    · exact (commits_setStand ..).trans (commits_replace ..)
  · rw [separate_eq]
    refine .idle (Runs.setStand ?_ _) ?_ nofun
    · exact hruns
    · exact commits_setStand ..

/-- A call may go on when no operation is in flight. -/
theorem brings_afterDrain (hruns : db.Runs i op me)
    (hfound : db.directory.find? me.txn = some txn) (c : ConnectionId) (purpose : Purpose)
    (hbears : purpose = .commit → op.Bears ended i own) :
    Brings ended i op me db (db.afterDrain i c me.txn purpose own) := by
  cases purpose with
  | discard restart => exact brings_endDiscard hruns c restart own
  | commit =>
    by_cases hentries : txn.log.entries = []
    · rw [afterDrain_commit_nil hfound hentries]
      have hrecorded : (db.recordCommit me.txn []).Runs i op me := hruns
      obtain ⟨hended, hcommits, hstore, hretired⟩ := endCommit_spec hrecorded hfound c [] own
      rw [Result.join_nil] at hended
      exact .empty (hbears rfl) hended hcommits hstore hretired
    · rw [afterDrain_commit hfound hentries]
      refine .idle (hruns.setStand _) (commits_setStand ..) fun own heq => ?_
      cases heq
      exact hbears rfl

/-- A call may wait until no operation is in flight. -/
theorem brings_drain (hruns : db.Runs i op me) (hfound : db.directory.find? me.txn = some txn)
    (c : ConnectionId) (purpose : Purpose) (hbears : purpose = .commit → op.Bears ended i own) :
    Brings ended i op me db (db.drain i c me.txn purpose own) := by
  unfold Database.drain
  rw [hfound]
  dsimp only
  split
  · exact brings_afterDrain hruns hfound c purpose hbears
  · refine .idle (Runs.setStand ?_ _) ?_ fun own heq => ?_
    · exact hruns
    · exact commits_setStand ..
    · cases purpose with
      | commit =>
        cases heq
        exact hbears rfl
      | discard restart => cases heq

omit [Backend σ] in
/-- Moving a transaction out of its active life moves no task, records no commit and does nothing to
the tables. -/
theorem turnTo_same {target : Phase} (h : db.turnTo t target = .ok mid) :
    mid.tasks = db.tasks ∧ mid.commits = db.commits ∧ mid.store = db.store := by
  obtain ⟨txn, -, -, rfl⟩ := turnTo_ok h
  exact ⟨rfl, rfl, rfl⟩

/-- A transaction may be committed. -/
theorem brings_commit {expected : Option TransactionId} (hruns : db.Runs i op me)
    (hmine : ∀ t, db.attached.get? c = some t → expected.all (· = t) → t = me.txn)
    (hbears : op.Bears ended i own) : Brings ended i op me db (db.commit i c expected own) := by
  unfold Database.commit
  split
  · exact brings_finish hruns _
  · rename_i t hattached
    split
    · rename_i hexpected
      obtain rfl := hmine t hattached hexpected
      cases hturn : db.turnTo me.txn .committing with
      | error e => exact brings_finish hruns _
      | ok turned =>
        obtain ⟨txn, hfound⟩ := find?_turnTo hturn
        obtain ⟨htasks, hcommits, hstore⟩ := turnTo_same hturn
        have hturned : turned.Runs i op me := (runs_of_tasks htasks).mpr hruns
        exact (brings_drain hturned hfound c .commit fun _ => hbears).of_eq hcommits hstore
    · exact brings_finish hruns _

/-- A transaction that moves on to abort may be discarded. -/
theorem brings_discard (hruns : db.Runs i op me) (hturn : db.turnTo me.txn .aborting = .ok mid)
    (c : ConnectionId) (restart : Bool) (result : Result) :
    Brings ended i op me db (mid.discard i c me.txn restart result) := by
  obtain ⟨txn, hfound⟩ := find?_turnTo hturn
  obtain ⟨htasks, hcommits, hstore⟩ := turnTo_same hturn
  have hreleased : (mid.releaseLocks me.txn).Runs i op me := (runs_of_tasks htasks).mpr hruns
  exact (brings_drain hreleased hfound c (.discard restart) nofun).of_eq hcommits hstore

/-- A connection may roll back. -/
theorem brings_rollback (hruns : db.Runs i op me)
    (hmine : ∀ t, db.attached.get? c = some t → t = me.txn) :
    Brings ended i op me db (db.rollback i c) := by
  unfold Database.rollback
  split
  · exact brings_finish hruns _
  · rename_i t hattached
    obtain rfl := hmine t hattached
    cases hturn : db.turnTo me.txn .aborting with
    | error e => exact brings_finish hruns _
    | ok turned => exact brings_discard hruns hturn c false _

/-- A transaction may be aborted. -/
theorem brings_abort (hruns : db.Runs i op me) (c : ConnectionId) (why : Lock.Refusal) :
    Brings ended i op me db (db.abort i c me.txn why) := by
  unfold Database.abort
  dsimp only
  split
  · cases hturn : db.turnTo me.txn .aborting with
    | error e => exact brings_finish hruns _
    | ok turned => exact brings_discard hruns hturn c _ _
  · exact brings_finish hruns _

omit [Backend σ] in
/-- Leaving a transaction records no commit and does nothing to the tables. -/
theorem recorded_leave (db : Database σ) (t : TransactionId) :
    (db.leave t).commits = db.commits ∧ (db.leave t).store = db.store := by
  unfold Database.leave
  split <;> exact ⟨rfl, rfl⟩

/-- A statement may end. -/
theorem brings_conclude {ending : Ending} (hruns : db.Runs i op me)
    (hended : ∀ own, ending.result? = some own → ended i own) :
    Brings ended i op me db (db.conclude i op me.txn ending) := by
  obtain ⟨hcommits, hstore⟩ := db.recorded_leave me.txn
  have hleft : (db.leave me.txn).Runs i op me := (runs_of_tasks (db.tasks_leave me.txn)).mpr hruns
  have hclose : ∀ own, ending.result? = some own → Brings ended i op me (db.leave me.txn)
      (if op.opened then (db.leave me.txn).commit i op.connection (some me.txn) own
        else (db.leave me.txn).finish i own) := by
    intro own hresult
    split
    · rename_i hopened
      exact brings_commit hleft (fun t _ hexpected => (of_decide_eq_true hexpected).symm)
        (.inr ⟨hopened, hended own hresult⟩)
    · exact brings_finish hleft own
  refine Brings.of_eq ?_ hcommits hstore
  cases ending with
  | done value => exact hclose _ rfl
  | failed e => exact hclose _ rfl
  | refused why =>
    cases why with
    | released => exact brings_finish hleft _
    | conflict => exact brings_abort hleft op.connection _
    | timeout => exact brings_abort hleft op.connection _
  | broken text => exact brings_finish hleft _

/-- The writes of a transaction may be applied. -/
theorem brings_apply {plan : List PlannedWrite} (hruns : db.Runs i op me)
    (hstand : op.stand = .applying plan own) (hbears : op.Bears ended i own)
    (hthere : ∀ w ∈ plan, ∀ ref, w.table = some ref → ref < db.store.size) :
    Brings ended i op me db (db.apply i me.txn plan own) := by
  unfold Database.apply
  dsimp only
  rw [setStand_eq]
  refine .applied hbears hstand ?_ rfl (application_applyPlan hthere)
  have hmoved := hruns.setStand (.applied ((causesOf (applyPlan db.store plan).2).map .one) own)
  rw [setStand_eq] at hmoved
  exact hmoved

/-- While an operation is at work, no commit is recorded and nothing is done to the tables. -/
theorem Moves.same_of_working {stand' : Stand} (hmoves : Moves i op me db stand writes mid stand')
    (hturn : db.InTurn i op me stand) (hworking : stand'.isWorking) :
    mid.commits = db.commits ∧ mid.store = db.store := by
  refine hmoves.keeps
    (P := fun mid stand => stand.isWorking → mid.commits = db.commits ∧ mid.store = db.store)
    (fun {before stand _ after stand'} move hturn hbefore hworking => ?_) hturn
    (fun _ => ⟨rfl, rfl⟩) hworking
  have hstand : stand.isWorking := by
    cases hidle : stand.isWorking with
    | true => rfl
    | false => exact absurd ((move.not_working hidle).symm.trans hworking) nofun
  obtain ⟨hcommits, hstore⟩ := hbefore hstand
  cases (move.effect hturn).carries with
  | idle plan commits store => exact ⟨commits.trans hcommits, store.trans hstore⟩
  | taken found before plan commits store => exact ⟨commits.trans hcommits, store.trans hstore⟩
  | applied before after commits store =>
    rw [Stand.plan?_of_working hstand] at before
    cases before

/-- Whether the body of an operation ends in an action, with a result that is up to it. -/
def Concludes (db : Database σ) (action : Action σ) (i : TaskId) (own : Result) : Prop :=
  action = .resume i ∧ ∃ op me ending, db.Runs i op me ∧ db.bodyEnding? op me = some ending ∧
    ending.result? = some own

omit [Backend σ] in
/-- Whether every operation that commits its transaction bears a result of its own. -/
def Carried (ended : TaskId → Result → Prop) (db : Database σ) : Prop :=
  ∀ i op me own, db.Runs i op me → op.stand.committing? = some own → op.Bears ended i own

/-- A task may be given a turn. -/
theorem brings_resume (h : db.Lifecycle) (hhoused : db.Housed) (hcarried : db.Carried ended)
    (hended : ∀ own, db.Concludes (.resume i) i own → ended i own) (hruns : db.Runs i op me) :
    Brings ended i op me db (db.resume i) := by
  by_cases hworking : op.stand.isWorking
  · -- At work, it commits only if its body ends, and then it tells what the body has come to.
    obtain ⟨s, hcall⟩ := Call.exists_statement (h.placed i op hruns.1 hworking)
    have hturn := h.inTurn hruns
    have hworks := works_resume hruns hcall hworking
    generalize hending : db.bodyEnding? op me = ending at hworks
    generalize db.resume i = next at hworks ⊢
    cases hworks with
    | @ends mid stand' ending moves working =>
      obtain ⟨hcommits, hstore⟩ := moves.same_of_working hturn working
      have hmid : mid.Runs i op me := (runs_of_tasks (moves.tasks hturn)).mpr hruns
      exact (brings_conclude hmid fun own hresult =>
        hended own ⟨rfl, op, me, ending, hruns, hending, hresult⟩).of_eq hcommits hstore
    | @goesOn mid stand' moves working waits =>
      obtain ⟨hcommits, -⟩ := moves.same_of_working hturn working
      obtain ⟨ready, heq⟩ := mid.putDown_eq i stand'
      refine .idle ((moves.runs_putDown_iff hturn).mpr (.inl ⟨rfl, rfl, rfl⟩)) ?_ fun own heq => ?_
      · rw [heq]
        exact (commits_setStand ..).trans hcommits
      · rw [Stand.committing?_of_working working] at heq
        cases heq
  · -- Otherwise its turn is a single step, which depends on where it stands.
    obtain ⟨txn, hfound, -⟩ := h.fits i op me hruns
    have hline : ({ db with ready := db.ready.erase i } : Database σ).Runs i op me := hruns
    rw [resume_eq hruns]
    unfold Database.resumeOperation
    cases hstand : op.stand with
    | issued | locking target w | reading target | fetched target row =>
      rw [hstand] at hworking
      exact absurd rfl hworking
    | draining purpose own =>
      refine (brings_drain hline hfound op.connection purpose fun hpurpose => ?_).of_eq rfl rfl
      exact hcarried i op me own hruns (by rw [hstand, hpurpose]; rfl)
    | applying plan own =>
      have hsnapshot : db.Snapshot me.txn plan :=
        .inr ⟨i, op, me, hruns, rfl, by rw [hstand]; rfl⟩
      have hbears := hcarried i op me own hruns (by rw [hstand]; rfl)
      exact (brings_apply hline hstand hbears (hhoused.planned _ _ hsnapshot)).of_eq rfl rfl
    | applied errors own =>
      obtain ⟨hover, hcommits, -⟩ := endCommit_spec hline hfound op.connection errors own
      exact .idle hover hcommits nofun
    | finished result =>
      have hsame : ({ op with stand := .finished result } : Operation) = op := by rw [← hstand]
      have hover := hline
      rw [← hsame] at hover
      exact .idle hover rfl nofun

/-- A call that finishes a transaction may be made. -/
theorem brings_submit {call : Call} (htwoPhase : db.TwoPhase) (hcall : call.isStatement = false)
    (hholder : db.attachedHolder c = some me) :
    Brings ended db.tasks.size ⟨c, call, some me, false, .issued⟩ me db (db.submit c call) := by
  have hruns : (db.issue c call).Runs db.tasks.size ⟨c, call, some me, false, .issued⟩ me := by
    rw [issue_eq hholder]
    exact ⟨Array.getElem?_push_size, rfl⟩
  have hmine : ∀ t, db.attached.get? c = some t → t = me.txn := fun t hattached =>
    Option.some.inj (hattached.symm.trans (htwoPhase.txn_attachedHolder hholder).1)
  have hrollback : Brings ended db.tasks.size ⟨c, call, some me, false, .issued⟩ me
      (db.issue c call) ((db.issue c call).rollback db.tasks.size c) := brings_rollback hruns hmine
  refine Brings.of_eq ?_ (rfl : (db.issue c call).commits = _) rfl
  cases call with
  | statement s => cases hcall
  | commit => exact brings_commit hruns (fun t hattached _ => hmine t hattached) (.inl ⟨rfl, rfl⟩)
  | rollback => exact hrollback
  | disconnect =>
    show Brings _ _ _ _ _ ((db.issue c .disconnect).disconnect db.tasks.size c)
    unfold Database.disconnect
    split
    · exact hrollback
    · exact brings_finish hruns _

/-- What the turn of an operation does to the commits that an action gives it. -/
theorem Begins.brings {first : Database σ} (hbegins : db.Begins i op me action first stand writes)
    (h : db.Lifecycle) (htwoPhase : db.TwoPhase) (hhoused : db.Housed)
    (hcarried : db.Carried ended) (hended : ∀ i own, db.Concludes action i own → ended i own) :
    Brings ended i op me db (db.perform action) := by
  cases hbegins with
  | resume runs => exact brings_resume h hhoused hcarried (hended i) runs
  | submit new made finishes holder result =>
    subst new made
    exact brings_submit htwoPhase finishes holder

/-- A turn begins with the other tasks as they are. -/
theorem Begins.tasks_of_ne {first : Database σ}
    (hbegins : db.Begins i op me action first stand writes) (hne : i ≠ j) :
    first.tasks[j]? = db.tasks[j]? := by
  cases hbegins with
  | resume runs => rfl
  | submit new made finishes holder result =>
    exact Array.getElem?_push.trans (if_neg fun heq => hne (new.trans heq.symm))

omit [Backend σ] in
/-- Nobody begins quietly to finish a transaction. -/
theorem Quiet.runs_of_closing (hquiet : db.Quiet db') (h : db.Lifecycle) (h' : db'.Lifecycle)
    (hruns : db'.Runs j op me) (hclosing : op.stand.isClosing) : db.Runs j op me := by
  rcases hquiet.added j op hruns.1 with hold | ⟨hnew, -⟩
  · exact ⟨hold, hruns.2⟩
  · -- The transaction was being finished before, and by an operation that was there.
    obtain ⟨txn', hfound', hfits⟩ := h'.fits j op me hruns
    have hphase' := hfits.closing hclosing
    rcases hquiet.fresh me.txn txn' hfound' with ⟨txn, hfound⟩ | ⟨hactive, -⟩
    · obtain ⟨found, hfound'', hphase, -⟩ := hquiet.kept me.txn txn hfound
      cases hfound'.symm.trans hfound''
      rw [hphase] at hphase'
      obtain ⟨k, op', me', hruns', hstand, htxn⟩ := h.closer me.txn txn hfound hphase'
      have hsame := h'.alone j k op op' me me' hruns
        ⟨hquiet.operations k op' hruns'.1, hruns'.2⟩ hclosing hstand htxn.symm
      have hlt : k < db.tasks.size := (Array.getElem?_eq_some_iff.mp hruns'.1).1
      exact absurd hlt (Nat.not_lt.mpr (hsame ▸ hnew))
    · rw [hactive] at hphase'
      cases hphase'

/-- The operations that commit bear results of their own after every action. -/
theorem Carried.perform (hcarried : db.Carried ended) (h : db.Lifecycle) (htwoPhase : db.TwoPhase)
    (hhoused : db.Housed) (hended : ∀ i own, db.Concludes action i own → ended i own) :
    (db.perform action).Carried ended := by
  intro j other you own hruns hstand
  have hquiet : db.Quiet (db.perform action) → other.Bears ended j own := fun hquiet =>
    hcarried j other you own (hquiet.runs_of_closing h (h.perform htwoPhase action) hruns
      (Stand.closing_of_committing? hstand)) hstand
  cases h.deed htwoPhase action with
  | tabular about quiet => exact hquiet quiet
  | quiet quiet store registry => exact hquiet quiet
  | @turn i op me first stand writes begins held leads =>
    have hbrings := begins.brings h htwoPhase hhoused hcarried hended
    -- Only the operation that has its turn may have moved.
    by_cases hij : i = j
    · subst hij
      cases hbrings with
      | idle runs commits bears =>
        obtain ⟨rfl, rfl⟩ := hruns.unique runs
        exact bears own hstand
      | empty bears runs commits store retired =>
        obtain ⟨rfl, rfl⟩ := hruns.unique runs
        cases hstand
      | applied bears stand runs commits application =>
        obtain ⟨rfl, rfl⟩ := hruns.unique runs
        cases hstand
        exact bears
    · refine hcarried j other you own ⟨?_, hruns.2⟩ hstand
      rw [← begins.tasks_of_ne hij, ← leads.tasks held hij]
      exact hruns.1

/-! ## Commits that are told of -/

omit [Backend σ] in
/-- Whether the operation that commits `t` has applied the writes with these causes for failures
and is to tell of them, or has done so and the transaction is over. -/
def Settles (ended : TaskId → Result → Prop) (db : Database σ) (t : TransactionId)
    (causes : List Cause) : Prop :=
  ∃ i op me own, db.Runs i op me ∧ me.txn = t ∧ op.Bears ended i own ∧
    (op.stand = .applied (causes.map .one) own ∨
      op.stand = .finished (own.report causes) ∧ db.Retired t)

/-- A commit is recorded in a turn of the operation that commits, which attempts its writes then. -/
theorem Lifecycle.recorded_perform {commit : Commit} (h : db.Lifecycle) (htwoPhase : db.TwoPhase)
    (hhoused : db.Housed) (hcarried : db.Carried ended)
    (hended : ∀ i own, db.Concludes action i own → ended i own) (hnew : commit ∉ db.commits)
    (hmem : commit ∈ (db.perform action).commits) :
    (db.perform action).commits = db.commits ++ [commit] ∧
      ∃ report, Application db.store commit.plan (db.perform action).store report ∧
        (db.perform action).Settles ended commit.txn (causesOf report) := by
  have hquiet : db.Quiet (db.perform action) → commit ∈ db.commits := fun hquiet =>
    hquiet.commits ▸ hmem
  cases h.deed htwoPhase action with
  | tabular about quiet => exact absurd (hquiet quiet) hnew
  | quiet quiet store registry => exact absurd (hquiet quiet) hnew
  | @turn i op me first stand writes begins held leads =>
    -- One commit is recorded at most, so it is this one.
    have hlast : ∀ {plan}, (db.perform action).commits = db.commits ++ [⟨me.txn, plan⟩] →
        commit = ⟨me.txn, plan⟩ := by
      intro plan hcommits
      rw [hcommits] at hmem
      exact List.mem_singleton.mp ((List.mem_append.mp hmem).resolve_left hnew)
    cases begins.brings h htwoPhase hhoused hcarried hended with
    | idle runs commits bears => exact absurd (commits ▸ hmem) hnew
    | @empty own bears runs commits store retired =>
      obtain rfl := hlast commits
      refine ⟨commits, .ok [], ?_, i, _, me, own, runs, rfl, bears, .inr ⟨rfl, retired⟩⟩
      rw [store]
      exact .whole .nil
    | @applied plan own report bears stand runs commits application =>
      obtain rfl := hlast commits
      exact ⟨commits, report, application, i, _, me, own, runs, rfl, bears, .inl rfl⟩

/-- An operation that has applied its writes tells of it in its next turn, and then its transaction
is over. -/
theorem Lifecycle.ended_resume {errors : List Error} (h : db.Lifecycle) (hruns : db.Runs i op me)
    (hstand : op.stand = .applied errors own) :
    (db.resume i).Runs i { op with stand := .finished (own.join errors) } me ∧
      (db.resume i).Retired me.txn := by
  obtain ⟨txn, hfound, -⟩ := h.fits i op me hruns
  have hline : ({ db with ready := db.ready.erase i } : Database σ).Runs i op me := hruns
  have hresume : db.resume i = ({ db with ready := db.ready.erase i } : Database σ).endCommit i
      op.connection me.txn errors own := by
    rw [resume_eq hruns]
    unfold Database.resumeOperation
    rw [hstand]
  rw [hresume]
  obtain ⟨hover, -, -, hretired⟩ := endCommit_spec hline hfound op.connection errors own
  exact ⟨hover, hretired⟩

/-- A commit that is told of stays so. -/
theorem Settles.perform {causes : List Cause} (hsettles : db.Settles ended t causes)
    (h : db.Lifecycle) (htwoPhase : db.TwoPhase) (action : Action σ) :
    (db.perform action).Settles ended t causes := by
  obtain ⟨i, op, me, own, hruns, rfl, hbears, hstand⟩ := hsettles
  by_cases hactor : db.actor? action = some i
  · obtain rfl := hruns.eq_resume hactor
    rcases hstand with hstand | ⟨hstand, hretired⟩
    · obtain ⟨hover, hretired⟩ := h.ended_resume hruns hstand
      rw [Result.join_causes] at hover
      exact ⟨i, _, me, own, hover, rfl, hbears, .inr ⟨rfl, hretired⟩⟩
    · have hsame : (db.resume i).Runs i op me := by
        rcases h.resume_cases hruns with ⟨heq, -⟩ | ⟨hgoes, -⟩
        · rw [heq]
          exact hruns
        · exact absurd hstand (hgoes _)
      exact ⟨i, op, me, own, hsame, rfl, hbears,
        .inr ⟨hstand, h.retired_perform htwoPhase hretired (.resume i)⟩⟩
  · exact ⟨i, op, me, own, h.runs_perform htwoPhase hruns hactor, rfl, hbears,
      hstand.imp id fun hover => ⟨hover.1, h.retired_perform htwoPhase hover.2 action⟩⟩

/-! ## Along a run -/

/-- The database after the first actions of a run. -/
def after (first : Database σ) (actions : List (Action σ)) (n : Nat) : Database σ :=
  (actions.take n).foldl perform first

section

variable {first : Database σ} {actions : List (Action σ)} {n m : Nat} {P : Database σ → Prop}

/-- One more action is performed. -/
theorem after_succ (h : actions[n]? = some action) :
    first.after actions (n + 1) = (first.after actions n).perform action := by
  unfold after
  rw [List.take_add_one, h, List.foldl_append]
  rfl

/-- There are no more actions. -/
theorem after_of_none (h : actions[n]? = none) :
    first.after actions (n + 1) = first.after actions n := by
  unfold after
  rw [List.take_add_one, h]
  exact congrArg (List.foldl perform first) (List.append_nil _)

/-- The whole run is performed. -/
theorem after_length : first.after actions actions.length = actions.foldl perform first := by
  unfold after
  rw [List.take_length]

/-- What every action of a run keeps stays. -/
theorem after_keeps (hle : m ≤ n) (hm : P (first.after actions m))
    (hstep : ∀ k action, actions[k]? = some action → P (first.after actions k) →
      P ((first.after actions k).perform action)) : P (first.after actions n) := by
  induction n, hle using Nat.le_induction with
  | base => exact hm
  | succ n _ ih =>
    cases hn : actions[n]? with
    | none => exact after_of_none hn ▸ ih
    | some action => exact after_succ hn ▸ hstep n action hn ih

/-- What comes to hold in a run comes to hold in one of its actions. -/
theorem exists_action (first : Database σ) (actions : List (Action σ)) (hnot : ¬ P first)
    (h : P (actions.foldl perform first)) :
    ∃ n action, actions[n]? = some action ∧ ¬ P (first.after actions n) ∧
      P ((first.after actions n).perform action) := by
  have hlast : P (first.after actions actions.length) := by
    rw [after_length]
    exact h
  obtain ⟨n, hn, hsucc⟩ := Nat.exists_not_and_succ_of_not_zero_of_exists
    (p := fun n => P (first.after actions n)) hnot ⟨actions.length, hlast⟩
  cases haction : actions[n]? with
  | none => exact absurd (after_of_none haction ▸ hsucc) hn
  | some action => exact ⟨n, action, haction, hn, after_succ haction ▸ hsucc⟩

/-- Whether the body of an operation ends in one of several actions, with a result that is up to it.
-/
def Concluded (first : Database σ) (actions : List (Action σ)) (i : TaskId) (own : Result) : Prop :=
  ∃ n action, actions[n]? = some action ∧ (first.after actions n).Concludes action i own

/-! ## Runs from a new database -/

variable {config : Config} {clock : Clock} {hasher : Hasher} {commit : Commit}
  {plan : List PlannedWrite}

/-- All that is passed in a run is reachable. -/
theorem reachable_after (began : new config clock hasher = first) (actions : List (Action σ))
    (n : Nat) : (first.after actions n).Reachable := by
  subst began
  exact reachable_performAll config clock hasher (actions.take n)

/-- In a run the operations that commit bear results of their own. -/
theorem carried_after (began : new config clock hasher = first) (actions : List (Action σ))
    (n : Nat) : (first.after actions n).Carried (first.Concluded actions) := by
  refine after_keeps (Nat.zero_le n) (fun i op me own hruns => ?_) fun k action hk hcarried => ?_
  · subst began
    cases hruns.1
  · have hreached := reachable_after began actions k
    exact hcarried.perform hreached.lifecycle hreached.twoPhase hreached.housed
      fun i own hconcludes => ⟨k, action, hk, hconcludes⟩

/-- The writes of a transaction are taken down in one action, with the tables registered then. -/
theorem exists_taken_after (began : new config clock hasher = first)
    (reached : actions.foldl perform first = db) (htaken : db.Snapshot t plan) :
    ∃ n, (∀ other, ¬ (first.after actions n).Snapshot t other) ∧
      (first.after actions (n + 1)).Snapshot t plan ∧
      plan = (first.after actions n).plan (plan.map PlannedWrite.entry) := by
  obtain ⟨n, action, haction, hbefore, hafter⟩ :=
    exists_action first actions (P := fun db => db.Snapshot t plan)
      (began ▸ not_snapshot_new config clock hasher) (reached ▸ htaken)
  have h := (reachable_after began actions n).lifecycle
  have htwoPhase := (reachable_after began actions n).twoPhase
  refine ⟨n, fun other hother => hbefore ?_, after_succ haction ▸ hafter,
    (h.snapshot_new htwoPhase hafter).resolve_left hbefore⟩
  -- Nothing else can have been taken down before, for that would still be so.
  have hsame := (h.perform htwoPhase action).snapshot_unique
    (h.snapshot_perform htwoPhase hother action) hafter
  exact hsame ▸ hother

/-- Once they are taken down they stay so. -/
theorem snapshot_after (began : new config clock hasher = first) (hle : m ≤ n)
    (htaken : (first.after actions m).Snapshot t plan) : (first.after actions n).Snapshot t plan :=
  after_keeps (P := fun db => db.Snapshot t plan) hle htaken fun k action _ hsnapshot =>
    (reachable_after began actions k).lifecycle.snapshot_perform
      (reachable_after began actions k).twoPhase hsnapshot action

/-- A commit is recorded in one action, which attempts its writes, and from then on it is told
of. -/
theorem exists_application (began : new config clock hasher = first)
    (reached : actions.foldl perform first = db) (hmem : commit ∈ db.commits) :
    ∃ n report, n < actions.length ∧
      (first.after actions (n + 1)).commits = (first.after actions n).commits ++ [commit] ∧
      Application (first.after actions n).store commit.plan (first.after actions (n + 1)).store
        report ∧
      db.Settles (first.Concluded actions) commit.txn (causesOf report) := by
  obtain ⟨n, action, haction, hnew, hrecorded⟩ :=
    exists_action first actions (P := fun db => commit ∈ db.commits)
      (by subst began; exact List.not_mem_nil) (reached ▸ hmem)
  have hreached := reachable_after began actions
  obtain ⟨hcommits, report, happlication, hsettles⟩ :=
    (hreached n).lifecycle.recorded_perform (hreached n).twoPhase (hreached n).housed
      (carried_after began actions n) (fun i own hconcludes => ⟨n, action, haction, hconcludes⟩)
      hnew hrecorded
  rw [← after_succ haction] at hcommits happlication hsettles
  have hlt : n < actions.length := (List.getElem?_eq_some_iff.mp haction).1
  refine ⟨n, report, hlt, hcommits, happlication, ?_⟩
  rw [← reached, ← after_length]
  exact after_keeps
    (P := fun db => db.Settles (first.Concluded actions) commit.txn (causesOf report))
    hlt hsettles fun k action _ hsettles =>
      hsettles.perform (hreached k).lifecycle (hreached k).twoPhase action

end

/-- A commit applies every write that it can and reports every failure. After any actions, whatever
the tables are: every transaction is applied once at most. Writes that have been taken down are in
line to be applied, and a commit that has applied them is in line to end. Of every commit that is
recorded, the writes were taken down in one action, with the tables registered then: the whole write
buffer, in the order of the tables and for each table in the order in which the bodies succeeded.
They were attempted in that action or a later one, each once and in this order (`Application`): on
the tables as they were and as the earlier attempts had left them, a write that has no table or is
refused by it changing nothing and keeping none from being attempted, up to the end or to the first
attempt that breaks off. The operation that commits tells these causes after what it has to tell
itself, or that it broke off; the transaction is over then, and as long as clients get their locks
through their connections nothing is left of it. -/
theorem reported_of_commit {config : Config} {clock : Clock} {hasher : Hasher}
    {first : Database σ} {actions : List (Action σ)} {past : List Success}
    (began : new config clock hasher = first) (reached : actions.foldl perform first = db)
    (counted : first.successes actions = past) :
    (db.commits.map Commit.txn).Nodup ∧
    (∀ i op me plan own, db.Runs i op me → op.stand = .applying plan own →
      i ∈ db.ready ∧ (db.resume i).commits = db.commits ++ [⟨me.txn, plan⟩]) ∧
    (∀ i op me errors own, db.Runs i op me → op.stand = .applied errors own →
      i ∈ db.ready ∧ (db.resume i).Runs i { op with stand := .finished (own.join errors) } me ∧
        (db.resume i).Retired me.txn) ∧
    ∀ commit ∈ db.commits, ∃ taken applied txn report,
      taken ≤ applied ∧ applied < actions.length ∧
      (∀ plan, ¬ (first.after actions taken).Snapshot commit.txn plan) ∧
      (first.after actions (taken + 1)).Snapshot commit.txn commit.plan ∧
      db.directory.find? commit.txn = some txn ∧
      commit.plan = (first.after actions taken).plan txn.log.entries ∧
      (txn.log.entries.Pairwise fun e e' => e.table.code ≤ e'.table.code) ∧
      (∀ table, (txn.log.entries.filter fun e => e.table = table) =
        (Success.entries hasher past commit.txn).filter fun e => e.table = table) ∧
      (first.after actions (applied + 1)).commits =
        (first.after actions applied).commits ++ [commit] ∧
      Application (first.after actions applied).store commit.plan
        (first.after actions (applied + 1)).store report ∧
      ∃ i op me own, db.Runs i op me ∧ me.txn = commit.txn ∧
        op.Bears (first.Concluded actions) i own ∧
        (op.stand = .applied ((causesOf report).map .one) own ∨
          op.stand = .finished (own.report (causesOf report)) ∧ txn.phase = .ready ∧
            ((∀ action ∈ actions, action.isBare = false) → db.Traceless commit.txn)) := by
  have hdb : db.Reachable := by
    rw [← reached, ← after_length]
    exact reachable_after began actions actions.length
  have h := hdb.lifecycle
  refine ⟨h.once, fun i op me plan own hruns hstand => ⟨?_, ?_⟩,
    fun i op me errors own hruns hstand => ⟨?_, h.ended_resume hruns hstand⟩,
    fun commit hmem => ?_⟩
  · have hstirs := hdb.attended.stirs i op me nofun hruns
    rw [hstand] at hstirs
    exact hstirs
  · rw [resume_eq hruns]
    unfold Database.resumeOperation
    rw [hstand]
    exact commits_setStand ..
  · have hstirs := hdb.attended.stirs i op me nofun hruns
    rw [hstand] at hstirs
    exact hstirs
  · have htaken : db.Snapshot commit.txn commit.plan := .inl hmem
    obtain ⟨txn, hfound, -, -, hentries⟩ := h.snapshot htaken
    obtain ⟨taken, hbefore, hafter, hplan⟩ := exists_taken_after began reached htaken
    obtain ⟨applied, report, hlt, hcommits, happlication, hsettles⟩ :=
      exists_application began reached hmem
    -- A recorded commit has had its writes taken down, and that happens only once.
    have hle : taken ≤ applied := by
      refine Nat.not_lt.mp fun hlater => hbefore commit.plan (snapshot_after began hlater (.inl ?_))
      rw [hcommits]
      exact List.mem_append_right _ List.mem_cons_self
    -- A committed transaction keeps its buffer, so it is still what the bodies have written.
    have hlogged : db.Logged hasher past := by
      subst began
      rw [← reached, ← counted]
      exact (logged_new config clock hasher).performAll (lifecycle_new config clock hasher)
        (twoPhase_new config clock hasher) actions
    obtain ⟨hascending, hfilter⟩ := hlogged.kept commit.txn txn hfound (by
      rw [h.fate?_of_commit hmem]
      exact nofun)
    obtain ⟨i, op, me, own, hruns, htxn, hbears, hstand⟩ := hsettles
    refine ⟨taken, applied, txn, report, hle, hlt, hbefore, hafter, hfound, hentries ▸ hplan,
      WriteBuffer.pairwise_entries hascending, hfilter, hcommits, happlication, i, op, me, own,
      hruns, htxn, hbears, hstand.imp id fun hover => ?_⟩
    obtain ⟨hstand, hretired⟩ := hover
    refine ⟨hstand, ?_, fun hcoordinated => ?_⟩
    · obtain ⟨txn', hfound', hready⟩ := hretired
      cases hfound.symm.trans hfound'
      exact hready
    · subst began
      have run : Run Coordinated (new config clock hasher) db :=
        reached ▸ Run.performAll .start (admits_of_not_bare hcoordinated)
      exact (run.tidy (tidy_new config clock hasher) (lifecycle_new config clock hasher)
        (twoPhase_new config clock hasher)).traceless hretired

omit [Backend σ] in
/-- A hasher for tables with names of one letter. -/
def byLetter : Hasher :=
  ⟨"Letters", fun name => if name = "t" then ⟨1⟩ else if name = "u" then ⟨2⟩ else ⟨3⟩⟩

omit [Backend σ] in
/-- Rows of three tables are written. Before the commit one table is replaced by one that takes
integers only, and another one is dropped. -/
def reopened (breaking : List (TableCall × Value)) : List (Action FaultyTable) :=
  [ .createTable ⟨⟨"t", .any, .any, ⟨[]⟩⟩, [], []⟩,
    .createTable ⟨⟨"u", .any, .any, ⟨[]⟩⟩, [], breaking⟩,
    .createTable ⟨⟨"v", .any, .any, ⟨[]⟩⟩, [], []⟩, .beginTransaction 0,
    .submit 0 (.statement (.put "u" (.integer 1) .null)),
    .submit 0 (.statement (.put "t" (.integer 1) (.bool true))), .resume 0, .resume 1,
    .submit 0 (.statement (.delete "t" (.integer 1))), .resume 2,
    .submit 0 (.statement (.put "v" (.integer 1) .null)), .resume 3, .dropTable "t",
    .createTable ⟨⟨"t", .any, .integer, ⟨[]⟩⟩, [], []⟩, .dropTable "v", .submit 0 .commit,
    .resume 4, .resume 4 ]

omit [Backend σ] in
/-- For instance, the put into the new table fails, and so there is nothing to delete there. The row
of the table that is still there is written nevertheless, unless it breaks off. -/
theorem reported_of_commit_reopened :
    ∃ whole broken : Database FaultyTable,
      (reopened []).foldl perform (new .standard default byLetter) = whole ∧
      (reopened [(.put, .integer 1)]).foldl perform (new .standard default byLetter) = broken ∧
      whole.result? 4 = some (.error (.joined
        [Cause.table (.typeMismatch .value .integer .bool), Cause.table (.keyNotFound (.integer 1)),
          Cause.tableNotFound (TableId.display ⟨3⟩)])) ∧
      broken.result? 4 = some (.error (Cause.taskFailed "put 1")) ∧
      (whole.store.map fun t => t.table.rows.entries) = #[[], [(.integer 1, .null)], [], []] ∧
      (broken.store.map fun t => t.table.rows.entries) = #[[], [], [], []] ∧
      whole.Traceless ⟨0⟩ ∧ broken.Traceless ⟨0⟩ := by
  have htraceless : ∀ breaking (db : Database FaultyTable),
      (reopened breaking).foldl perform (new .standard default byLetter) = db →
      (∀ action ∈ reopened breaking, action.isBare = false) → db.Applied ⟨0⟩ →
      (db.tasks.all fun task => task.result?.isSome) → db.Traceless ⟨0⟩ := by
    intro breaking db hrun hcoordinated happlied hover
    obtain ⟨commit, hmem, htxn⟩ := List.mem_map.mp happlied
    obtain ⟨-, -, -, hcommits⟩ := reported_of_commit rfl hrun rfl
    obtain ⟨_, _, _, _, -, -, -, -, -, -, -, -, -, -, i, op, me, own, hruns, -, -, hstand⟩ :=
      hcommits commit hmem
    have htold := Array.all_eq_true_iff_forall_mem.mp hover _ (Array.mem_of_getElem? hruns.1)
    rcases hstand with hstand | ⟨-, -, htraceless⟩
    · unfold Task.result? at htold
      dsimp only at htold
      rw [hstand] at htold
      cases htold
    · exact htxn ▸ htraceless hcoordinated
  exact ⟨_, _, rfl, rfl, by decide +kernel, by decide +kernel, by decide +kernel, by decide +kernel,
    htraceless [] _ rfl (by decide) (by decide +kernel) (by decide +kernel),
    htraceless [(.put, .integer 1)] _ rfl (by decide) (by decide +kernel) (by decide +kernel)⟩

end Database

end TxStore
