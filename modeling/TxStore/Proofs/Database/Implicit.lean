import TxStore.Proofs.Database.Operations
import TxStore.Proofs.Database.Snapshots
import TxStore.Proofs.Database.Traceless
import TxStore.Table.Faulty

/-!
# Implicit transactions end with their call

A statement on a connection without a transaction has one made for it, and finishes it when it
ends: with a commit if its body has an end, whether a good one or an error, and with an abort if it
does not get its lock. The body may break off, too, and it is then nobody's turn to finish the
transaction. A row that breaks off when it is read is told to the body as an error. But a check that
breaks off takes the body with it: the caller is told so, and the connection stays attached to a
transaction that it never began (`Database.ended_or_stranded`).

With one call at a time on each connection nobody else can be about to finish the transaction when
the call ends, since such an operation would be a second one on the connection. So it is enough that
the transaction has left its active life by then.
-/

namespace TxStore

/-- A transaction that is not being finished is active still, or over. -/
theorem Phase.active_or_ready {phase : Phase} (h : phase.isClosing = false) :
    phase = .active ∨ phase = .ready := by
  cases phase with
  | active => exact .inl rfl
  | committing => cases h
  | aborting => cases h
  | ready => exact .inr rfl

namespace Operation

variable {op : Operation}

/-- An operation is not over while it executes its statement. -/
theorem not_over_of_working (h : op.stand.isWorking) : ¬ op.IsOver := by
  rintro ⟨result, hover⟩
  rw [hover] at h
  cases h

/-- Nor is it over while it finishes its transaction. -/
theorem not_over_of_closing (h : op.stand.isClosing) : ¬ op.IsOver := by
  rintro ⟨result, hover⟩
  rw [hover] at h
  cases h

/-- Otherwise it is over. -/
theorem working_or_closing (hopen : ¬ op.IsOver) : op.stand.isWorking ∨ op.stand.isClosing := by
  cases hstand : op.stand with
  | issued => exact .inl rfl
  | locking target w => exact .inl rfl
  | reading target => exact .inl rfl
  | fetched target row => exact .inl rfl
  | draining purpose result => exact .inr rfl
  | applying plan result => exact .inr rfl
  | applied errors result => exact .inr rfl
  | finished result => exact absurd ⟨result, hstand⟩ hopen

end Operation

namespace Database

variable {σ : Type} {db mid db' : Database σ} {i j : TaskId} {op op' : Operation}
  {me : Lock.Holder} {t : TransactionId} {txn : Transaction} {stand stand' : Stand}
  {c : ConnectionId} {writes : List WriteEntry} {result : Result}

/-- What clients do who get their locks through their connections and make one call at a time on
each of these. -/
def OneAtATime (db : Database σ) : Action σ → Prop
  | .requestLock _ _ _ => False
  | .beginTransaction c | .submit c _ => ∀ p ∈ db.callsOn c, p.2.IsOver
  | .connect | .createTable _ | .dropTable _ | .resume _ | .reach _ => True

/-- It can be found out from the calls on the connection. -/
instance (db : Database σ) : (action : Action σ) → Decidable (db.OneAtATime action)
  | .requestLock _ _ _ => inferInstanceAs (Decidable False)
  | .beginTransaction c => inferInstanceAs (Decidable (∀ p ∈ db.callsOn c, p.2.IsOver))
  | .submit c _ => inferInstanceAs (Decidable (∀ p ∈ db.callsOn c, p.2.IsOver))
  | .connect | .createTable _ | .dropTable _ | .resume _ | .reach _ =>
    inferInstanceAs (Decidable True)

/-- They get their locks through their connections. -/
theorem OneAtATime.coordinated {action : Action σ} (h : db.OneAtATime action) :
    db.Coordinated action := by
  cases action with
  | requestLock mode holder key => cases h
  | connect => rfl
  | createTable table => rfl
  | dropTable name => rfl
  | beginTransaction c => rfl
  | submit c call => rfl
  | resume i => rfl
  | reach instant => rfl

/-- The text with which the check of its row breaks off in the next turn of an operation, if it
does. -/
def breakText? [Backend σ] (db : Database σ) (op : Operation) : Option String :=
  match op.stand, op.call with
  | .issued, .statement s =>
    match db.registry.lookUp s.table with
    | .error _ => none
    | .ok (_, entry) =>
      match db.store[entry.table]? with
      | none => none
      | some table =>
        match Backend.validate table s.key s.value? with
        | .broken text => some text
        | .done () | .failed _ => none
  | _, _ => none

/-- Whether the check of its row breaks off in the next turn of an operation. -/
def breaksOff [Backend σ] (db : Database σ) (op : Operation) : Bool :=
  (db.breakText? op).isSome

/-- What clients do who make one call at a time, as long as the check of the row of call `i` does
not break off. -/
def Sparing [Backend σ] (i : TaskId) (db : Database σ) (action : Action σ) : Prop :=
  db.OneAtATime action ∧
    (db.actor? action = some i → (db.tasks[i]?.bind Task.operation?).any db.breaksOff = false)

/-- It can be found out from the operation that has its turn. -/
instance [Backend σ] (i : TaskId) (db : Database σ) (action : Action σ) :
    Decidable (db.Sparing i action) :=
  inferInstanceAs (Decidable (_ ∧ _))

/-- What holds if clients make one call at a time. -/
structure Unhurried (db : Database σ) : Prop where
  /-- The records of every transaction's life agree. -/
  lifecycle : db.Lifecycle
  /-- The locks cover the writes. -/
  twoPhase : db.TwoPhase
  /-- Every transaction is known only where its phase has it. -/
  tidy : db.Tidy
  /-- At most one call of each connection is not over. -/
  single : ∀ (i j : TaskId) (op op' : Operation), db.tasks[i]? = some (.operation op) →
    db.tasks[j]? = some (.operation op') → op.connection = op'.connection → ¬ op.IsOver →
    ¬ op'.IsOver → i = j

/-- Whether at most one call of a connection is not over. -/
def Sequential (db : Database σ) (c : ConnectionId) : Prop :=
  ∀ (i j : TaskId) (op op' : Operation), db.tasks[i]? = some (.operation op) →
    db.tasks[j]? = some (.operation op') → op.connection = c → op'.connection = c →
    ¬ op.IsOver → ¬ op'.IsOver → i = j

/-- Where an operation that is there after an action comes from. -/
inductive Comes (db : Database σ) (action : Action σ) (j : TaskId) (op : Operation) : Prop where
  /-- It was there. -/
  | same (before : db.tasks[j]? = some (.operation op))
  /-- It has had a turn. -/
  | moved {old : Operation} {stand : Stand} (turn : action = .resume j)
      (before : db.tasks[j]? = some (.operation old)) (unfinished : ¬ old.IsOver)
      (now : op = { old with stand := stand })
  /-- It has been made. If a transaction was made for it, it is not over. -/
  | made (submitted : action = .submit op.connection op.call)
      (last : j = db.tasks.size) (opened : op.opened → ¬ op.IsOver)

section

variable [Backend σ] {action : Action σ}

/-- After a turn other operations are where they were. -/
theorem Leads.task_cases (hleads : Leads i op me db stand writes db')
    (hturn : db.InTurn i op me stand) (hop : db'.tasks[j]? = some (.operation op')) :
    i ≠ j ∧ db.tasks[j]? = some (.operation op') ∨
      i = j ∧ ∃ stand', op' = { op with stand := stand' } := by
  obtain ⟨last, stand', hmoves, -, rfl⟩ := hleads
  obtain ⟨ready, heq⟩ := last.putDown_eq i stand'
  rw [heq] at hop
  rcases getElem?_setStand hop with ⟨hne, hop⟩ | ⟨rfl, old, hold, rfl⟩
  · exact .inl ⟨hne, hmoves.tasks hturn ▸ hop⟩
  · have heq := (hmoves.tasks hturn ▸ hold).symm.trans hturn.runs.1
    cases heq
    exact .inr ⟨rfl, stand', rfl⟩

omit [Backend σ] in
/-- An operation that is there after another one was added is that one, or was there. -/
theorem comes_push (hop : (db.push (.operation op)).tasks[j]? = some (.operation op'))
    (hopened : op.opened → ¬ op.IsOver) : db.Comes (.submit op.connection op.call) j op' := by
  have hop := Array.getElem?_push.symm.trans hop
  split at hop
  · rename_i hlast
    cases hop
    exact .made rfl hlast hopened
  · exact .same hop

omit [Backend σ] in
/-- An operation that is there after a statement was submitted is that statement, or was there. -/
theorem comes_statement {c : ConnectionId} {s : Statement}
    (hop : (db.submit c (.statement s)).tasks[j]? = some (.operation op)) :
    db.Comes (.submit c (.statement s)) j op := by
  have hpush : ∀ added : Operation, added.connection = c → added.call = .statement s →
      (added.opened → ¬ added.IsOver) →
      ((db.attach c).2.push (.operation added)).tasks[j]? = some (.operation op) →
      db.Comes (.submit c (.statement s)) j op := by
    intro added hconnection hcall hopened hop
    rw [← hconnection, ← hcall]
    refine comes_push (?_ : (db.push (.operation added)).tasks[j]? = _) hopened
    unfold Database.push at hop ⊢
    rw [tasks_attach] at hop
    exact hop
  rcases db.submit_statement_cases c s with ⟨e, heq⟩ | ⟨t, opened, txn, -, -, -, heq⟩
  · rw [heq] at hop
    refine hpush _ rfl rfl (fun hopened => ?_) hop
    cases hopened
  · rw [heq] at hop
    refine hpush ⟨c, .statement s, some txn.holder, opened, .issued⟩ rfl rfl ?_ hop
    rintro - ⟨result, hover⟩
    cases hover

/-- So is one that is there after a call that finishes a transaction was. -/
theorem Lifecycle.comes_finishing {c : ConnectionId} {call : Call} (h : db.Lifecycle)
    (htwoPhase : db.TwoPhase) (hcall : call.isStatement = false)
    (hop : (db.submit c call).tasks[j]? = some (.operation op)) :
    db.Comes (.submit c call) j op := by
  rcases h.submit_cases htwoPhase hcall c with ⟨-, result, heq⟩ | ⟨me, hholder, hknown, hleads⟩
  · rw [heq] at hop
    exact comes_push hop fun hopened => by cases hopened
  · have hturn := h.take ⟨c, call, some me, false, .issued⟩ rfl hknown (.ok none)
    have hleads := hleads (.ok none)
    rw [issue_eq hholder] at hleads
    rcases hleads.task_cases hturn hop with ⟨-, hop⟩ | ⟨hlast, stand, rfl⟩
    · exact comes_push hop fun hopened => by cases hopened
    · refine .made rfl hlast.symm fun hopened => ?_
      cases hopened

/-- Every operation comes from somewhere. -/
theorem Tidy.comes (h : db.Tidy) (hlifecycle : db.Lifecycle) (htwoPhase : db.TwoPhase)
    (hop : (db.perform action).tasks[j]? = some (.operation op)) : db.Comes action j op := by
  cases action with
  | connect => exact .same hop
  | createTable table =>
    obtain ⟨store, registry, heq⟩ := db.exists_createTable table
    -- The registry is no business of the tasks.
    have htasks : (db.createTable table).2.tasks = db.tasks := by rw [heq]
    exact .same (htasks ▸ hop)
  | dropTable name =>
    obtain ⟨registry, heq⟩ := db.exists_dropTable name
    have htasks : (db.dropTable name).2.tasks = db.tasks := by rw [heq]
    exact .same (htasks ▸ hop)
  | beginTransaction c =>
    have htasks : (db.beginTransaction c).2.tasks = db.tasks := by
      rcases db.beginTransaction_cases c with heq | heq
      · rw [heq]
      · rw [heq]
        exact db.tasks_start c .explicit
    exact .same (htasks ▸ hop)
  | submit c call =>
    -- A call makes one task, and one that finishes a transaction moves it in the same action.
    have hop : (db.submit c call).tasks[j]? = some (.operation op) := hop
    by_cases hcall : call.isStatement
    · cases call with
      | commit => cases hcall
      | rollback => cases hcall
      | disconnect => cases hcall
      | statement s => exact comes_statement hop
    · exact hlifecycle.comes_finishing htwoPhase (Bool.eq_false_iff.mpr hcall) hop
  | requestLock mode holder key =>
    rcases getElem?_push_cases hop with heq | hop
    · cases heq
    · exact .same hop
  | resume i =>
    have hop : (db.resume i).tasks[j]? = some (.operation op) := hop
    rcases db.resume_cases i with ⟨old, me, hruns⟩ | ⟨r, hr⟩ | ⟨-, heq⟩
    · -- A turn moves its own operation, if that was not over.
      rcases hlifecycle.resume_cases hruns with ⟨heq, -⟩ | ⟨hover, hleads⟩
      · rw [heq] at hop
        exact .same hop
      · rcases hleads.task_cases (hlifecycle.inTurn hruns) hop with ⟨-, hop⟩ | ⟨rfl, stand, rfl⟩
        · exact .same hop
        · refine .moved rfl hruns.1 ?_ rfl
          rintro ⟨result, hstand⟩
          exact hover result hstand
    · exact absurd hr (h.coordinated i r)
    · rw [heq] at hop
      exact .same hop
  | reach instant => exact .same hop

/-- An operation that is not over was not over before, or it has just been made. -/
theorem Tidy.open_before (h : db.Tidy) (hlifecycle : db.Lifecycle) (htwoPhase : db.TwoPhase)
    (hop : (db.perform action).tasks[j]? = some (.operation op)) (hopen : ¬ op.IsOver) :
    (∃ old, db.tasks[j]? = some (.operation old) ∧ old.connection = op.connection ∧
        ¬ old.IsOver) ∨
      j = db.tasks.size ∧ action = .submit op.connection op.call := by
  cases h.comes hlifecycle htwoPhase hop with
  | same before => exact .inl ⟨op, before, rfl, hopen⟩
  | moved turn before unfinished now => exact .inl ⟨_, before, now ▸ rfl, unfinished⟩
  | made submitted last opened => exact .inr ⟨last, submitted⟩

/-- If a connection has one call at most that is not over, and makes another one only when it has
none, it is so after every action. -/
theorem Sequential.perform (h : db.Sequential c) (htidy : db.Tidy) (hlifecycle : db.Lifecycle)
    (htwoPhase : db.TwoPhase)
    (hpermitted : ∀ call, action = .submit c call → ∀ p ∈ db.callsOn c, p.2.IsOver) :
    (db.perform action).Sequential c := by
  intro i j op op' hi hj hc hc' hopen hopen'
  -- No call was open if one has just been made.
  have hover : ∀ {call} {k : TaskId} {old : Operation}, action = .submit c call →
      db.tasks[k]? = some (.operation old) → old.connection = c → old.IsOver :=
    fun hsubmit hold hconnection =>
      hpermitted _ hsubmit (_, _) (mem_callsOn.mpr ⟨hold, hconnection⟩)
  rcases htidy.open_before hlifecycle htwoPhase hi hopen with
      ⟨old, hold, hsame, hunfinished⟩ | ⟨hlast, hsubmit⟩ <;>
    rcases htidy.open_before hlifecycle htwoPhase hj hopen' with
      ⟨old', hold', hsame', hunfinished'⟩ | ⟨hlast', hsubmit'⟩
  · exact h i j old old' hold hold' (hsame.trans hc) (hsame'.trans hc') hunfinished hunfinished'
  · rw [hc'] at hsubmit'
    exact absurd (hover hsubmit' hold (hsame.trans hc)) hunfinished
  · rw [hc] at hsubmit
    exact absurd (hover hsubmit hold' (hsame'.trans hc')) hunfinished'
  · exact hlast.trans hlast'.symm

/-- Clients who make one call at a time leave at most one call of each connection open. -/
theorem Unhurried.perform (h : db.Unhurried) (hpermitted : db.OneAtATime action) :
    (db.perform action).Unhurried := by
  refine ⟨h.lifecycle.perform h.twoPhase action, h.twoPhase.perform action,
    h.tidy.perform h.lifecycle h.twoPhase hpermitted.coordinated, ?_⟩
  intro i j op op' hi hj hconnection hopen hopen'
  have hsingle : db.Sequential op'.connection := fun i j op op' hi hj hc hc' =>
    h.single i j op op' hi hj (hc.trans hc'.symm)
  have hidle : ∀ call, action = .submit op'.connection call →
      ∀ p ∈ db.callsOn op'.connection, p.2.IsOver := by
    rintro call rfl
    exact hpermitted
  exact hsingle.perform h.tidy h.lifecycle h.twoPhase hidle i j op op' hi hj hconnection rfl hopen
    hopen'

/-! ## How a call ends its transaction -/

omit [Backend σ] in
/-- A call that is not over is the only one that could finish a transaction of its connection. -/
theorem Unhurried.not_closing (h : db.Unhurried) (hruns : db.Runs i op me) (hopen : ¬ op.IsOver)
    (hstand : op.stand.isClosing = false) (hfound : db.directory.find? me.txn = some txn) :
    txn.phase.isClosing = false := by
  refine Bool.eq_false_iff.mpr fun hclosing => ?_
  obtain ⟨j, other, holder, hother, hcloses, htxn⟩ :=
    h.lifecycle.closer me.txn txn hfound hclosing
  have hconnection := h.tidy.same_connection hruns hother htxn.symm
  obtain rfl : i = j := h.single i j op other hruns.1 hother.1 hconnection hopen
    (Operation.not_over_of_closing hcloses)
  obtain ⟨rfl, -⟩ := hruns.unique hother
  rw [hstand] at hcloses
  cases hcloses

omit [Backend σ] in
/-- A call works in a transaction that is active. -/
theorem Unhurried.active (h : db.Unhurried) (hruns : db.Runs i op me)
    (hworking : op.stand.isWorking) (hfound : db.directory.find? me.txn = some txn) :
    txn.phase = .active := by
  have hclosing := h.not_closing hruns (Operation.not_over_of_working hworking)
    (Stand.not_closing_of_working hworking) hfound
  have hready := (h.lifecycle.inTurn hruns).not_ready hworking hfound
  exact (Phase.active_or_ready hclosing).resolve_right hready

omit [Backend σ] in
/-- The fate of a transaction that has left its active life is decided. -/
theorem exists_fate (hfound : db.directory.find? t = some txn) (hphase : txn.phase ≠ .active) :
    ∃ f, db.fate? t = some f := by
  refine Option.ne_none_iff_exists'.mp fun hopen => hphase ?_
  rw [fate?_of_found hfound] at hopen
  exact Phase.fate?_eq_none.mp hopen

omit [Backend σ] in
/-- A transaction that does not move on has left its active life before. -/
theorem exists_fate_of_error {target : Phase} {e : Cause}
    (hfound : db.directory.find? t = some txn) (hturned : db.turnTo t target = .error e) :
    ∃ f, db.fate? t = some f := by
  refine exists_fate hfound fun hactive => ?_
  unfold Database.turnTo Transaction.turnTo at hturned
  rw [hfound] at hturned
  dsimp only at hturned
  rw [if_pos hactive] at hturned
  cases hturned

omit [Backend σ] in
/-- A transaction that moves on has left its active life then. -/
theorem exists_fate_of_ok {target : Phase} (hturned : db.turnTo t target = .ok db')
    (htarget : target ≠ .active) : ∃ f, db'.fate? t = some f := by
  obtain ⟨txn, hfound, -, rfl⟩ := turnTo_ok hturned
  exact exists_fate ((Directory.find?_set hfound _ t).trans (if_pos rfl)) htarget

omit [Backend σ] in
/-- Ending an operation decides nothing. -/
theorem fate?_finish (db : Database σ) (i : TaskId) (result : Result) (t : TransactionId) :
    (db.finish i result).fate? t = db.fate? t :=
  fate?_of_eq (directory_setStand db i _) (commits_setStand db i _) t

/-- A call that commits a transaction to which its connection is attached decides its fate, if that
was open. -/
theorem InTurn.decided_commit (hturn : db.InTurn i op me stand) (hidle : op.IdlesAt stand)
    (hopened : op.opened) (hattached : db.attached.get? op.connection = some me.txn)
    (result : Result) :
    ∃ f, (db.commit i op.connection (some me.txn) result).fate? me.txn = some f := by
  obtain ⟨txn, hfound, -⟩ := hturn.found
  have hexpected : (some me.txn).all (fun t => decide (t = me.txn)) := decide_eq_true rfl
  unfold Database.commit
  rw [hattached]
  dsimp only
  rw [if_pos hexpected]
  cases hturned : db.turnTo me.txn .committing with
  | error e =>
    dsimp only
    rw [fate?_finish]
    exact exists_fate_of_error hfound hturned
  | ok turned =>
    have hclose : Move i op me db stand [] turned _ :=
      .close hidle (.inr hopened) hattached hturned result
    obtain ⟨f, hfate⟩ := exists_fate_of_ok hturned nofun
    obtain ⟨txn', hfound'⟩ := find?_turnTo hturned
    exact ⟨f, (leads_drain hfound').fate (hclose.inTurn hturn) hfate⟩

/-- So does a call that aborts it. -/
theorem InTurn.decided_abort (hturn : db.InTurn i op me stand) (hidle : op.IdlesAt stand)
    (hattached : db.attached.get? op.connection = some me.txn) (why : Lock.Refusal) :
    ∃ f, (db.abort i op.connection me.txn why).fate? me.txn = some f := by
  obtain ⟨txn, hfound, -⟩ := hturn.found
  unfold Database.abort
  dsimp only
  rw [if_pos hattached]
  cases hturned : db.turnTo me.txn .aborting with
  | error e =>
    dsimp only
    rw [fate?_finish]
    exact exists_fate_of_error hfound hturned
  | ok turned =>
    dsimp only
    generalize Option.any _ (turned.directory.find? me.txn) = restart
    have hdiscard : Move i op me db stand [] (turned.releaseLocks me.txn) _ :=
      .discard hidle hattached hturned restart (.error (Cause.lock why))
    obtain ⟨f, hfate⟩ := exists_fate_of_ok hturned nofun
    obtain ⟨txn', hfound'⟩ := find?_turnTo hturned
    have hfate' : (turned.releaseLocks me.txn).fate? me.txn = some f :=
      (fate?_of_eq rfl rfl me.txn).trans hfate
    have hreleased : (turned.releaseLocks me.txn).directory.find? me.txn = some txn' := hfound'
    exact ⟨f, (leads_drain hreleased).fate (hdiscard.inTurn hturn) hfate'⟩

/-- When a call ends for which a transaction was made, the fate of this is decided, unless the body
has broken off or lost its locks. -/
theorem InTurn.decided_conclude {s : Statement} {ending : Ending} (hturn : db.InTurn i op me stand)
    (htidy : db.Tidy) (hcall : op.call = .statement s) (hworking : stand.isWorking)
    (hopened : op.opened) (hbroken : ∀ text, ending ≠ .broken text) (hreleased : ending ≠ .refused .released) :
    ∃ f, (db.conclude i op me.txn ending).fate? me.txn = some f := by
  obtain ⟨result, hleads⟩ := leads_conclude db i op me ending
  have hleave : Move i op me db stand [] (db.leave me.txn) (.finished result) :=
    .leave hcall hworking result
  have hleft := hleave.inTurn hturn
  have htidied := htidy.leave me.txn
  cases hopen : (db.leave me.txn).fate? me.txn with
  | some f => exact ⟨f, hleads.fate hleft hopen⟩
  | none =>
    -- The transaction is active still, and so its connection is attached to it.
    obtain ⟨txn, hfound, -⟩ := hleft.found
    have hactive := Phase.fate?_eq_none.mp ((fate?_of_found hfound).symm.trans hopen)
    obtain ⟨txn', hfound', hconnection⟩ := htidied.placed i op me hleft.runs
    rw [hfound] at hfound'
    cases hfound'
    have hattached := (htidied.neat me.txn txn hfound).active hactive
    rw [hconnection] at hattached
    have hidle : op.IdlesAt (.finished result) := ⟨rfl, Bool.and_false _⟩
    have hclose : ∀ told : Result, ∃ f, (if op.opened
        then (db.leave me.txn).commit i op.connection (some me.txn) told
        else (db.leave me.txn).finish i told).fate? me.txn = some f := by
      intro told
      rw [if_pos hopened]
      exact hleft.decided_commit hidle hopened hattached told
    unfold Database.conclude
    cases ending with
    | done value => exact hclose (.ok value)
    | failed e => exact hclose (.error e)
    | broken text => exact absurd rfl (hbroken text)
    | refused why =>
      cases why with
      | conflict => exact hleft.decided_abort hidle hattached .conflict
      | timeout => exact hleft.decided_abort hidle hattached .timeout
      | released => exact absurd rfl hreleased

omit [Backend σ] in
/-- A body that has its lock has an end of its own, if it ends. -/
theorem lockedEnding?_cases {target : Target} {s : Statement} {ending : Ending}
    (h : db.lockedEnding? t target s = some ending) :
    (∃ value, ending = .done value) ∨ ∃ e, ending = .failed e := by
  unfold lockedEnding? at h
  split at h
  · cases h
    exact .inl ⟨_, rfl⟩
  · split at h
    · cases h
      exact .inl ⟨_, rfl⟩
    · cases h
      exact .inr ⟨_, rfl⟩
    · cases h
  · split at h
    · cases h
      exact .inl ⟨_, rfl⟩
    · cases h
      exact .inr ⟨_, rfl⟩
    · cases h

/-- So has a body that has read its row. -/
theorem fetchedEnding_cases (s : Statement) (row : Outcome Value) :
    (∃ value, fetchedEnding s row = .done value) ∨ ∃ e, fetchedEnding s row = .failed e := by
  unfold fetchedEnding
  cases row with
  | failed e => exact .inr ⟨_, rfl⟩
  | broken text => exact .inr ⟨_, rfl⟩
  | done value => cases s <;> exact .inl ⟨_, rfl⟩

omit [Backend σ] in
/-- A body that asks for its lock has an end of its own, or is refused the lock. -/
theorem acquiredEnding?_cases {target : Target} {s : Statement} {answer : Lock.Acquisition}
    {ending : Ending} (h : db.acquiredEnding? t target s answer = some ending) :
    ((∃ value, ending = .done value) ∨ ∃ e, ending = .failed e) ∨
      ∃ why, ending = .refused why ∧ answer = .answered (.error why) := by
  unfold acquiredEnding? at h
  split at h
  · exact .inl (lockedEnding?_cases h)
  · cases h
    exact .inr ⟨_, rfl, rfl⟩
  · cases h

/-- A body has an end of its own, or it is refused its lock by a turn that asks for it or looks for
the answer, or the check of its row breaks off. -/
theorem bodyEnding?_cases {ending : Ending} (h : db.bodyEnding? op me = some ending) :
    ((∃ value, ending = .done value) ∨ ∃ e, ending = .failed e) ∨
      (∃ why, ending = .refused why ∧
        ((∃ k, (db.locks.acquire db.now .write me k).2 = .answered (.error why)) ∨
          ∃ target w, op.stand = .locking target w ∧
            (db.locks.poll db.now w).2 = .answered (.error why))) ∨
      ∃ text, ending = .broken text ∧ db.breakText? op = some text := by
  -- The branches of the body in their order: no table, a row that does not fit, a check that breaks
  -- off, and the answer to the request.
  unfold bodyEnding? at h
  split at h
  · cases h
  · cases h
  · cases h
  · rename_i s hcall
    split at h
    · rename_i hstand
      split at h
      · cases h
        exact .inl (.inr ⟨_, rfl⟩)
      · rename_i id entry hlook
        split at h
        · cases h
          exact .inl (.inr ⟨_, rfl⟩)
        · rename_i table hstore
          split at h
          · cases h
            exact .inl (.inr ⟨_, rfl⟩)
          · rename_i text hvalidate
            cases h
            refine .inr (.inr ⟨text, rfl, ?_⟩)
            unfold breakText?
            rw [hstand, hcall]
            dsimp only
            rw [hlook]
            dsimp only
            rw [hstore]
            dsimp only
            rw [hvalidate]
          · rcases acquiredEnding?_cases h with hown | ⟨why, hwhy, hanswer⟩
            · exact .inl hown
            · exact .inr (.inl ⟨why, hwhy, .inl ⟨_, hanswer⟩⟩)
    · rename_i target w hstand
      rcases acquiredEnding?_cases h with hown | ⟨why, hwhy, hanswer⟩
      · exact .inl hown
      · exact .inr (.inl ⟨why, hwhy, .inr ⟨target, w, hstand, hanswer⟩⟩)
    · rename_i row hstand
      cases h
      exact .inl (fetchedEnding_cases s row)
    all_goals cases h

/-- A body does not lose its locks while its transaction is active. -/
theorem TwoPhase.not_released {s : Statement} (h : db.TwoPhase) (hruns : db.Runs i op me)
    (hcall : op.call = .statement s) (hfound : db.directory.find? me.txn = some txn)
    (hactive : txn.phase = .active) : db.bodyEnding? op me ≠ some (.refused .released) := by
  intro hending
  have hopen : ¬ db.Shut me.txn := by
    rintro ⟨found, hshut, hclosed⟩
    rw [hfound] at hshut
    cases hshut
    exact hclosed (.inl hactive)
  have hbacked := h.backed i op me s hruns hcall
  rcases bodyEnding?_cases hending with hown | ⟨why, hwhy, hasked⟩ | ⟨text, hbroken, -⟩
  · rcases hown with ⟨value, hvalue⟩ | ⟨e, he⟩
    · cases hvalue
    · cases he
  · cases hwhy
    rcases hasked with ⟨k, hanswer⟩ | ⟨target, w, hstand, hanswer⟩
    · exact (h.locks.acquire db.now me k).refused _ hanswer hopen rfl
    · rw [hstand] at hbacked
      exact (h.locks.poll db.now hbacked.2).refused _ hanswer hopen rfl
  · cases hbroken

/-- When a call is over after a turn in which it did not break off, the fate of the transaction that
was made for it is decided. -/
theorem Unhurried.decided (h : db.Unhurried) (hruns : db.Runs i op me) (hopened : op.opened)
    (hopen : ¬ op.IsOver) (hunbroken : db.breaksOff op = false)
    (hafter : (db.resume i).Runs i op' me) (hover : op'.IsOver) :
    ∃ f, (db.resume i).fate? me.txn = some f := by
  obtain ⟨txn, hfound, hfits⟩ := h.lifecycle.fits i op me hruns
  rcases Operation.working_or_closing hopen with hworking | hclosing
  · have hactive := h.active hruns hworking hfound
    obtain ⟨s, hcall⟩ := Call.exists_statement (h.lifecycle.placed i op hruns.1 hworking)
    have hturn := h.lifecycle.inTurn hruns
    have hline : ({ db with ready := db.ready.erase i } : Database σ).Tidy :=
      h.tidy.of_eq rfl rfl rfl rfl
    have hworks := works_resume hruns hcall hworking
    have hlost := h.twoPhase.not_released hruns hcall hfound hactive
    have hbroken : ∀ text, db.bodyEnding? op me ≠ some (.broken text) := by
      intro text hending
      rcases bodyEnding?_cases hending with
        (⟨value, hvalue⟩ | ⟨e, he⟩) | ⟨why, hwhy, -⟩ | ⟨text, -, hbreaks⟩
      · cases hvalue
      · cases he
      · cases hwhy
      · unfold breaksOff at hunbroken
        rw [hbreaks] at hunbroken
        cases hunbroken
    generalize db.bodyEnding? op me = ending, db.resume i = last at hworks hlost hbroken hafter ⊢
    cases hworks with
    | @ends mid stand' ending moves working =>
      exact (moves.inTurn hturn).decided_conclude (moves.tidy hturn working hline) hcall working
        hopened (fun text heq => hbroken text (congrArg some heq)) fun heq => hlost (congrArg some heq)
    | @goesOn mid stand' moves working waits =>
      -- An operation that goes on is not over.
      rcases (moves.runs_putDown_iff hturn).mp hafter with ⟨-, rfl, -⟩ | ⟨hne, -⟩
      · exact absurd hover (Operation.not_over_of_working working)
      · exact absurd rfl hne
  · have hphase := hfits.closing hclosing
    obtain ⟨f, hfate⟩ := exists_fate hfound fun hactive => by rw [hactive] at hphase; cases hphase
    exact ⟨f, h.lifecycle.fate?_perform h.twoPhase hfate (.resume i)⟩

/-- After its last turn nobody but the call itself could still be about to finish the transaction
that was made for it, and so this is over. -/
theorem Unhurried.retired (h : db.Unhurried) (hruns : db.Runs i op me) (hopened : op.opened)
    (hopen : ¬ op.IsOver) (hunbroken : db.breaksOff op = false)
    (hafter : (db.resume i).Runs i op' me) (hover : op'.IsOver) :
    (db.resume i).Retired me.txn := by
  obtain ⟨f, hfate⟩ := h.decided hruns hopened hopen hunbroken hafter hover
  have hlater := h.lifecycle.resume i
  obtain ⟨txn, hfound, -⟩ := hlater.fits i op' me hafter
  refine ⟨txn, hfound, ?_⟩
  have hclosing : txn.phase.isClosing = false := by
    refine Bool.eq_false_iff.mpr fun hclosing => ?_
    obtain ⟨j, other, holder, hother, hcloses, htxn⟩ := hlater.closer me.txn txn hfound hclosing
    have hunfinished := Operation.not_over_of_closing hcloses
    -- Whoever finishes it was there before, on the same connection, and not over either.
    have hbefore : i ≠ j → db.tasks[j]? = some (.operation other) := by
      intro hne
      have hcomes : db.Comes (.resume i) j other :=
        h.tidy.comes h.lifecycle h.twoPhase hother.1
      cases hcomes with
      | same before => exact before
      | moved turn before unfinished now => cases turn; exact absurd rfl hne
      | made submitted last opened => cases submitted
    have hne : i ≠ j := by
      rintro rfl
      obtain ⟨rfl, -⟩ := hafter.unique hother
      exact hunfinished hover
    have hconnection := h.tidy.same_connection hruns ⟨hbefore hne, hother.2⟩ htxn.symm
    exact hne (h.single i j op other hruns.1 (hbefore hne) hconnection hopen hunfinished)
  have hactive : txn.phase ≠ .active := by
    intro hactive
    rw [fate?_of_found hfound, hactive] at hfate
    cases hfate
  exact (Phase.active_or_ready hclosing).resolve_left hactive

/-- The check of a row breaks off only right after the call is issued, in a table that is there. -/
theorem exists_of_breakText? {text : String} (h : db.breakText? op = some text) :
    op.stand = .issued ∧ ∃ s id entry table, op.call = .statement s ∧
      db.registry.lookUp s.table = .ok (id, entry) ∧ db.store[entry.table]? = some table ∧
      Backend.validate table s.key s.value? = .broken text := by
  unfold breakText? at h
  split at h
  · rename_i s hstand hcall
    split at h
    · cases h
    · rename_i id entry hlook
      split at h
      · cases h
      · rename_i table hstore
        split at h
        · rename_i hvalidate
          cases h
          exact ⟨hstand, s, id, entry, table, hcall, hlook, hstore, hvalidate⟩
        · cases h
        · cases h
  · cases h

/-- What a turn comes to in which the check of a row breaks off. -/
theorem resume_of_breakText? {text : String} (hruns : db.Runs i op me)
    (hbreaks : db.breakText? op = some text) :
    db.resume i = (({ db with ready := db.ready.erase i } : Database σ).leave me.txn).finish i
      (.error (Cause.taskFailed text)) := by
  obtain ⟨hstand, s, id, entry, table, hcall, hlook, hstore, hvalidate⟩ :=
    exists_of_breakText? hbreaks
  rw [resume_eq hruns]
  unfold Database.resumeOperation
  rw [hstand, hcall]
  dsimp only
  unfold Database.begin
  dsimp only
  rw [hlook]
  dsimp only
  rw [hstore]
  dsimp only
  rw [hvalidate]
  rfl

/-- A call whose check breaks off leaves behind an active transaction that its connection is
attached to, and of which every call is over. -/
theorem Unhurried.stranded {text : String} (h : db.Unhurried) (hruns : db.Runs i op me)
    (hbreaks : db.breakText? op = some text) :
    (db.resume i).Runs i { op with stand := .finished (.error (Cause.taskFailed text)) } me ∧
      (∃ txn, (db.resume i).directory.find? me.txn = some txn ∧ txn.phase = .active) ∧
      (db.resume i).attached.get? op.connection = some me.txn ∧
      ∀ j op' me', (db.resume i).Runs j op' me' → me'.txn = me.txn → op'.IsOver := by
  have hworking : op.stand.isWorking := by
    rw [(exists_of_breakText? hbreaks).1]
    rfl
  have hopen := Operation.not_over_of_working hworking
  obtain ⟨txn, hfound, -⟩ := h.lifecycle.fits i op me hruns
  have hactive := h.active hruns hworking hfound
  obtain ⟨txn', hfound', hconnection⟩ := h.tidy.placed i op me hruns
  rw [hfound] at hfound'
  cases hfound'
  have hattached := (h.tidy.neat me.txn txn hfound).active hactive
  rw [hconnection] at hattached
  have hline : ({ db with ready := db.ready.erase i } : Database σ).directory.find? me.txn =
    some txn := hfound
  have heq := resume_of_breakText? hruns hbreaks
  -- The turn leaves the transaction and finishes the call, and does nothing else.
  have hafter : (db.resume i).Runs i
      { op with stand := .finished (.error (Cause.taskFailed text)) } me := by
    rw [heq]
    have hleft :
        (({ db with ready := db.ready.erase i } : Database σ).leave me.txn).Runs i op me := by
      rw [leave_eq hline]
      exact hruns
    exact (runs_setStand_iff hleft).mpr (.inl ⟨rfl, rfl, rfl⟩)
  refine ⟨hafter, ⟨txn.deregister.1, ?_, txn.deregister_spec.2.1.trans hactive⟩, ?_,
    fun j op' me' hother htxn => ?_⟩
  · rw [heq, leave_eq hline]
    unfold Database.finish
    rw [directory_setStand]
    exact (Directory.find?_set hfound _ me.txn).trans (if_pos rfl)
  · rw [heq, leave_eq hline]
    unfold Database.finish
    rw [attached_setStand]
    exact hattached
  · -- Any other call of the transaction is over, since its connection makes one at a time.
    have hcomes : db.Comes (.resume i) j op' :=
      h.tidy.comes h.lifecycle h.twoPhase hother.1
    cases hcomes with
    | same before =>
      by_contra hunfinished
      have hconnection := h.tidy.same_connection hruns ⟨before, hother.2⟩ htxn.symm
      obtain rfl : i = j := h.single i j op op' hruns.1 before hconnection hopen hunfinished
      obtain ⟨rfl, -⟩ := hafter.unique hother
      exact hunfinished ⟨_, rfl⟩
    | moved turn before unfinished now =>
      cases turn
      obtain ⟨rfl, -⟩ := hafter.unique hother
      exact ⟨_, rfl⟩
    | made submitted last opened => cases submitted

/-! ## Runs -/

omit [Backend σ] in
/-- In a new database nobody is in a hurry. -/
theorem unhurried_new (config : Config) (clock : Clock) (hasher : Hasher) :
    (new config clock hasher : Database σ).Unhurried where
  lifecycle := lifecycle_new config clock hasher
  twoPhase := twoPhase_new config clock hasher
  tidy := tidy_new config clock hasher
  single _ _ _ _ h := by cases h

/-- A call has ended the transaction that was made for it when it is over. -/
def Ended (db : Database σ) (i : TaskId) : Prop :=
  ∀ op me, db.Runs i op me → op.opened → op.IsOver → db.Retired me.txn

/-- An action in which the check of a call does not break off keeps it so. -/
theorem Unhurried.ended_perform (h : db.Unhurried) (hpermitted : db.Sparing i action)
    (hended : db.Ended i) : (db.perform action).Ended i := by
  intro op me hruns hopened hover
  cases h.tidy.comes h.lifecycle h.twoPhase hruns.1 with
  | same before =>
    have hretired := hended op me ⟨before, hruns.2⟩ hopened hover
    exact h.lifecycle.retired_perform h.twoPhase hretired action
  | @moved old stand turn before unfinished now =>
    subst turn now
    have hunbroken := hpermitted.2 rfl
    rw [before] at hunbroken
    exact h.retired ⟨before, hruns.2⟩ hopened unfinished hunbroken hruns hover
  | made submitted last opened => exact absurd hover (opened hopened)

/-- So does a run. -/
theorem Run.ended {first : Database σ} (run : Run (Sparing i) first db) (h : first.Unhurried)
    (hended : first.Ended i) : db.Unhurried ∧ db.Ended i := by
  induction run with
  | start => exact ⟨h, hended⟩
  | perform run hpermitted ih =>
    exact ⟨ih.1.perform hpermitted.1, ih.1.ended_perform hpermitted ih.2⟩

/-- If every connection makes one call at a time, the transaction that was made for a statement is
over when the statement is, and has left no trace, whatever its tables are and however the statement
ended. There is one exception. If the check of its row breaks off, the statement is over with the
error of a task that failed, but the transaction is active still and its connection attached to it,
and all calls that belong to it are over. -/
theorem ended_or_stranded {config : Config} {clock : Clock} {hasher : Hasher}
    (run : Run (Sparing i) (new config clock hasher) db) (hruns : db.Runs i op me)
    (hopened : op.opened) :
    (op.IsOver → db.Retired me.txn ∧ db.Traceless me.txn) ∧
      ∀ text, db.breakText? op = some text →
        (db.resume i).Runs i { op with stand := .finished (.error (Cause.taskFailed text)) } me ∧
        (∃ txn, (db.resume i).directory.find? me.txn = some txn ∧ txn.phase = .active) ∧
        (db.resume i).attached.get? op.connection = some me.txn ∧
        ∀ j op' me', (db.resume i).Runs j op' me' → me'.txn = me.txn → op'.IsOver := by
  obtain ⟨h, hended⟩ := run.ended (unhurried_new config clock hasher) fun _ _ hruns => by
    cases hruns.1
  refine ⟨fun hover => ?_, fun text hbreaks => h.stranded hruns hbreaks⟩
  have hretired := hended op me hruns hopened hover
  exact ⟨hretired, h.tidy.traceless hretired⟩

end

/-- A table that breaks off when one row is checked or another one is read. -/
def brittle : FaultyTable :=
  ⟨⟨"t", .any, .any, ⟨[]⟩⟩, [], [(.validate, .integer 1), (.get, .integer 2)]⟩

/-- A connection reads the latter row without a transaction, and then issues a put of the former.
-/
def misread : List (Action FaultyTable) :=
  [ .connect, .createTable brittle, .submit 0 (.statement (.get "t" (.integer 2))), .resume 0,
    .resume 0, .resume 0, .submit 0 (.statement (.put "t" (.integer 1) (.integer 2))) ]

/-- For instance, the transaction of the read is over when the read is, although the table broke
off, but that of the put will not be. -/
theorem ended_or_stranded_misread :
    ∃ db : Database FaultyTable,
      misread.foldl perform (new .standard default ⟨"Constant", fun _ => ⟨7⟩⟩) = db ∧
      (db.result? 0 = some (.error (Cause.taskFailed "get 2")) ∧ db.Retired ⟨0⟩ ∧
        db.Traceless ⟨0⟩) ∧
      (db.resume 1).attached.get? 0 = some ⟨1⟩ := by
  have run : ∀ i, Admits (Sparing i) (new .standard default ⟨"Constant", fun _ => ⟨7⟩⟩) misread →
      Run (Sparing i) (new .standard default ⟨"Constant", fun _ => ⟨7⟩⟩)
        (misread.foldl perform (new .standard default ⟨"Constant", fun _ => ⟨7⟩⟩)) :=
    fun _ hadmits => Run.performAll .start hadmits
  have read := run 0 (by decide)
  have put := run 1 (by decide)
  obtain ⟨hretired, htraceless⟩ := (ended_or_stranded read ⟨rfl, rfl⟩ rfl).1 ⟨_, rfl⟩
  obtain ⟨-, -, hattached, -⟩ := (ended_or_stranded put ⟨rfl, rfl⟩ rfl).2 _ rfl
  exact ⟨_, rfl, ⟨rfl, hretired, htraceless⟩, hattached⟩

/-- A connection puts the row whose check breaks off, without a transaction. -/
def misput : List (Action FaultyTable) :=
  [ .connect, .createTable brittle,
    .submit 0 (.statement (.put "t" (.integer 1) (.integer 2))), .resume 0 ]

/-- So an implicit transaction can outlive its call, although the connection made this one call only
and nothing is left to run: it is not over, and the connection is attached to it. -/
theorem misput_stranded :
    ∃ db : Database FaultyTable,
      Run OneAtATime (new .standard default ⟨"Constant", fun _ => ⟨7⟩⟩) db ∧ db.ready = [] ∧
      ∃ op me, db.Runs 0 op me ∧ op.opened ∧ op.IsOver ∧
        db.result? 0 = some (.error (Cause.taskFailed "validate 1")) ∧ ¬ db.Retired me.txn ∧
        db.attached.get? op.connection = some me.txn ∧
        db.directory.current.get? op.connection = some me.txn := by
  have run : Run OneAtATime (new .standard default ⟨"Constant", fun _ => ⟨7⟩⟩)
      (misput.foldl perform (new .standard default ⟨"Constant", fun _ => ⟨7⟩⟩)) :=
    Run.performAll .start (by decide)
  refine ⟨_, run, by decide, _, _, ⟨rfl, rfl⟩, rfl, ⟨_, rfl⟩, rfl, ?_, by decide, by decide⟩
  rintro ⟨txn, hfound, hready⟩
  cases hfound
  cases hready

end Database

end TxStore
