import TxStore.Proofs.Database.Locking
import TxStore.Proofs.Lock.Callers

/-!
# The moves of a turn

In a turn an operation is taken in hand, moves on, and is put down where it has to wait. In between
the database is in the middle of a turn: the operation stands somewhere else already than its task
says. `Move` lists all that can happen to the database and to the operation in hand, one small
change at a time, with the conditions under which it does and the writes that it buffers. `Leads`
says that a function of a turn makes such moves and then puts the operation down, and there is one
lemma about it for each of these functions, in the order in which they are defined. So what every
move keeps is kept by every turn.
-/

namespace TxStore

/-- Whether an operation is at work on its row where it stands. -/
def Stand.isWorking : Stand → Bool
  | .issued | .locking _ _ | .reading _ | .fetched _ _ => true
  | .draining _ _ | .applying _ _ | .applied _ _ | .finished _ => false

/-- Whether an operation is finishing its transaction where it stands. -/
def Stand.isClosing : Stand → Bool
  | .draining _ _ | .applying _ _ | .applied _ _ => true
  | .issued | .locking _ _ | .reading _ | .fetched _ _ | .finished _ => false

/-- Whether a call works on a row. -/
def Call.isStatement : Call → Bool
  | .statement _ => true
  | .commit | .rollback | .disconnect => false

/-- A call that works on a row has a statement. -/
theorem Call.exists_statement {call : Call} (h : call.isStatement) :
    ∃ s, call = .statement s := by
  cases call with
  | statement s => exact ⟨s, rfl⟩
  | commit => cases h
  | rollback => cases h
  | disconnect => cases h

/-- Whether an operation neither works on a row nor finishes its transaction at a stand. A call that
is to finish a transaction does so right after it is issued. -/
def Operation.IdlesAt (op : Operation) (stand : Stand) : Prop :=
  stand.isClosing = false ∧ (op.call.isStatement && stand.isWorking) = false

/-- The table on which an operation is at work where it stands, once it has looked it up. -/
def Stand.target? : Stand → Option Target
  | .locking target _ | .reading target | .fetched target _ => some target
  | .issued | .draining _ _ | .applying _ _ | .applied _ _ | .finished _ => none

/-- Whether a table is the one of an operation: it is at work on it, or it looks it up in its turn.
-/
def Operation.Aims (op : Operation) (registry : Registry TableRef) (target : Target) : Prop :=
  op.stand.target? = some target ∨
    ∃ s entry, op.call = .statement s ∧ registry.lookUp s.table = .ok (target.id, entry)

/-- Where an operation stands after it has asked for the lock of its row or looked for the answer.
-/
def Lock.Acquisition.standAt (target : Target) (stand : Stand) : Lock.Acquisition → Stand
  | .answered _ => stand
  | .waiting w => .locking target w

namespace Database

variable {σ : Type} {db mid db' : Database σ} {i : TaskId} {op : Operation} {me : Lock.Holder}
  {t : TransactionId} {txn : Transaction} {stand stand' : Stand} {writes writes' : List WriteEntry}
  {purpose : Purpose} {result : Result}

/-- Whether all that is left to an operation at a stand is to end its transaction's life. -/
def Ends (db : Database σ) (t : TransactionId) : Stand → Prop
  | .applied _ _ => True
  | .draining (.discard _) _ => ∃ txn, db.directory.find? t = some txn ∧ txn.inFlight = 0
  | _ => False

/-- An operation that is to end its transaction's life is not at work. -/
theorem Ends.not_working (h : db.Ends t stand) : stand.isWorking = false := by
  cases stand with
  | draining purpose result => rfl
  | applied errors result => rfl
  | issued => cases h
  | locking target w => cases h
  | reading target => cases h
  | fetched target row => cases h
  | applying plan result => cases h
  | finished result => cases h

/-- What can happen in a turn of the operation `op`, which is task `i` and belongs to the
transaction that the locks know as `me`: to the database, to where the operation stands, and which
writes are buffered. -/
inductive Move [Backend σ] (i : TaskId) (op : Operation) (me : Lock.Holder) :
    Database σ → Stand → List WriteEntry → Database σ → Stand → Prop where
  /-- A statement asks for the lock of its row. -/
  | ask {db : Database σ} {s : Statement} {target : Target} {turn : Lock.Manager × Lock.Acquisition}
      (call : op.call = .statement s) (aims : op.Aims db.registry target)
      (asked : db.locks.acquire db.now .write me ⟨target.id, s.key⟩ = turn) :
      Move i op me db .issued [] (db.withLocks turn.1) (turn.2.standAt target .issued)
  /-- It looks for the answer. -/
  | look {db : Database σ} {s : Statement} {target : Target} {w : Lock.Waiting}
      {turn : Lock.Manager × Lock.Acquisition}
      (call : op.call = .statement s) (looked : db.locks.poll db.now w = turn) :
      Move i op me db (.locking target w) [] (db.withLocks turn.1)
        (turn.2.standAt target (.locking target w))
  /-- It is to read its row in the background. -/
  | read {db : Database σ} {s : Statement} {stand : Stand} (call : op.call = .statement s)
      (working : stand.isWorking) {target : Target} (aims : op.Aims db.registry target) :
      Move i op me db stand [] db (.reading target)
  /-- It has read its row. -/
  | fetch {db : Database σ} {s : Statement} {stand : Stand} (call : op.call = .statement s)
      (working : stand.isWorking) {target : Target} (aims : op.Aims db.registry target)
      (row : Outcome Value) : Move i op me db stand [] db (.fetched target row)
  /-- It buffers a write of its row. -/
  | buffer {db : Database σ} {s : Statement} {stand : Stand} (call : op.call = .statement s)
      (working : stand.isWorking) (target : Target) (write : Write) :
      Move i op me db stand [⟨target.id, s.key, write⟩] (db.buffer me.txn target s.key write) stand
  /-- It leaves its transaction. -/
  | leave {db : Database σ} {s : Statement} {stand : Stand} (call : op.call = .statement s)
      (working : stand.isWorking) (result : Result) :
      Move i op me db stand [] (db.leave me.txn) (.finished result)
  /-- It is over. -/
  | tell {db : Database σ} {stand : Stand} (idle : op.IdlesAt stand) (result : Result) :
      Move i op me db stand [] db (.finished result)
  /-- It begins to commit. -/
  | close {db db' : Database σ} {stand : Stand} (idle : op.IdlesAt stand)
      (own : op.call = .commit ∨ op.opened)
      (attached : db.attached.get? op.connection = some me.txn)
      (turned : db.turnTo me.txn .committing = .ok db') (result : Result) :
      Move i op me db stand [] db' (.draining .commit result)
  /-- It begins to roll back or to abort, and releases the locks at once. -/
  | discard {db db' : Database σ} {stand : Stand} (idle : op.IdlesAt stand)
      (attached : db.attached.get? op.connection = some me.txn)
      (turned : db.turnTo me.txn .aborting = .ok db') (restart : Bool) (result : Result) :
      Move i op me db stand [] (db'.releaseLocks me.txn) (.draining (.discard restart) result)
  /-- It is parked until no operation is in flight. -/
  | park {db : Database σ} {txn : Transaction} {purpose : Purpose} {result : Result}
      (found : db.directory.find? me.txn = some txn) (busy : txn.inFlight ≠ 0) :
      Move i op me db (.draining purpose result) []
        (db.withDirectory (db.directory.set me.txn (txn.awaitIdle i).1)) (.draining purpose result)
  /-- It takes down the writes that are to be applied. -/
  | snapshot {db : Database σ} {txn : Transaction} {result : Result}
      (found : db.directory.find? me.txn = some txn) (idle : txn.inFlight = 0) :
      Move i op me db (.draining .commit result) [] db (.applying (db.plan txn.log.entries) result)
  /-- It applies them. -/
  | apply {db : Database σ} {plan : List PlannedWrite} {result : Result}
      (errors : List Error) :
      Move i op me db (.applying plan result) []
        (({ db with store := (applyPlan db.store plan).1 } : Database σ).recordCommit me.txn plan)
        (.applied errors result)
  /-- It releases the locks after that. -/
  | release {db : Database σ} {errors : List Error} {result : Result} :
      Move i op me db (.applied errors result) [] (db.releaseLocks me.txn) (.applied errors result)
  /-- It has the release forgotten. -/
  | forget {db : Database σ} {stand : Stand} (ends : db.Ends me.txn stand) :
      Move i op me db stand [] (db.forgetLocks me.txn) stand
  /-- It separates the transaction from its connection. -/
  | separate {db : Database σ} {stand : Stand} (ends : db.Ends me.txn stand) :
      Move i op me db stand [] (db.separate op.connection me.txn) stand
  /-- It puts a fresh transaction in the place of one that is discarded. -/
  | replace {db : Database σ} {restart : Bool} {result : Result}
      (ends : db.Ends me.txn (.draining (.discard restart) result)) :
      Move i op me db (.draining (.discard restart) result) []
        (db.replace op.connection me.txn).1 (.draining (.discard restart) result)
  /-- It ends the transaction's life. -/
  | retire {db : Database σ} {stand : Stand} (ends : db.Ends me.txn stand) (result : Result) :
      Move i op me db stand [] (db.retire me.txn) (.finished result)

/-- What can happen in several moves of a turn. -/
inductive Moves [Backend σ] (i : TaskId) (op : Operation) (me : Lock.Holder) :
    Database σ → Stand → List WriteEntry → Database σ → Stand → Prop where
  /-- Nothing. -/
  | nil {db : Database σ} {stand : Stand} : Moves i op me db stand [] db stand
  /-- One move and several more. -/
  | cons {db mid db' : Database σ} {stand stand₁ stand' : Stand} {writes writes' : List WriteEntry}
      (move : Move i op me db stand writes mid stand₁)
      (rest : Moves i op me mid stand₁ writes' db' stand') :
      Moves i op me db stand (writes ++ writes') db' stand'

/-- Puts an operation down where it stands, in line if its work goes on in the background. -/
def putDown (db : Database σ) (i : TaskId) (stand : Stand) : Database σ :=
  match stand with
  | .reading _ | .fetched _ _ | .applying _ _ | .applied _ _ => (db.setStand i stand).wake [i]
  | .issued | .locking _ _ | .draining _ _ | .finished _ => db.setStand i stand

/-- Whether an operation of `t` may be put down at a stand: it has not been told how its lock
request ended, or it is parked until it is woken, or it need not wait for anything. -/
def Waits (db : Database σ) (i : TaskId) (t : TransactionId) : Stand → Prop
  | .issued => False
  | .locking _ w => db.locks.resolution? w.ticket = none
  | .draining _ _ => ∃ txn, db.directory.find? t = some txn ∧ i ∈ txn.parked
  | .reading _ | .fetched _ _ | .applying _ _ | .applied _ _ | .finished _ => True

/-- A turn that begins in `db` with the operation in hand at `stand` ends in `db'`. -/
def Leads [Backend σ] (i : TaskId) (op : Operation) (me : Lock.Holder) (db : Database σ)
    (stand : Stand) (writes : List WriteEntry) (db' : Database σ) : Prop :=
  ∃ mid stand', Moves i op me db stand writes mid stand' ∧ mid.Waits i me.txn stand' ∧
    db' = mid.putDown i stand'

section

variable [Backend σ]

/-- A turn may begin with a move. -/
theorem Move.leads (h : Move i op me db stand writes mid stand')
    (hleads : Leads i op me mid stand' writes' db') :
    Leads i op me db stand (writes ++ writes') db' := by
  obtain ⟨last, stand'', hmoves, hwaits, heq⟩ := hleads
  exact ⟨last, stand'', .cons h hmoves, hwaits, heq⟩

/-- A turn may end where the operation may be put down. -/
theorem leads_putDown (stand : Stand) (h : db.Waits i me.txn stand) :
    Leads i op me db stand [] (db.putDown i stand) :=
  ⟨db, stand, .nil, h, rfl⟩

/-! ## Finishing transactions -/

/-- An operation may end. -/
theorem leads_finish (hidle : op.IdlesAt stand) (result : Result) :
    Leads i op me db stand [] (db.finish i result) :=
  (Move.tell hidle result).leads (leads_putDown (.finished result) trivial)

/-- An operation may end with its transaction's life. -/
theorem leads_retire (hends : db.Ends me.txn stand) (result : Result) :
    Leads i op me db stand [] ((db.retire me.txn).finish i result) :=
  (Move.retire hends result).leads (leads_putDown (.finished result) trivial)

/-- A commit may end. -/
theorem leads_endCommit (errors told : List Error) (result joined : Result) :
    Leads i op me db (.applied told joined) []
      (db.endCommit i op.connection me.txn errors result) := by
  have hends : ∀ db : Database σ, db.Ends me.txn (.applied told joined) := fun _ => trivial
  exact Move.release.leads ((Move.forget (hends _)).leads ((Move.separate (hends _)).leads
    (leads_retire (hends _) _)))

omit [Backend σ] in
/-- Replacing a transaction empties the write buffer of one at most, and changes no other
transaction. -/
theorem find?_replace (c : ConnectionId) (t : TransactionId) {u : TransactionId}
    (h : db.directory.find? u = some txn) :
    ∃ log, (db.replace c t).1.directory.find? u = some { txn with log := log } := by
  unfold Database.replace
  split
  · cases hclear : db.directory.clearLog c with
    | error e => exact ⟨txn.log, h⟩
    | ok d =>
      -- The write buffer of the old transaction is emptied first, whether or not it is the one at
      -- hand.
      have hcleared : ∃ log, d.find? u = some { txn with log := log } := by
        unfold Directory.clearLog at hclear
        split at hclear
        · cases hclear
        · cases hclear
          unfold Directory.modifyLog
          rw [Directory.find?_modify]
          split
          · rename_i hid
            rw [hid, h]
            exact ⟨.empty, rfl⟩
          · exact ⟨txn.log, h⟩
      dsimp only
      -- The new transaction gets a number of its own, and so takes the place of nobody.
      cases hrestart : d.restart c db.clock.read.1 with
      | error e => exact hcleared
      | ok placed =>
        unfold Directory.restart at hrestart
        split at hrestart
        · cases hrestart
        · cases hrestart
          obtain ⟨log, hfound⟩ := hcleared
          exact ⟨log, Directory.find?_place_of_some _ _ hfound⟩
  · exact ⟨txn.log, h⟩

omit [Backend σ] in
/-- Replacing a transaction lets no operation in. -/
theorem Ends.replace {restart : Bool} {c : ConnectionId}
    (h : db.Ends t (.draining (.discard restart) result)) :
    (db.replace c t).1.Ends t (.draining (.discard restart) result) := by
  obtain ⟨txn, hfound, hidle⟩ := h
  obtain ⟨log, hreplaced⟩ := find?_replace c t hfound
  exact ⟨_, hreplaced, hidle⟩

/-- A rollback or an abort may end. -/
theorem leads_endDiscard {restart : Bool}
    (hends : db.Ends me.txn (.draining (.discard restart) result)) :
    Leads i op me db (.draining (.discard restart) result) []
      (db.endDiscard i op.connection me.txn restart result) := by
  have hforgotten : (db.forgetLocks me.txn).Ends me.txn (.draining (.discard restart) result) :=
    hends
  refine (Move.forget hends).leads ?_
  unfold endDiscard
  dsimp only
  split
  · exact (Move.replace hforgotten).leads (leads_retire hforgotten.replace _)
  · refine (Move.separate hforgotten).leads (leads_retire ?_ _)
    rw [separate_eq]
    exact hends

/-- A call may go on when no operation is in flight. -/
theorem leads_afterDrain (hfound : db.directory.find? me.txn = some txn)
    (hidle : txn.inFlight = 0) :
    Leads i op me db (.draining purpose result) []
      (db.afterDrain i op.connection me.txn purpose result) := by
  unfold afterDrain
  cases purpose with
  | discard restart => exact leads_endDiscard ⟨txn, hfound, hidle⟩
  | commit =>
    dsimp only
    rw [hfound]
    have hsnapshot : Move i op me db (.draining .commit result) [] db
        (.applying (db.plan txn.log.entries) result) := .snapshot hfound hidle
    split
    · rename_i hplan
      -- Nothing is to be applied, and the turn goes on to the end.
      have hplan : db.plan txn.log.entries = [] := hplan
      rw [hplan] at hsnapshot
      exact hsnapshot.leads ((Move.apply []).leads (leads_endCommit [] [] result result))
    · exact hsnapshot.leads (leads_putDown (.applying _ _) trivial)

/-- A call may wait until no operation is in flight. -/
theorem leads_drain (hfound : db.directory.find? me.txn = some txn) :
    Leads i op me db (.draining purpose result) []
      (db.drain i op.connection me.txn purpose result) := by
  unfold drain
  rw [hfound]
  dsimp only
  by_cases hidle : txn.inFlight = 0
  · have hawait : txn.awaitIdle i = (txn, true) := if_pos hidle
    rw [hawait]
    exact leads_afterDrain hfound hidle
  · -- The call is parked in the transaction, once however often it comes here.
    have hpark : Move i op me db (.draining purpose result) [] _ (.draining purpose result) :=
      .park hfound hidle
    have hawait : ∃ parked, txn.awaitIdle i = (parked, false) ∧ i ∈ parked.parked := by
      unfold Transaction.awaitIdle
      rw [if_neg hidle]
      split
      · rename_i hparked
        exact ⟨txn, rfl, hparked⟩
      · exact ⟨_, rfl, List.mem_append_right _ List.mem_cons_self⟩
    obtain ⟨parked, heq, hmem⟩ := hawait
    rw [heq] at hpark ⊢
    refine hpark.leads (leads_putDown (.draining purpose result) ⟨parked, ?_, hmem⟩)
    exact (Directory.find?_set hfound parked me.txn).trans (if_pos rfl)

omit [Backend σ] in
/-- What is found under the identifier of a transaction that moves out of its active life. -/
theorem find?_turnTo {target : Phase} (h : db.turnTo t target = .ok db') :
    ∃ txn, db'.directory.find? t = some txn := by
  obtain ⟨txn, hfound, -, rfl⟩ := turnTo_ok h
  exact ⟨_, (Directory.find?_set hfound _ t).trans (if_pos rfl)⟩

/-- A connection may commit. If it is a statement that commits, it commits its own transaction. -/
theorem leads_commit {expected : Option TransactionId} (hidle : op.IdlesAt stand)
    (hown : op.call = .commit ∨ op.opened)
    (hmine : ∀ t, db.attached.get? op.connection = some t → expected.all (· = t) → t = me.txn) :
    Leads i op me db stand [] (db.commit i op.connection expected result) := by
  unfold commit
  split
  · exact leads_finish hidle _
  · rename_i t hattached
    split
    · rename_i hexpected
      obtain rfl := hmine t hattached hexpected
      cases hturn : db.turnTo me.txn .committing with
      | error e => exact leads_finish hidle _
      | ok db' =>
        obtain ⟨txn, hfound⟩ := find?_turnTo hturn
        exact (Move.close hidle hown hattached hturn result).leads (leads_drain hfound)
    · exact leads_finish hidle _

/-- A transaction that moves on to abort may be discarded. -/
theorem leads_discard {restart : Bool} (hidle : op.IdlesAt stand)
    (hattached : db.attached.get? op.connection = some me.txn)
    (hturn : db.turnTo me.txn .aborting = .ok db') :
    Leads i op me db stand [] (db'.discard i op.connection me.txn restart result) := by
  obtain ⟨txn, hfound⟩ := find?_turnTo hturn
  have hreleased : (db'.releaseLocks me.txn).directory.find? me.txn = some txn := hfound
  exact (Move.discard hidle hattached hturn restart result).leads (leads_drain hreleased)

/-- A connection may roll back. -/
theorem leads_rollback (hidle : op.IdlesAt stand)
    (hmine : ∀ t, db.attached.get? op.connection = some t → t = me.txn) :
    Leads i op me db stand [] (db.rollback i op.connection) := by
  unfold rollback
  split
  · exact leads_finish hidle _
  · rename_i t hattached
    obtain rfl := hmine t hattached
    cases hturn : db.turnTo me.txn .aborting with
    | error e => exact leads_finish hidle _
    | ok db' => exact leads_discard hidle hattached hturn

/-- A connection may disconnect. -/
theorem leads_disconnect (hidle : op.IdlesAt stand)
    (hmine : ∀ t, db.attached.get? op.connection = some t → t = me.txn) :
    Leads i op me db stand [] (db.disconnect i op.connection) := by
  unfold disconnect
  split
  · exact leads_rollback hidle hmine
  · exact leads_finish hidle _

/-- A transaction may be aborted. -/
theorem leads_abort (hidle : op.IdlesAt stand) (why : Lock.Refusal) :
    Leads i op me db stand [] (db.abort i op.connection me.txn why) := by
  unfold abort
  dsimp only
  split
  · rename_i hattached
    cases hturn : db.turnTo me.txn .aborting with
    | error e => exact leads_finish hidle _
    | ok db' => exact leads_discard hidle hattached hturn
  · exact leads_finish hidle _

/-! ## Running statements -/

/-- A statement ends after its operation has left its transaction. -/
theorem leads_conclude (db : Database σ) (i : TaskId) (op : Operation) (me : Lock.Holder)
    (ending : Ending) : ∃ result,
      Leads i op me (db.leave me.txn) (.finished result) [] (db.conclude i op me.txn ending) := by
  have hidle : ∀ result, op.IdlesAt (.finished result) :=
    fun result => ⟨rfl, Bool.and_false _⟩
  -- An implicit transaction is committed with its statement, any other one stays open.
  have hclose : ∀ result : Result, Leads i op me (db.leave me.txn) (.finished result) []
      (if op.opened then (db.leave me.txn).commit i op.connection (some me.txn) result
        else (db.leave me.txn).finish i result) := by
    intro result
    split
    · rename_i hopened
      refine leads_commit (hidle _) (.inr hopened) fun t _ hexpected => ?_
      exact (of_decide_eq_true hexpected).symm
    · exact leads_finish (hidle _) _
  cases ending with
  | done value => exact ⟨_, hclose (.ok value)⟩
  | failed e => exact ⟨_, hclose (.error e)⟩
  | refused why =>
    have habort : Leads i op me (db.leave me.txn) (.finished (.ok none)) []
        ((db.leave me.txn).abort i op.connection me.txn why) := leads_abort (hidle _) why
    cases why with
    | released => exact ⟨.ok none, leads_finish (hidle _) _⟩
    | conflict => exact ⟨_, habort⟩
    | timeout => exact ⟨_, habort⟩
  | broken text => exact ⟨.ok none, leads_finish (hidle _) _⟩

omit [Backend σ] in
/-- Taking over locks that have told nobody anything wakes nobody. -/
theorem withLocks_of_resolved {m : Lock.Manager} (h : m.resolved = db.locks.resolved) :
    db.withLocks m = { db with locks := m } := by
  have hended : m.endedSince db.locks = [] := by
    unfold Lock.Manager.endedSince
    rw [h, List.drop_length]
    rfl
  unfold withLocks
  rw [hended]
  unfold wake
  exact congrArg (fun ready => ({ db with locks := m, ready := ready } : Database σ))
    (List.append_nil _)

/-- An operation that is not at work any more does not begin to work again. -/
theorem Move.not_working (hmove : Move i op me db stand writes db' stand')
    (h : stand.isWorking = false) : stand'.isWorking = false := by
  cases hmove with
  | ask call aims asked => cases h
  | look call looked => cases h
  | read call working aims => rw [working] at h; cases h
  | fetch call working aims row => rw [working] at h; cases h
  | buffer call working target write => exact h
  | leave call working result => rfl
  | tell idle result => rfl
  | close idle own attached turned result => rfl
  | discard idle attached turned restart result => rfl
  | park found busy => rfl
  | snapshot found idle => rfl
  | apply errors => rfl
  | release => rfl
  | forget ends => exact h
  | separate ends => exact h
  | replace ends => rfl
  | retire ends result => rfl

/-- Nor does it in several moves. -/
theorem Moves.not_working (hmoves : Moves i op me db stand writes db' stand')
    (h : stand.isWorking = false) : stand'.isWorking = false := by
  induction hmoves with
  | nil => exact h
  | cons move _ ih => exact ih (move.not_working h)

end

end Database

end TxStore
