import TxStore.Proofs.Database.Contents
import TxStore.Proofs.Database.Moves

/-!
# The bodies of statements

The body of a statement is what it does between its turn at the lock of its row and the moment in
which it leaves its transaction. It may take several turns. `bodyEnding?` tells whether it ends in
the next one, and how: the table must be there, the row must fit it and its lock must be granted,
and the row of a read or a delete must be there. A put or a delete that succeeds has then buffered
its write, and nothing else is ever buffered (`Works`). So `turnWrites` tells the writes of a turn
from the way in which a body ends in it.
-/

namespace TxStore

/-- The table on which an operation works, by the name that its statement gives if it has not looked
it up. -/
def Operation.tableOf (op : Operation) (registry : Registry TableRef) (s : Statement) : TableId :=
  match op.stand.target? with
  | some target => target.id
  | none => registry.tableId s.table

namespace Database

variable {σ : Type} {db mid db' : Database σ} {i : TaskId} {op : Operation} {me : Lock.Holder}
  {txn : Transaction} {stand stand' : Stand} {s : Statement} {target : Target} {table : TableId}
  {ending : Option Ending}

/-- How a body ends with the lock of its row. If the row has to be read, it goes on. -/
def lockedEnding? (db : Database σ) (t : TransactionId) (target : Target) :
    Statement → Option Ending
  | .put _ _ _ => some (.done none)
  | .get _ key =>
    match db.buffered? t target key with
    | some (.put value) => some (.done (some value))
    | some .delete => some (.failed (.one (.table (.keyNotFound key))))
    | none => none
  | .delete _ key =>
    match db.buffered? t target key with
    | some (.put _) => some (.done none)
    | some .delete => some (.failed (.one (.table (.keyNotFound key))))
    | none => none

/-- How a body ends that has read its row. -/
def fetchedEnding (s : Statement) : Outcome Value → Ending
  | .failed e => .failed (.one (.table e))
  | .broken text => .failed (.one (.taskFailed text))
  | .done value =>
    match s with
    | .delete _ _ => .done none
    | .get _ _ | .put _ _ _ => .done (some value)

/-- How a body ends that has asked for its lock or looked for the answer. If it has to wait, it goes
on. -/
def acquiredEnding? (db : Database σ) (t : TransactionId) (target : Target) (s : Statement) :
    Lock.Acquisition → Option Ending
  | .answered (.ok ()) => db.lockedEnding? t target s
  | .answered (.error why) => some (.refused why)
  | .waiting _ => none

/-- How the body of an operation ends in its next turn, if it does. -/
def bodyEnding? [Backend σ] (db : Database σ) (op : Operation) (me : Lock.Holder) :
    Option Ending :=
  match op.call with
  | .commit | .rollback | .disconnect => none
  | .statement s =>
    match op.stand with
    | .issued =>
      match db.registry.lookUp s.table with
      | .error e => some (.failed (.one e))
      | .ok (id, entry) =>
        match db.store[entry.table]? with
        | none => some (.failed (.one (.tableNotFound s.table)))
        | some table =>
          match Backend.validate table s.key s.value? with
          | .failed e => some (.failed (.one (.table e)))
          | .broken text => some (.broken text)
          | .done () =>
            db.acquiredEnding? me.txn ⟨id, entry.table⟩ s
              (db.locks.acquire db.now .write me ⟨id, s.key⟩).2
    | .locking target w => db.acquiredEnding? me.txn target s (db.locks.poll db.now w).2
    | .fetched _ row => some (fetchedEnding s row)
    | .reading _ | .draining _ _ | .applying _ _ | .applied _ _ | .finished _ => none

/-- The write of a body that ends so, if it ends with one. A body that succeeds without a value to
tell has written. -/
def entriesAt (table : TableId) (s : Statement) : Option Ending → List WriteEntry
  | some (.done none) => s.write?.toList.map fun w => ⟨table, s.key, w⟩
  | some (.done (some _)) | some (.failed _) | some (.refused _) | some (.broken _) |
    none => []

/-- The writes that an operation buffers in its next turn: none or one. -/
def turnWrites [Backend σ] (db : Database σ) (op : Operation) (me : Lock.Holder) :
    List WriteEntry :=
  match op.call with
  | .statement s => entriesAt (op.tableOf db.registry s) s (db.bodyEnding? op me)
  | .commit | .rollback | .disconnect => []

/-- What a turn does to a body. -/
inductive Works [Backend σ] (i : TaskId) (op : Operation) (me : Lock.Holder) (db : Database σ)
    (stand : Stand) (table : TableId) (s : Statement) : Option Ending → Database σ → Prop where
  /-- The body ends and has buffered its write, and then the statement ends. -/
  | ends {mid : Database σ} {stand' : Stand} {ending : Ending}
      (moves : Moves i op me db stand (entriesAt table s (some ending)) mid stand')
      (working : stand'.isWorking) :
      Works i op me db stand table s (some ending) (mid.conclude i op me.txn ending)
  /-- It goes on. -/
  | goesOn {mid : Database σ} {stand' : Stand} (moves : Moves i op me db stand [] mid stand')
      (working : stand'.isWorking) (waits : mid.Waits i me.txn stand') :
      Works i op me db stand table s none (mid.putDown i stand')

section

variable [Backend σ]

/-- Moves can be chained. -/
theorem Moves.append {writes writes' : List WriteEntry}
    (h : Moves i op me db stand writes mid stand') {stand'' : Stand}
    (h' : Moves i op me mid stand' writes' db' stand'') :
    Moves i op me db stand (writes ++ writes') db' stand'' := by
  induction h with
  | nil => exact h'
  | cons move _ ih =>
    rw [List.append_assoc]
    exact .cons move (ih h')

/-- A turn that works on a body makes moves and puts the operation down. -/
theorem Works.leads (h : Works i op me db stand table s ending db')
    (hcall : op.call = .statement s) :
    Leads i op me db stand (entriesAt table s ending) db' := by
  cases h with
  | ends moves working =>
    rename_i mid stand' ending
    obtain ⟨result, last, final, hmoves, hwaits, heq⟩ := leads_conclude mid i op me ending
    have hleave := Moves.cons (Move.leave hcall working result) hmoves
    rw [List.nil_append] at hleave
    have hall := moves.append hleave
    rw [List.append_nil] at hall
    exact ⟨last, final, hall, hwaits, heq⟩
  | goesOn moves working waits => exact ⟨_, _, moves, waits, rfl⟩

/-- A turn may begin with a move that buffers nothing. -/
theorem Move.works (move : Move i op me db stand [] mid stand')
    (h : Works i op me mid stand' table s ending db') :
    Works i op me db stand table s ending db' := by
  cases h with
  | ends moves working => exact .ends (.cons move moves) working
  | goesOn moves working waits => exact .goesOn (.cons move moves) working waits

/-- A body may end without a write. -/
theorem works_end {ending : Ending} (hworking : stand.isWorking)
    (hnothing : entriesAt table s (some ending) = []) :
    Works i op me db stand table s (some ending) (db.conclude i op me.txn ending) :=
  .ends (hnothing.symm ▸ .nil) hworking

/-- It may end with a write. -/
theorem works_buffer {write : Write} (hcall : op.call = .statement s) (hworking : stand.isWorking)
    (hwrite : s.write? = some write) :
    Works i op me db stand target.id s (some (.done none))
      ((db.buffer me.txn target s.key write).conclude i op me.txn (.done none)) := by
  have hmove : Move i op me db stand _ _ stand := .buffer hcall hworking target write
  have hmoves := Moves.cons hmove .nil
  refine .ends ?_ hworking
  unfold entriesAt
  rw [hwrite]
  exact hmoves

/-- A body may go on with its lock. -/
theorem works_locked (hcall : op.call = .statement s) (hworking : stand.isWorking)
    (haims : op.Aims db.registry target) :
    Works i op me db stand target.id s (db.lockedEnding? me.txn target s)
      (db.locked i op me.txn s target) := by
  have hread : Works i op me db stand target.id s none
      ((db.setStand i (.reading target)).wake [i]) :=
    .goesOn (.cons (.read hcall hworking haims) .nil) rfl trivial
  unfold Database.locked lockedEnding?
  cases s with
  | put name key value => exact works_buffer hcall hworking rfl
  | get name key =>
    dsimp only
    cases db.buffered? me.txn target key with
    | none => exact hread
    | some write =>
      cases write with
      | put value => exact works_end hworking rfl
      | delete => exact works_end hworking rfl
  | delete name key =>
    dsimp only
    cases db.buffered? me.txn target key with
    | none => exact hread
    | some write =>
      cases write with
      | put value => exact works_buffer hcall hworking rfl
      | delete => exact works_end hworking rfl

/-- A body may go on with its row. -/
theorem works_fetched (hcall : op.call = .statement s) (hworking : stand.isWorking)
    (row : Outcome Value) :
    Works i op me db stand target.id s (some (fetchedEnding s row))
      (db.fetched i op me.txn s target row) := by
  unfold Database.fetched fetchedEnding
  cases row with
  | failed e => exact works_end hworking rfl
  | broken text => exact works_end hworking rfl
  | done value =>
    cases s with
    | delete name key => exact works_buffer hcall hworking rfl
    | get name key => exact works_end hworking rfl
    | put name key value => exact works_end hworking rfl

/-- A body may go on when it has asked for its lock, or looked for the answer, and is not granted it
or has it from now on. -/
theorem works_acquired {turn : Lock.Manager × Lock.Acquisition} (target : Target)
    (hcall : op.call = .statement s) (hworking : stand.isWorking)
    (haims : op.Aims db.registry target)
    (hmove : Move i op me db stand [] (db.withLocks turn.1) (turn.2.standAt target stand))
    (hwaits : ∀ m w, turn = (m, .waiting w) →
      m.resolved = db.locks.resolved ∧ m.resolution? w.ticket = none) :
    Works i op me db stand target.id s (db.acquiredEnding? me.txn target s turn.2)
      (db.acquired i op me.txn s target turn) := by
  obtain ⟨m, acquisition⟩ := turn
  cases acquisition with
  | answered answer =>
    cases answer with
    | ok got => exact hmove.works (works_locked hcall hworking haims)
    | error why => exact hmove.works (works_end hworking rfl)
  | waiting w =>
    obtain ⟨hresolved, huntold⟩ := hwaits m w rfl
    have hsame : (db.setStand i (.locking target w)).withLocks m =
        (db.withLocks m).putDown i (.locking target w) := by
      have hresolved' : m.resolved = (db.setStand i (.locking target w)).locks.resolved := by
        rw [setStand_eq]
        exact hresolved
      rw [withLocks_of_resolved hresolved, withLocks_of_resolved hresolved']
      unfold putDown
      rw [setStand_eq, setStand_eq]
    show Works i op me db stand target.id s none ((db.setStand i (.locking target w)).withLocks m)
    rw [hsame]
    exact .goesOn (.cons hmove .nil) rfl huntold

/-- A body may begin. -/
theorem works_begin (hcall : op.call = .statement s) (hstand : op.stand = .issued) :
    Works i op me db .issued (db.registry.tableId s.table) s (db.bodyEnding? op me)
      (db.begin i op me s) := by
  unfold Database.begin bodyEnding?
  rw [hcall]
  dsimp only
  rw [hstand]
  dsimp only
  cases hlook : db.registry.lookUp s.table with
  | error e => exact works_end rfl rfl
  | ok found =>
    obtain ⟨id, entry⟩ := found
    dsimp only
    cases db.store[entry.table]? with
    | none => exact works_end rfl rfl
    | some table =>
      dsimp only
      cases Backend.validate table s.key s.value? with
      | failed e => exact works_end rfl rfl
      | broken text => exact works_end rfl rfl
      | done checked =>
        -- All checks have passed, and the turn asks for the lock.
        have haims : op.Aims db.registry ⟨id, entry.table⟩ := .inr ⟨s, entry, hcall, hlook⟩
        obtain rfl := Registry.tableId_of_lookUp hlook
        refine works_acquired ⟨_, entry.table⟩ hcall rfl haims (.ask hcall haims rfl)
          fun m w heq => ?_
        have hparked := Lock.Manager.acquire_waiting heq
        exact ⟨hparked.resolved, hparked.untold⟩

/-- A body may have a turn. -/
theorem works_resumeOperation (hcall : op.call = .statement s) (hworking : op.stand.isWorking) :
    Works i op me db op.stand (op.tableOf db.registry s) s (db.bodyEnding? op me)
      (db.resumeOperation i op me) := by
  have haims : ∀ {target}, op.stand.target? = some target → op.Aims db.registry target := .inl
  unfold Database.resumeOperation Operation.tableOf
  -- A stand outside the body contradicts that the operation is at work.
  cases hstand : op.stand with
  | issued =>
    rw [hcall]
    exact works_begin hcall hstand
  | locking target w =>
    unfold bodyEnding?
    rw [hcall]
    dsimp only
    rw [hstand]
    refine works_acquired target hcall rfl (haims (by rw [hstand]; rfl)) (.look hcall rfl)
      fun m w' heq => ?_
    obtain ⟨rfl, rfl, huntold⟩ := Lock.Manager.poll_waiting heq
    exact ⟨rfl, huntold⟩
  | reading target =>
    unfold bodyEnding?
    rw [hcall]
    dsimp only
    rw [hstand]
    exact .goesOn (.cons (.fetch hcall rfl (haims (by rw [hstand]; rfl)) _) .nil) rfl trivial
  | fetched target row =>
    unfold bodyEnding?
    rw [hcall]
    dsimp only
    rw [hstand]
    exact works_fetched hcall rfl row
  | draining purpose result => rw [hstand] at hworking; cases hworking
  | applying plan result => rw [hstand] at hworking; cases hworking
  | applied errors result => rw [hstand] at hworking; cases hworking
  | finished result => rw [hstand] at hworking; cases hworking

/-- An operation that is not at work has no body to end. -/
theorem bodyEnding?_of_not_working (h : op.stand.isWorking = false) :
    db.bodyEnding? op me = none := by
  unfold bodyEnding?
  split
  · rfl
  · rfl
  · rfl
  · generalize op.stand = stand at h ⊢
    cases stand with
    | draining | applying | applied | finished => rfl
    | issued | locking | reading | fetched => cases h

/-- An operation that is not over may be given a turn, if its transaction is known and only
statements are at work. -/
theorem leads_resumeOperation (db : Database σ) (hplaced : op.stand.isWorking → op.call.isStatement)
    (hfound : db.directory.find? me.txn = some txn)
    (hover : ∀ result, op.stand ≠ .finished result) :
    Leads i op me db op.stand (db.turnWrites op me) (db.resumeOperation i op me) := by
  by_cases hworking : op.stand.isWorking
  · have hcall := hplaced hworking
    unfold turnWrites
    cases hcall' : op.call with
    | statement s => exact (works_resumeOperation hcall' hworking).leads hcall'
    | commit => rw [hcall'] at hcall; cases hcall
    | rollback => rw [hcall'] at hcall; cases hcall
    | disconnect => rw [hcall'] at hcall; cases hcall
  · have hnothing : db.turnWrites op me = [] := by
      unfold turnWrites
      rw [bodyEnding?_of_not_working (Bool.eq_false_iff.mpr hworking)]
      split <;> rfl
    rw [hnothing]
    unfold resumeOperation
    cases hstand : op.stand with
    | issued => rw [hstand] at hworking; exact absurd rfl hworking
    | locking target w => rw [hstand] at hworking; exact absurd rfl hworking
    | reading target => rw [hstand] at hworking; exact absurd rfl hworking
    | fetched target row => rw [hstand] at hworking; exact absurd rfl hworking
    | draining purpose result => exact leads_drain hfound
    | applying plan result =>
      exact (Move.apply _).leads (leads_putDown (.applied _ result) trivial)
    | applied errors result => exact leads_endCommit errors errors result result
    | finished result => exact absurd hstand (hover result)

end

end Database

end TxStore
