import TxStore.Proofs.Database.Commits

/-!
# Turns that execute a statement

A statement of a connection that makes one call at a time is the only operation of its transaction
in flight (`Executes`). Each of its turns leaves all sessions in order: either it has found out more
(`Executes.move`), or it has ended with the result that it yields when it is executed alone
(`Executes.conclude`), or it was refused its lock, and then its transaction is aborted and takes no
part in the order of the commits (`Executes.refuse`).
-/

namespace TxStore

/-- What the caller of a statement is told, if that is up to the statement. -/
def Database.Ending.result? : Database.Ending → Option Result
  | .done value => some (.ok value)
  | .failed e => some (.error e)
  | .refused _ | .broken _ => none

namespace Database

variable {first db : Database MemoryTable} {c : ConnectionId} {t : TransactionId}
  {txn : Transaction} {past : List (Statement × Result)} {s : Statement} {r : Result}
  {earlier : List (TaskId × Operation)} {i : TaskId} {op : Operation} {me : Lock.Holder}
  {target : Target}

/-- A connection executes a statement of its transaction. -/
structure Executes (first db : Database MemoryTable) (c : ConnectionId) (t : TransactionId)
    (txn : Transaction) (earlier : List (TaskId × Operation)) (i : TaskId) (op : Operation)
    (me : Lock.Holder) (past : List (Statement × Result)) (s : Statement) : Prop where
  /-- It is the connection's turn. -/
  turn : Turn first db c t
  /-- The statement is its last call. -/
  busy : db.Busy c t txn earlier i op me past
  /-- The transaction is not committed. -/
  uncommitted : ¬ db.Committed t
  /-- It is active. -/
  phase : txn.phase = .active
  /-- The statement is its only operation in flight. -/
  entered : txn.inFlight = 1
  /-- The call is the statement. -/
  call : op.call = .statement s

/-- A statement may go on later, when it has found out what it knows where it stands then. -/
theorem Executes.move {stand : Stand} (h : Executes first db c t txn earlier i op me past s)
    (tracks : db.Tracks t txn.log past) (midway : db.Midway t txn.log s stand)
    (htwoPhase : (db.setStand i stand).TwoPhase) (ready : List TaskId) (clock : Clock) :
    Serialized first { db.setStand i stand with ready := ready, clock := clock } := by
  obtain ⟨hop, hconnection⟩ := h.busy.last.task
  have hturn := h.turn.setStand hop hconnection (h.busy.item?_eq h.uncommitted stand) htwoPhase
  have hbusy := h.busy.setStand stand
  have huncommitted := h.uncommitted
  rw [← committed_setStand db i stand] at huncommitted
  rw [setStand_eq] at *
  exact Turn.close (hturn.idle ready clock) (.running (hbusy.of_eq rfl rfl rfl) huncommitted h.phase
    h.entered h.call (midway.mono rfl rfl (fun _ h => h) fun _ _ => rfl)
    (tracks.of_eq rfl rfl rfl))

/-- What leaving a transaction comes to when no other operation of it is in flight. -/
theorem Executes.leave_eq (h : Executes first db c t txn earlier i op me past s) :
    db.leave t = (db.withDirectory
      (db.directory.set t { txn with inFlight := 0, parked := [] })).wake txn.parked := by
  unfold Database.leave Transaction.deregister
  rw [h.busy.owns.found]
  dsimp only
  rw [if_pos h.entered]

/-- A statement may leave its transaction. -/
theorem Executes.leave (h : Executes first db c t txn earlier i op me past s) :
    Turn first (db.leave t) c t ∧
      (db.leave t).Busy c t { txn with inFlight := 0, parked := [] } earlier i op me past := by
  rw [h.leave_eq]
  have hturn : Turn first
      (db.withDirectory (db.directory.set t { txn with inFlight := 0, parked := [] })) c t :=
    h.turn.set h.busy.owns.found rfl rfl (fun hopen => hopen) fun e he => .inl he
  have hbusy : (db.withDirectory
      (db.directory.set t { txn with inFlight := 0, parked := [] })).Busy c t
      { txn with inFlight := 0, parked := [] } earlier i op me past := h.busy.set rfl
  exact ⟨hturn.idle _ _, hbusy.of_eq rfl rfl rfl⟩

/-- A statement may end with the result that it yields alone. -/
theorem Executes.conclude {ending : Ending} (h : Executes first db c t txn earlier i op me past s)
    (hending : ending.result? = some r) (tracks : db.Tracks t txn.log (past ++ [(s, r)])) :
    Serialized first (db.conclude i op t ending) := by
  obtain ⟨hturn, hbusy⟩ := h.leave
  have htold : op.told r = [(s, r)] := by
    unfold Operation.told
    rw [h.call]
  have htracks : (db.leave t).Tracks t txn.log (past ++ op.told r) := by
    rw [htold, h.leave_eq]
    exact tracks.of_eq rfl rfl rfl
  have huncommitted : ¬ (db.leave t).Committed t := by
    rw [h.leave_eq]
    exact h.uncommitted
  have hsuccess : op.call = .commit → r = .ok none := by
    intro hcommit
    rw [h.call] at hcommit
    cases hcommit
  -- A transaction that the statement has opened is committed with it, any other goes on.
  have hclose : Serialized first
      (if op.opened then (db.leave t).commit i op.connection (some t) r
        else (db.leave t).finish i r) := by
    split
    · rw [h.busy.last.task.2]
      exact hturn.commit hbusy huncommitted h.phase rfl htracks hsuccess (decide_eq_true rfl)
    · exact hturn.finish hbusy huncommitted h.phase rfl htracks hsuccess
  cases ending with
  | done value =>
    cases hending
    exact hclose
  | failed e =>
    cases hending
    exact hclose
  | refused why => cases hending
  | broken text => cases hending

/-- A statement may be refused its lock. -/
theorem Executes.refuse {why : Lock.Refusal}
    (h : Executes first db c t txn earlier i op me past s) (hwhy : why ≠ .released) :
    Serialized first (db.conclude i op t (.refused why)) := by
  obtain ⟨hturn, hbusy⟩ := h.leave
  have huncommitted : ¬ (db.leave t).Committed t := by
    rw [h.leave_eq]
    exact h.uncommitted
  have hcall : op.call ≠ .commit := by
    rw [h.call]
    exact nofun
  -- An active transaction has not released its locks, so it is aborted for another reason.
  have habort : db.conclude i op t (.refused why) = (db.leave t).abort i op.connection t why := by
    cases why with
    | released => exact absurd rfl hwhy
    | conflict => rfl
    | timeout => rfl
  rw [habort, h.busy.last.task.2]
  exact hturn.abort hbusy huncommitted h.phase rfl hcall why

/-- What buffering a write comes to. -/
theorem buffer_eq (owns : db.Owns c t txn) (target : Target) (key : Value) (write : Write) :
    db.buffer t target key write = db.withDirectory
      (db.directory.set t { txn with log := txn.log.append target.id key write }) := by
  unfold Database.buffer Directory.modifyLog Directory.modify
  rw [owns.found]

/-- A statement may buffer a write of the row that its transaction has locked. -/
theorem Executes.buffer {key : Value} (h : Executes first db c t txn earlier i op me past s)
    (writes : db.Writes t ⟨target.id, key⟩) (write : Write) :
    Executes first (db.buffer t target key write) c t
      { txn with log := txn.log.append target.id key write } earlier i op me past s := by
  rw [buffer_eq h.busy.owns]
  refine ⟨h.turn.set h.busy.owns.found rfl rfl (fun hopen => hopen) fun e he => ?_, h.busy.set rfl,
    h.uncommitted, h.phase, h.entered, h.call⟩
  rcases WriteBuffer.mem_entries_append he with he | rfl
  · exact .inl he
  · exact .inr fun _ => writes

/-- A write that was buffered may end its statement. -/
theorem Executes.conclude_buffer {key : Value} {write : Write}
    (h : Executes first db c t txn earlier i op me past s) (writes : db.Writes t ⟨target.id, key⟩)
    (tracks : db.Tracks t (txn.log.append target.id key write) (past ++ [(s, .ok none)])) :
    Serialized first ((db.buffer t target key write).conclude i op t (.done none)) := by
  refine (h.buffer writes write).conclude rfl ?_
  rw [buffer_eq h.busy.owns]
  exact tracks.of_eq rfl rfl rfl

/-! ## The lock and the row -/

/-- A statement that has to read its row may do so later. -/
theorem Executes.read (h : Executes first db c t txn earlier i op me past s)
    (reads : db.Reads t txn.log s target) (tracks : db.Tracks t txn.log past) :
    Serialized first ((db.setStand i (.reading target)).wake [i]) := by
  have hbacks : db.Backs me.txn s.key (.reading target) := by
    rw [h.busy.txn]
    exact fun _ => reads.writes
  have midway : db.Midway t txn.log s (.reading target) := reads
  exact h.move tracks midway (h.turn.twoPhase.setStand_of_runs h.busy.runs h.call hbacks) _ _

/-- A statement may go on with its lock. -/
theorem Executes.locked (h : Executes first db c t txn earlier i op me past s)
    (located : db.Located s target) (writes : db.Writes t ⟨target.id, s.key⟩)
    (tracks : db.Tracks t txn.log past) : Serialized first (db.locked i op t s target) := by
  have hbuffered : ∀ key, db.buffered? t target key = txn.log.newest? target.id key := by
    intro key
    unfold Database.buffered?
    rw [h.busy.owns.found]
    rfl
  have hsees : ∀ w, txn.log.newest? target.id s.key = some w →
      txn.log.overlay db.contents ⟨target.id, s.key⟩ = w.value? := by
    intro w hnewest
    unfold WriteBuffer.overlay
    rw [hnewest]
  -- What the statement does without the table depends on the newest write of its row.
  unfold Database.locked
  cases s with
  | put table key value => exact h.conclude_buffer writes (tracks.put located.locate)
  | get table key =>
    have hget := tracks.get located.locate writes
    dsimp only
    cases hnewest : txn.log.newest? target.id key with
    | none =>
      rw [hbuffered, hnewest]
      -- Without a write of its own the transaction sees the table, and has to read it.
      exact h.read ⟨located, rfl, hnewest, writes⟩ tracks
    | some w =>
      rw [hsees w hnewest] at hget
      rw [hbuffered, hnewest]
      cases w with
      | put value => exact h.conclude rfl hget
      | delete => exact h.conclude rfl hget
  | delete table key =>
    dsimp only
    cases hnewest : txn.log.newest? target.id key with
    | none =>
      rw [hbuffered, hnewest]
      exact h.read ⟨located, rfl, hnewest, writes⟩ tracks
    | some w =>
      rw [hbuffered, hnewest]
      cases w with
      | put value =>
        -- It has written the row itself, which is there for it, and is removed by one more write.
        exact h.conclude_buffer writes (tracks.delete located.locate writes (hsees _ hnewest))
      | delete =>
        exact h.conclude rfl (tracks.delete_none located.locate writes (hsees _ hnewest))

/-- The row of a statement that does not insert is read as the contents have it. -/
theorem Located.readRow_eq (located : db.Located s target) (hvalue : s.value? = none) :
    db.readRow target s.key = db.contents.read ⟨target.id, s.key⟩ := by
  obtain ⟨entry, hentry, hplace⟩ := located.entry
  obtain ⟨entry', table, hentry', htable, hcheck, -⟩ := locate_ok located.locate
  have hsame : entry' = entry := Option.some.inj (hentry'.symm.trans hentry)
  have hcontents : db.contents ⟨target.id, s.key⟩ = table.rows.get? s.key := of_eq hentry' htable
  rw [hsame, hplace] at htable
  rw [hvalue] at hcheck
  unfold Database.readRow Contents.read
  rw [htable, hcontents]
  show Outcome.ofExcept (table.get s.key) = _
  rw [MemoryTable.get_eq hcheck]
  cases table.rows.get? s.key <;> rfl

/-- A statement may go on with its row. -/
theorem Executes.fetched {row : Outcome Value}
    (h : Executes first db c t txn earlier i op me past s) (reads : db.Reads t txn.log s target)
    (hrow : row = db.contents.read ⟨target.id, s.key⟩) (tracks : db.Tracks t txn.log past) :
    Serialized first (db.fetched i op t s target row) := by
  have hsees : txn.log.overlay db.contents ⟨target.id, s.key⟩ =
      db.contents ⟨target.id, s.key⟩ := by
    unfold WriteBuffer.overlay
    rw [reads.unwritten]
  -- The transaction has not written the row, so it sees what the table holds.
  unfold Contents.read at hrow
  unfold Database.fetched
  cases s with
  | put table key value => cases reads.value
  | get table key =>
    have hget := tracks.get reads.located.locate reads.writes
    rw [hsees] at hget
    rw [hrow]
    cases hthere : db.contents ⟨target.id, (Statement.get table key).key⟩ with
    | none =>
      rw [hthere] at hget
      exact h.conclude rfl hget
    | some v =>
      rw [hthere] at hget
      exact h.conclude rfl hget
  | delete table key =>
    rw [hrow]
    cases hthere : db.contents ⟨target.id, (Statement.delete table key).key⟩ with
    | none =>
      exact h.conclude rfl
        (tracks.delete_none reads.located.locate reads.writes (hsees.trans hthere))
    | some v =>
      exact h.conclude_buffer reads.writes
        (tracks.delete reads.located.locate reads.writes (hsees.trans hthere))

/-- A statement may go on when it has asked for its lock, or looked for the answer. -/
theorem Executes.acquired {turn : Lock.Manager × Lock.Acquisition}
    (h : Executes first db c t txn earlier i op me past s) (located : db.Located s target)
    (settles : db.locks.Settles db.Shut t ⟨target.id, s.key⟩ turn)
    (tracks : db.Tracks t txn.log past) : Serialized first (db.acquired i op t s target turn) := by
  obtain ⟨m, acquisition⟩ := turn
  have hopen : ¬ db.Shut t := h.busy.owns.not_shut (.inl h.phase)
  have htaken : Executes first (db.withLocks m) c t txn earlier i op me past s :=
    ⟨h.turn.withLocks settles.continues, h.busy.of_eq rfl rfl rfl, h.uncommitted, h.phase, h.entered,
      h.call⟩
  have hlocated : (db.withLocks m).Located s target := located.mono rfl rfl
  have htracks : (db.withLocks m).Tracks t txn.log past :=
    tracks.mono rfl (fun k hk => settles.continues.writes k t hopen hk) fun _ _ => rfl
  cases acquisition with
  | answered answer =>
    cases answer with
    | ok got => exact htaken.locked hlocated (settles.granted rfl hopen) htracks
    | error why => exact htaken.refuse (settles.refused why rfl hopen)
  | waiting w =>
    -- The request is queued in the new locks, so they have to be taken over first.
    have hbacks : (db.withLocks m).Backs me.txn s.key (.locking target w) := by
      rw [h.busy.txn]
      exact settles.waiting w rfl
    have htwoPhase := htaken.turn.twoPhase.setStand_of_runs htaken.busy.runs h.call hbacks
    have hmidway : (db.withLocks m).Midway t txn.log s (.locking target w) := hlocated
    have hswap : (db.setStand i (.locking target w)).withLocks m =
        { (db.withLocks m).setStand i (.locking target w) with
          ready := ((db.setStand i (.locking target w)).withLocks m).ready
          clock := db.clock } := by
      rw [setStand_eq, setStand_eq]
      rfl
    show Serialized first ((db.setStand i (.locking target w)).withLocks m)
    rw [hswap]
    exact htaken.move htracks hmidway htwoPhase _ _

/-- A statement may begin. -/
theorem Executes.begin (h : Executes first db c t txn earlier i op me past s)
    (tracks : db.Tracks t txn.log past) : Serialized first (db.begin i op me s) := by
  unfold Database.begin
  rw [h.busy.txn]
  -- A statement that fails a check ends here, and `Serial.locate` refuses it for the same cause.
  cases hlook : db.registry.lookUp s.table with
  | error cause =>
    have hlocate : db.locate s = .error (.one cause) := by
      simp only [locate, Serial.locate, hlook]
    exact h.conclude rfl (tracks.refuse hlocate)
  | ok found =>
    obtain ⟨id, entry⟩ := found
    dsimp only
    cases htable : db.store[entry.table]? with
    | none =>
      have hlocate : db.locate s = .error (.one (.tableNotFound s.table)) := by
        simp only [locate, Serial.locate, hlook, htable]
      exact h.conclude rfl (tracks.refuse hlocate)
    | some table =>
      dsimp only
      cases hcheck : table.check s.key s.value? with
      | error e =>
        have hvalidate : Backend.validate table s.key s.value? = .failed e :=
          congrArg Outcome.ofExcept hcheck
        have hlocate : db.locate s = .error (.one (.table e)) := by
          simp only [locate, Serial.locate, hlook, htable, hcheck]
        rw [hvalidate]
        exact h.conclude rfl (tracks.refuse hlocate)
      | ok u =>
        have hvalidate : Backend.validate table s.key s.value? = .done () :=
          congrArg Outcome.ofExcept hcheck
        have hlocate : db.locate s = .ok ⟨id, s.key⟩ := by
          simp only [locate, Serial.locate, hlook, htable, hcheck]
        rw [hvalidate]
        have hsettles := h.turn.twoPhase.locks.acquire db.now me ⟨id, s.key⟩
        rw [h.busy.txn] at hsettles
        exact h.acquired ⟨hlocate, entry, Registry.get?_of_lookUp hlook, rfl⟩ hsettles tracks

/-- A connection that executes a statement may take its turn. -/
theorem Executes.resume (h : Executes first db c t txn earlier i op me past s)
    (tracks : db.Tracks t txn.log past)
    (midway : db.Midway t txn.log s op.stand) : Serialized first (db.resumeOperation i op me) := by
  have hbacked := h.turn.twoPhase.backed i op me s h.busy.runs h.call
  unfold resumeOperation
  rw [h.call]
  -- The invariants tell what the statement has found out and what the locks have granted it.
  cases hstand : op.stand with
  | issued => exact h.begin tracks
  | locking target w =>
    rw [hstand] at midway hbacked
    obtain ⟨hkey, hawaits⟩ := hbacked
    have hpoll := h.turn.twoPhase.locks.poll db.now hawaits
    rw [hkey, h.busy.txn] at hpoll
    dsimp only
    rw [h.busy.txn]
    exact h.acquired midway hpoll tracks
  | reading target =>
    rw [hstand] at midway hbacked
    have hmidway : db.Midway t txn.log s (.fetched target (db.readRow target s.key)) :=
      ⟨midway, midway.located.readRow_eq midway.value⟩
    have hbacks : db.Backs me.txn s.key (.fetched target (db.readRow target s.key)) := hbacked
    exact h.move tracks hmidway (h.turn.twoPhase.setStand_of_runs h.busy.runs h.call hbacks) _ _
  | fetched target row =>
    rw [hstand] at midway
    obtain ⟨hreads, hrow⟩ := midway
    dsimp only
    rw [h.busy.txn]
    exact h.fetched hreads hrow tracks
  | draining purpose result =>
    rw [hstand] at midway
    exact midway.elim
  | applying plan result =>
    rw [hstand] at midway
    exact midway.elim
  | applied errors result =>
    rw [hstand] at midway
    exact midway.elim
  | finished result =>
    rw [hstand] at midway
    exact midway.elim

end Database

end TxStore
