import TxStore.Proofs.Database.Turns

/-!
# Turns that finish a transaction

A connection that makes one call at a time finishes its transaction when no operation of it is in
flight, so that it never waits for others: a commit goes on to apply its writes at once, and a
discard goes on to its end. Each of these turns ends with all sessions in order. The writes are
applied without an error, and what the tables hold then is what the statements of the transaction
leave when they are executed on what the tables held before (`Turn.apply`).

A commit without writes is recorded before its call is over. Recording commutes with the rest
(`endCommit_recordCommit`), and afterwards the history that is recorded is complete.
-/

namespace TxStore

/-- Without later errors a result is what it was. -/
@[simp] theorem Result.join_nil (r : Result) : r.join [] = r := by
  cases r <;> rfl

namespace Database

section

variable {σ : Type}

/-- An active transaction moves on. -/
theorem turnTo_eq {db : Database σ} {t : TransactionId} {txn : Transaction}
    (hfound : db.directory.find? t = some txn) (hactive : txn.phase = .active) (target : Phase) :
    db.turnTo t target =
      .ok (db.withDirectory (db.directory.set t { txn with phase := target })) := by
  unfold Database.turnTo Transaction.turnTo
  rw [hfound]
  dsimp only
  rw [if_pos hactive]

/-- Nobody waits for a transaction of which no operation is in flight. -/
theorem drain_eq {db : Database σ} {t : TransactionId} {txn : Transaction}
    (hfound : db.directory.find? t = some txn) (hidle : txn.inFlight = 0) (i : TaskId)
    (c : ConnectionId) (purpose : Purpose) (result : Result) :
    db.drain i c t purpose result = db.afterDrain i c t purpose result := by
  unfold Database.drain Transaction.awaitIdle
  rw [hfound]
  dsimp only
  rw [if_pos hidle]

/-- A commit may be recorded before its call is over or after it. -/
theorem endCommit_recordCommit (db : Database σ) (i : TaskId) (c : ConnectionId) (t : TransactionId)
    (plan : List PlannedWrite) (errors : List Error) (result : Result) :
    (db.recordCommit t plan).endCommit i c t errors result =
      (((((db.retire t).releaseLocks t).forgetLocks t).finish i (result.join errors)).recordCommit t
        plan).separate c t := by
  -- The list of commits and the tasks are changed apart from each other.
  have hfinish : ∀ db : Database σ, (db.recordCommit t plan).finish i (result.join errors) =
      (db.finish i (result.join errors)).recordCommit t plan := by
    intro db
    unfold finish
    rw [setStand_eq, setStand_eq]
    rfl
  rw [endCommit_eq, separate_finish, ← hfinish]
  rfl

end

variable {first db db' : Database MemoryTable} {c : ConnectionId} {t u : TransactionId}
  {txn txn' : Transaction} {log : WriteBuffer} {past : List (Statement × Result)}
  {r : Result} {earlier : List (TaskId × Operation)} {i : TaskId} {op : Operation}
  {me : Lock.Holder}

/-- Where an operation stands is nothing that a transaction keeps track of. -/
theorem Tracks.setStand (h : db.Tracks t log past) (i : TaskId) (stand : Stand) :
    (db.setStand i stand).Tracks t log past := by
  rw [setStand_eq]
  exact h.of_eq rfl rfl rfl

/-- Moving an operation commits nothing. -/
theorem committed_setStand (db : Database MemoryTable) (i : TaskId) (stand : Stand) :
    (db.setStand i stand).Committed = db.Committed := by
  rw [setStand_eq]
  rfl

/-- A transaction that was just started has executed nothing. -/
theorem Tracks.empty (db : Database MemoryTable) (t : TransactionId) :
    db.Tracks t .empty [] where
  ascending := List.Pairwise.nil
  sourced := nofun
  executed _ _ := rfl
  replayed _ _ := rfl

/-! ## Ending a call -/

/-- A call may end whose transaction goes on. -/
theorem Turn.finish (turn : Turn first db c t) (busy : db.Busy c t txn earlier i op me past)
    (uncommitted : ¬ db.Committed t) (phase : txn.phase = .active) (idle : txn.inFlight = 0)
    (tracks : db.Tracks t txn.log (past ++ op.told r)) (success : op.call = .commit → r = .ok none) :
    Serialized first (db.finish i r) := by
  obtain ⟨hop, hconnection⟩ := busy.last.task
  have hturn : Turn first (db.finish i r) c t :=
    turn.setStand hop hconnection (busy.item?_eq uncommitted _) (turn.twoPhase.finish i r)
  refine hturn.close (.resting ⟨(busy.setStand _).owns,
    busy.last.answered_finish fun _ => success, busy.tells_finish, ?_, phase, idle,
    tracks.setStand i _⟩)
  rw [Database.finish, committed_setStand]
  exact uncommitted

/-- A connection whose calls are all answered may be separated from its transaction. -/
theorem Turn.detach (turn : Turn first db c t) (owns : db.Owns c t txn)
    (answered : ∀ p ∈ db.callsOn c, db.Answered c p.2) : Serialized first (db.separate c t) := by
  have hturn := turn.separate
  rw [separate_eq, if_pos owns.attached, if_pos owns.current] at *
  refine hturn.close (.detached ⟨Dict.get?_erase_self .., Dict.get?_erase_self .., fun p hp => ?_⟩)
  exact (answered p hp).mono (.of_eq rfl)

/-! ## Commits -/

/-- A transaction may be retired. -/
theorem Turn.retire (turn : Turn first db c t) (busy : db.Busy c t txn earlier i op me past) :
    Turn first (db.retire t) c t ∧ (db.retire t).Busy c t txn.finish earlier i op me past := by
  have hfound := busy.owns.found
  rw [retire_eq hfound]
  exact ⟨turn.set hfound rfl rfl (fun hopen => absurd hopen txn.not_isOpen_finish)
    fun e he => .inl he, busy.set rfl⟩

/-- A transaction that is shut may release its locks. -/
theorem Turn.releaseLocks (turn : Turn first db c t) (hshut : db.Shut t) :
    Turn first (db.releaseLocks t) c t :=
  turn.withLocks (turn.twoPhase.locks.release hshut)

/-- A release may be forgotten. -/
theorem Turn.forgetLocks (turn : Turn first db c t) : Turn first (db.forgetLocks t) c t :=
  (turn.withLocks (turn.twoPhase.locks.forget t)).idle _ _

/-- A transaction may move out of its active life. -/
theorem Turn.turnTo (turn : Turn first db c t) (busy : db.Busy c t txn earlier i op me past)
    (phase : txn.phase = .active) (target : Phase) :
    Turn first (db.withDirectory (db.directory.set t { txn with phase := target })) c t ∧
      (db.withDirectory (db.directory.set t { txn with phase := target })).Busy c t
        { txn with phase := target } earlier i op me past :=
  ⟨turn.set busy.owns.found rfl rfl (fun _ => .inl phase) fun _ he => .inl he, busy.set rfl⟩

/-- A commit retires its transaction and releases the locks. -/
theorem Turn.withdraw (turn : Turn first db c t) (busy : db.Busy c t txn earlier i op me past) :
    Turn first (((db.retire t).releaseLocks t).forgetLocks t) c t ∧
      (((db.retire t).releaseLocks t).forgetLocks t).Busy c t txn.finish earlier i op me past := by
  -- Retired, the transaction is shut, and only then the locks may go.
  obtain ⟨hretired, hbusy⟩ := turn.retire busy
  exact ⟨(hretired.releaseLocks (shut_retire ⟨txn, busy.owns.found⟩)).forgetLocks,
    hbusy.of_eq rfl rfl rfl⟩

/-- A commit may end whose writes were applied. -/
theorem Turn.endCommit (turn : Turn first db c t) (busy : db.Busy c t txn earlier i op me past)
    (stand : op.stand = .applied [] r) (success : op.call = .commit → r = .ok none) :
    Serialized first (db.endCommit i c t [] r) := by
  obtain ⟨hturn, hbusy⟩ := turn.withdraw busy
  obtain ⟨hop, hconnection⟩ := hbusy.last.task
  have houtcome : ({ op with stand := .finished r } : Operation).outcome? = op.outcome? := by
    unfold Operation.outcome?
    rw [stand]
    exact congrArg some r.join_nil.symm
  rw [endCommit_eq, separate_finish, Result.join_nil]
  -- The caller is told what was settled before the writes were applied, so no history changes.
  have hfinished := hturn.setStand hop hconnection (fun u _ => Operation.item?_congr houtcome u)
    (hturn.twoPhase.finish i r)
  exact Turn.detach hfinished (hbusy.setStand _).owns
    (hbusy.last.answered_finish fun _ => success)

/-- A commit may end that has nothing to apply, if the statements leave what the tables hold. -/
theorem Turn.endCommit_nil (turn : Turn first db c t)
    (busy : db.Busy c t txn earlier i op me past) (uncommitted : ¬ db.Committed t)
    (hexecuted : Serial.transaction db.locate ((past ++ op.told r).map Prod.fst) db.contents =
      ((past ++ op.told r).map Prod.snd, db.contents))
    (success : op.call = .commit → r = .ok none) :
    Serialized first ((db.recordCommit t []).endCommit i c t [] r) := by
  obtain ⟨hturn, hbusy⟩ := turn.withdraw busy
  obtain ⟨hop, hconnection⟩ := hbusy.last.task
  -- The commit is recorded last, when the history of the transaction is complete.
  rw [endCommit_recordCommit, Result.join_nil]
  have hfinished := hturn.setStand hop hconnection (hbusy.item?_eq uncommitted (.finished r))
    (hturn.twoPhase.finish i r)
  have howns := (hbusy.setStand (.finished r)).owns
  have hanswered := hbusy.last.answered_finish fun _ => success
  obtain ⟨hcommitted, hlocate, hcontents⟩ :
      ((((db.retire t).releaseLocks t).forgetLocks t).finish i r).Committed = db.Committed ∧
      ((((db.retire t).releaseLocks t).forgetLocks t).finish i r).locate = db.locate ∧
      ((((db.retire t).releaseLocks t).forgetLocks t).finish i r).contents = db.contents := by
    rw [Database.finish, setStand_eq, retire_eq busy.owns.found]
    exact ⟨rfl, rfl, rfl⟩
  have hrecorded := Turn.record_nil hfinished ⟨_, howns.found⟩ (hcommitted ▸ uncommitted)
    hbusy.tells_finish (hlocate ▸ hcontents ▸ hexecuted)
  refine Turn.detach hrecorded ⟨howns.attached, howns.current, howns.found, howns.connection⟩ ?_
  exact fun p hp => (hanswered p hp).mono (.of_eq rfl)

/-- A commit may go on to apply its writes. -/
theorem Turn.applying (turn : Turn first db c t) (busy : db.Busy c t txn earlier i op me past)
    (uncommitted : ¬ db.Committed t) (phase : txn.phase = .committing)
    (tracks : db.Tracks t txn.log (past ++ op.told r)) (success : op.call = .commit → r = .ok none) :
    Serialized first ((db.setStand i (.applying (db.plan txn.log.entries) r)).wake [i]) := by
  obtain ⟨hop, hconnection⟩ := busy.last.task
  have hturn : Turn first (db.setStand i (.applying (db.plan txn.log.entries) r)) c t :=
    turn.setStand hop hconnection (busy.item?_eq uncommitted _)
      (turn.twoPhase.setStand fun _ _ _ _ _ => trivial)
  have hbusy := busy.setStand (.applying (db.plan txn.log.entries) r)
  have huncommitted := uncommitted
  rw [← committed_setStand db i (.applying (db.plan txn.log.entries) r)] at huncommitted
  have htracks := tracks.setStand i (.applying (db.plan txn.log.entries) r)
  rw [setStand_eq] at hturn hbusy huncommitted htracks ⊢
  exact Turn.close (hturn.idle _ _) (.applying (hbusy.of_eq rfl rfl rfl) huncommitted phase rfl
    success (htracks.of_eq rfl rfl rfl))

/-- A commit may go on when no operation is in flight: it ends if there is nothing to apply, and
else has its writes applied. -/
theorem Turn.afterDrain (turn : Turn first db c t) (busy : db.Busy c t txn earlier i op me past)
    (uncommitted : ¬ db.Committed t) (phase : txn.phase = .committing)
    (tracks : db.Tracks t txn.log (past ++ op.told r)) (success : op.call = .commit → r = .ok none) :
    Serialized first (db.afterDrain i c t .commit r) := by
  unfold Database.afterDrain
  dsimp only
  rw [busy.owns.found, Option.map_some, Option.getD_some]
  split
  · -- There is nothing to apply, so the statements leave what the tables hold.
    rename_i hplan
    have hentries : txn.log.entries = [] := List.map_eq_nil_iff.mp hplan
    have hagrees : db.Agrees t db.contents := fun _ _ => rfl
    have hreplay := tracks.replayed db.contents hagrees
    rw [hentries] at hreplay
    have hexecuted := tracks.executed db.contents hagrees
    rw [← Option.some.inj hreplay] at hexecuted
    exact turn.endCommit_nil busy uncommitted hexecuted success
  · exact turn.applying busy uncommitted phase tracks success

/-- A connection may commit its transaction. -/
theorem Turn.commit {expected : Option TransactionId} (turn : Turn first db c t)
    (busy : db.Busy c t txn earlier i op me past) (uncommitted : ¬ db.Committed t)
    (phase : txn.phase = .active) (idle : txn.inFlight = 0)
    (tracks : db.Tracks t txn.log (past ++ op.told r)) (success : op.call = .commit → r = .ok none)
    (hexpected : expected.all (· = t)) : Serialized first (db.commit i c expected r) := by
  obtain ⟨hturn, hbusy⟩ := turn.turnTo busy phase .committing
  unfold Database.commit
  rw [busy.owns.attached]
  dsimp only
  rw [if_pos hexpected, turnTo_eq busy.owns.found phase]
  dsimp only
  rw [drain_eq hbusy.owns.found idle]
  exact hturn.afterDrain hbusy uncommitted rfl (tracks.of_eq rfl rfl rfl) success

/-- Only the rows that a transaction has locked look different through its buffer. -/
theorem overlay_of_writes (h : db.TwoPhase) (owns : db.Owns c t txn) (hopen : txn.IsOpen)
    {k : Lock.Key} (hu : u ≠ t) (hwrites : db.Writes u k) :
    txn.log.overlay db.contents k = db.contents k := by
  unfold WriteBuffer.overlay
  cases hnewest : txn.log.newest? k.table k.row with
  | none => rfl
  | some w =>
    have hmem := WriteBuffer.mem_entries_of_newest? hnewest
    have hmine : db.Writes t k := h.logged t txn owns.found _ hmem (owns.not_shut hopen)
    exact absurd (Lock.Holders.eq_of_writes hwrites hmine) hu

/-- The writes of a transaction may be applied: no error comes of it, and the commits stay
explained. -/
theorem Turn.apply (turn : Turn first db c t) (hapart : first.registry.Apart)
    (busy : db.Busy c t txn earlier i op me past) (uncommitted : ¬ db.Committed t)
    (phase : txn.phase = .committing) (stand : op.stand = .applying (db.plan txn.log.entries) r)
    (success : op.call = .commit → r = .ok none)
    (tracks : db.Tracks t txn.log (past ++ op.told r)) :
    Serialized first (db.apply i t (db.plan txn.log.entries) r) := by
  have hagrees : db.Agrees t db.contents := fun _ _ => rfl
  obtain ⟨store, hplan, hcontents, hlocate⟩ := applyPlan_eq db (turn.registry ▸ hapart)
    txn.log.entries db.store tracks.sourced (tracks.replayed db.contents hagrees)
  obtain ⟨hop, hconnection⟩ := busy.last.task
  have houtcome : op.outcome? = some r := by
    unfold Operation.outcome?
    rw [stand]
  have htells : Tells (db.callsOn c) t (past ++ op.told r) := by
    rw [busy.last.calls]
    exact busy.tells.concat i busy.holder busy.txn houtcome
  -- On what the tables hold, the statements leave just what the buffer will leave.
  have hexecuted := tracks.executed db.contents hagrees
  rw [← hcontents] at hexecuted
  have hrecorded := turn.record ⟨txn, busy.owns.found⟩ uncommitted hlocate htells hexecuted
    (fun u k hu _ hk => by
      rw [hcontents]
      exact overlay_of_writes turn.twoPhase busy.owns (.inr phase) hu hk)
    (db.plan txn.log.entries)
  have hbusy : ({ db with store := store }.recordCommit t (db.plan txn.log.entries)).Busy c t txn
    earlier i op me past := busy.of_eq rfl rfl rfl
  -- What the caller will be told does not change, and so no committed history does.
  have hsame : ({ op with stand := .applied [] r } : Operation).outcome? = op.outcome? := by
    rw [houtcome]
    exact congrArg some r.join_nil
  have hmoved := hrecorded.setStand hop hconnection (fun u _ => Operation.item?_congr hsame u)
    (hrecorded.twoPhase.setStand fun _ _ _ _ _ => trivial)
  unfold Database.apply
  rw [hplan]
  dsimp only [Option.getD_some]
  exact Turn.close (hmoved.idle _ _)
    (.applied ((hbusy.setStand _).of_eq rfl rfl rfl) phase rfl success)

/-! ## Discards -/

/-- A connection with a fresh transaction rests if its calls are all answered. -/
theorem Fresh.resting (h : db.Fresh c t txn) (answered : ∀ p ∈ db.callsOn c, db.Answered c p.2) :
    db.Resting c t txn [] where
  owns := h.owns
  answered := answered
  tells := tells_nil h.alone
  uncommitted := h.uncommitted
  phase := h.phase
  idle := h.idle
  tracks := h.empty ▸ Tracks.empty db t

/-- A fresh transaction stays so when a call ends. -/
theorem Fresh.finish (h : db.Fresh c t txn) (last : db.Last c earlier i op) (r : Result) :
    (db.finish i r).Fresh c t txn := by
  have hcalls := (last.setStand (.finished r)).calls
  have halone : ∀ p ∈ (db.setStand i (.finished r)).callsOn c, ∀ me, p.2.holder = some me →
      me.txn ≠ t := by
    intro p hp me hme
    rw [hcalls] at hp
    rcases List.mem_append.mp hp with hp | hp
    · exact h.alone p (last.calls ▸ List.mem_append_left _ hp) me hme
    · cases List.mem_singleton.mp hp
      exact h.alone (i, op) last.mem me hme
  unfold Database.finish
  rw [setStand_eq] at *
  exact ⟨⟨h.owns.attached, h.owns.current, h.owns.found, h.owns.connection⟩, h.phase, h.idle,
    h.empty, halone, h.uncommitted⟩

/-- A connection's transaction may be replaced by a fresh one. -/
theorem Turn.replace (turn : Turn first db c t) (owns : db.Owns c t txn) :
    ∃ u fresh db', db.replace c t = (db', []) ∧ Turn first db' c t ∧ db'.Fresh c u fresh ∧
      db'.directory.find? t = some { txn with log := .empty } ∧ db.Keeps db' ∧
      db'.tasks = db.tasks ∧ db'.commits = db.commits := by
  have hcleared : Turn first
      (db.withDirectory (db.directory.set t { txn with log := .empty })) c t :=
    turn.set owns.found rfl rfl (fun hopen => hopen) fun e he => by cases he
  have hkeeps : db.Keeps (db.withDirectory (db.directory.set t { txn with log := .empty })) :=
    keeps_set owns.found rfl
  have hfound := (Directory.find?_set owns.found { txn with log := .empty } t).trans (if_pos rfl)
  have hclear : db.directory.clearLog c = .ok (db.directory.set t { txn with log := .empty }) := by
    unfold Directory.clearLog Directory.modifyLog Directory.modify
    rw [owns.current]
    dsimp only
    rw [owns.found]
  have hpresent : (db.directory.set t { txn with log := .empty }).get? c =
      some { txn with log := .empty } := by
    unfold Directory.get?
    rw [Directory.current_set, owns.current]
    exact hfound
  -- The old transaction has lost its log and is still found; the fresh one stands next to it.
  refine ⟨_, _, _, ?_, hcleared.place db.clock.read.2 db.clock.read.1 txn.origin,
    hcleared.fresh db.clock.read.2 db.clock.read.1 txn.origin,
    Directory.find?_place_of_some _ _ hfound, ?_, rfl, rfl⟩
  · unfold Database.replace Directory.restart
    rw [if_pos owns.attached, hclear]
    dsimp only
    rw [hpresent]
    rfl
  · intro u old hold
    obtain ⟨old', hold', hsame⟩ := hkeeps u old hold
    exact ⟨old', Directory.find?_place_of_some _ _ hold', hsame⟩

/-- A discard may end by giving the connection a fresh transaction. -/
theorem Turn.restart (turn : Turn first db c t) (busy : db.Busy c t txn earlier i op me past)
    (uncommitted : ¬ db.Committed t) (hcall : op.call ≠ .commit) :
    Serialized first (((db.replace c t).1.retire t).finish i (r.join (db.replace c t).2)) := by
  obtain ⟨u, new, db', hreplace, hturn, hfresh, hfound, hkeeps, htasks, hcommits⟩ :=
    turn.replace busy.owns
  have hcalls : db'.callsOn c = db.callsOn c := by
    unfold callsOn operations
    rw [htasks]
  -- No call belongs to the fresh transaction, but the last one belongs to `t`.
  have hne : t ≠ u := busy.txn ▸ hfresh.alone (i, op) (hcalls ▸ busy.last.mem) me busy.holder
  have hretired : Turn first (db'.retire t) c t := by
    rw [retire_eq hfound]
    exact hturn.set hfound rfl rfl (fun hopen => absurd hopen (Transaction.not_isOpen_finish _))
      fun e he => .inl he
  rw [hreplace, Result.join_nil]
  rw [retire_eq hfound] at hretired ⊢
  have hlast : (db'.withDirectory (db'.directory.set t
      (Transaction.finish { txn with log := .empty }))).Last c earlier i op :=
    busy.last.mono hcalls (hkeeps.trans (keeps_set hfound rfl))
  have hanswered := hlast.answered_finish (r := r) fun _ hcommit => absurd hcommit hcall
  obtain ⟨hop, hconnection⟩ := hlast.task
  have hitem : ∀ v, db'.Committed v →
      ({ op with stand := .finished r } : Operation).item? v = op.item? v := by
    intro v hv
    unfold Committed at hv
    rw [hcommits] at hv
    exact busy.item?_eq uncommitted _ v hv
  exact Turn.close (hretired.setStand hop hconnection hitem (hretired.twoPhase.finish i r))
    (.resting (((hfresh.set hfound hne).finish hlast r).resting hanswered))

/-- A discard may end by leaving the connection without a transaction. -/
theorem Turn.dismiss (turn : Turn first db c t) (busy : db.Busy c t txn earlier i op me past)
    (uncommitted : ¬ db.Committed t) (hcall : op.call ≠ .commit) :
    Serialized first (((db.separate c t).retire t).finish i r) := by
  obtain ⟨hretired, hbusy⟩ := turn.retire busy
  obtain ⟨hop, hconnection⟩ := hbusy.last.task
  have huncommitted : ¬ (db.retire t).Committed t := uncommitted
  rw [separate_retire, separate_finish]
  have hfinished := hretired.setStand hop hconnection (hbusy.item?_eq huncommitted (.finished r))
    (hretired.twoPhase.finish i r)
  exact Turn.detach hfinished (hbusy.setStand _).owns
    (hbusy.last.answered_finish fun _ hcommit => absurd hcommit hcall)

/-- A discard may end when no operation is in flight. -/
theorem Turn.endDiscard (turn : Turn first db c t) (busy : db.Busy c t txn earlier i op me past)
    (uncommitted : ¬ db.Committed t) (hcall : op.call ≠ .commit) (restart : Bool) :
    Serialized first (db.endDiscard i c t restart r) := by
  have hforgotten := turn.forgetLocks
  have hbusy : (db.forgetLocks t).Busy c t txn earlier i op me past := busy.of_eq rfl rfl rfl
  unfold Database.endDiscard
  dsimp only
  split
  · exact hforgotten.restart hbusy uncommitted hcall
  · exact hforgotten.dismiss hbusy uncommitted hcall

/-- A transaction that is being aborted may be discarded. -/
theorem Turn.discard (turn : Turn first db c t) (busy : db.Busy c t txn earlier i op me past)
    (uncommitted : ¬ db.Committed t) (phase : txn.phase = .aborting) (idle : txn.inFlight = 0)
    (hcall : op.call ≠ .commit) (restart : Bool) :
    Serialized first (db.discard i c t restart r) := by
  have hshut : db.Shut t :=
    ⟨txn, busy.owns.found, Transaction.not_isOpen_of_aborting phase⟩
  have hreleased := turn.releaseLocks hshut
  have hbusy : (db.releaseLocks t).Busy c t txn earlier i op me past := busy.of_eq rfl rfl rfl
  unfold Database.discard
  rw [drain_eq hbusy.owns.found idle]
  exact hreleased.endDiscard hbusy uncommitted hcall restart

/-- A connection may roll its transaction back. -/
theorem Turn.rollback (turn : Turn first db c t) (busy : db.Busy c t txn earlier i op me past)
    (uncommitted : ¬ db.Committed t) (phase : txn.phase = .active) (idle : txn.inFlight = 0)
    (hcall : op.call ≠ .commit) : Serialized first (db.rollback i c) := by
  obtain ⟨hturn, hbusy⟩ := turn.turnTo busy phase .aborting
  unfold Database.rollback
  rw [busy.owns.attached]
  dsimp only
  rw [turnTo_eq busy.owns.found phase]
  exact hturn.discard hbusy uncommitted rfl idle hcall false

/-- A transaction may be aborted. -/
theorem Turn.abort (turn : Turn first db c t) (busy : db.Busy c t txn earlier i op me past)
    (uncommitted : ¬ db.Committed t) (phase : txn.phase = .active) (idle : txn.inFlight = 0)
    (hcall : op.call ≠ .commit) (why : Lock.Refusal) : Serialized first (db.abort i c t why) := by
  obtain ⟨hturn, hbusy⟩ := turn.turnTo busy phase .aborting
  unfold Database.abort
  dsimp only
  rw [if_pos busy.owns.attached, turnTo_eq busy.owns.found phase]
  exact hturn.discard hbusy uncommitted rfl idle hcall _

end Database

end TxStore
