import TxStore.Proofs.Database.Seclusion
import TxStore.Proofs.Database.Solitary

/-!
# Rows of one's own

A connection that makes one call at a time, and whose rows nobody else names, sees in them what it
would see if it were alone. `Shows` says so for its transaction: on the rows `K` it sees `V`, the
tables under its write buffer, and the buffer can be applied. A statement is granted the lock of its
row at once (`Secluded.granted`) and goes on to read the row if it has to. When its body ends it has
done to `V` what it does alone, and is to tell the same (`Does`). So every turn of a statement
either leaves the statement at work, with what it knows of its row (`Knows`), or ends its body in
this way (`Secluded.works`).
-/

namespace TxStore

/-- What a buffer shows of a row depends on that row. -/
theorem WriteBuffer.overlay_eqOn {b : WriteBuffer} {M N : Contents} {K : Set Lock.Key}
    (h : Set.EqOn M N K) : Set.EqOn (b.overlay M) (b.overlay N) K := by
  intro k hk
  unfold WriteBuffer.overlay
  rw [h hk]

namespace Database

variable {db db' : Database MemoryTable} {K : Set Lock.Key} {t : TransactionId} {txn : Transaction}
  {log : WriteBuffer} {V B : Contents} {s : Statement} {k : Lock.Key} {target : Target}
  {ending : Ending} {op : Operation} {me : Lock.Holder} {i : TaskId} {stand : Stand}

/-- A transaction with the write buffer `log` sees `V` in the rows `K`, and its buffer can be
applied whatever the other rows hold. -/
structure Shows (db : Database MemoryTable) (K : Set Lock.Key) (log : WriteBuffer) (V : Contents) :
    Prop where
  /-- The buffer is in order. -/
  ascending : WriteBuffer.Ascending log.groups
  /-- Every write comes from a statement that was checked. -/
  sourced : ∀ e ∈ log.entries, ∃ s, db.locate s = .ok e.place ∧ s.write? = some e.write
  /-- Under the buffer the rows are as in `V`. -/
  view : Set.EqOn V (log.overlay db.contents) K
  /-- Applying the buffer leaves what it shows. -/
  replays : ∀ B, Set.EqOn B db.contents K → Contents.replay log.entries B = some (log.overlay B)

namespace Shows

/-- Without writes a transaction sees the tables. -/
theorem empty (hbase : Set.EqOn V db.contents K) : db.Shows K .empty V :=
  ⟨List.Pairwise.nil, nofun, hbase, fun _ _ => rfl⟩

/-- So does one that has nothing to apply. -/
theorem base_of_nil (h : db.Shows K log V) (hnil : log.entries = []) :
    Set.EqOn V db.contents K := by
  have hreplay := h.replays db.contents (Set.eqOn_refl _ _)
  rw [hnil] at hreplay
  have hsame : db.contents = log.overlay db.contents := Option.some.inj hreplay
  intro k hk
  rw [h.view hk, ← hsame]

/-- It goes on to see that as long as nobody else changes the rows. -/
theorem frame (h : db.Shows K log V) (hlocate : db'.locate = db.locate)
    (hcontents : Set.EqOn db'.contents db.contents K) : db'.Shows K log V := by
  refine ⟨h.ascending, ?_, h.view.trans (WriteBuffer.overlay_eqOn hcontents.symm),
    fun B hB => h.replays B (hB.trans hcontents)⟩
  rw [hlocate]
  exact h.sourced

/-- A statement may add its write to the buffer; a row that it removes must be there. -/
theorem written {w : Write} (h : db.Shows K log V) (hlocate : db.locate s = .ok k) (hk : k ∈ K)
    (hwrite : s.write? = some w) (hthere : w = .delete → V k ≠ none) :
    db.Shows K (log.append k.table k.row w) (V.set k w.value?) := by
  have hoverlay : ∀ B : Contents,
      (log.append k.table k.row w).overlay B = (log.overlay B).set k w.value? :=
    fun B => WriteBuffer.overlay_append h.ascending k.table k.row w B
  refine ⟨WriteBuffer.ascending_appendTo h.ascending, fun e he => ?_, fun j hj => ?_,
    fun B hB => ?_⟩
  · rcases WriteBuffer.mem_entries_append he with he | rfl
    · exact h.sourced e he
    · exact ⟨s, hlocate, hwrite⟩
  · rw [hoverlay]
    unfold Contents.set
    split
    · rfl
    · exact h.view hj
  · have hsees : V k = log.overlay B k :=
      (h.view hk).trans (WriteBuffer.overlay_eqOn hB.symm hk)
    rw [WriteBuffer.replay_append h.ascending, h.replays B hB, hoverlay, Option.bind_some]
    unfold Contents.write
    rw [if_neg fun hdelete => hthere hdelete.1 (hsees.trans hdelete.2)]
    rfl

/-- The transaction sees the newest write of a row. -/
theorem eq_of_newest? {w : Write} (h : db.Shows K log V) (hk : k ∈ K)
    (hnewest : log.newest? k.table k.row = some w) : V k = w.value? := by
  rw [h.view hk]
  unfold WriteBuffer.overlay
  rw [hnewest]

/-- It sees what the table holds in a row that it has not written. -/
theorem eq_of_unwritten (h : db.Shows K log V) (hk : k ∈ K)
    (hnone : log.newest? k.table k.row = none) : V k = db.contents k := by
  rw [h.view hk]
  unfold WriteBuffer.overlay
  rw [hnone]

end Shows

/-- The body of a statement has done to `V` what the statement does alone, and is to tell the same.
-/
def Does (db : Database MemoryTable) (K : Set Lock.Key) (log : WriteBuffer) (V : Contents)
    (s : Statement) (table : TableId) (ending : Ending) : Prop :=
  ending.result? = some (Serial.statement db.locate s V).1 ∧
    db.Shows K (log.appendAll (entriesAt table s (some ending))) (Serial.statement db.locate s V).2

/-- A body that ends with the lock of its row has done so. -/
theorem Shows.locked (h : db.Shows K log V) (located : db.Located s target)
    (hk : (⟨target.id, s.key⟩ : Lock.Key) ∈ K)
    (hbuffered : db.buffered? t target s.key = log.newest? target.id s.key)
    (hending : db.lockedEnding? t target s = some ending) :
    db.Does K log V s target.id ending := by
  have hlocate := located.locate
  unfold Does Serial.statement
  rw [hlocate]
  unfold lockedEnding? at hending
  -- A put never looks at the row. A get and a delete find their own newest write first, and if
  -- there is none the body goes on to read and has not ended.
  cases s with
  | put table key value =>
    cases hending
    exact ⟨rfl, h.written hlocate hk rfl nofun⟩
  | get table key =>
    have hsees := fun w => h.eq_of_newest? (w := w) hk
    dsimp only [Statement.key] at hending hbuffered hsees ⊢
    rw [hbuffered] at hending
    cases hnewest : log.newest? target.id key with
    | none =>
      rw [hnewest] at hending
      cases hending
    | some w =>
      rw [hnewest] at hending
      rw [hsees w hnewest]
      cases w <;> cases hending <;> exact ⟨rfl, h⟩
  | delete table key =>
    have hsees := fun w => h.eq_of_newest? (w := w) hk
    dsimp only [Statement.key] at hending hbuffered hsees ⊢
    rw [hbuffered] at hending
    cases hnewest : log.newest? target.id key with
    | none =>
      rw [hnewest] at hending
      cases hending
    | some w =>
      rw [hnewest] at hending
      have hvalue := hsees w hnewest
      rw [hvalue]
      cases w with
      | put value =>
        cases hending
        exact ⟨rfl, h.written hlocate hk rfl fun _ hnone => nomatch hvalue.symm.trans hnone⟩
      | delete =>
        cases hending
        exact ⟨rfl, h⟩

/-- A statement has to read its row: it does not insert, and its transaction has not written it. -/
structure Misses (db : Database MemoryTable) (log : WriteBuffer) (s : Statement) (target : Target) :
    Prop where
  /-- The table was looked up. -/
  located : db.Located s target
  /-- It does not insert. -/
  value : s.value? = none
  /-- The row is not in the buffer. -/
  unwritten : log.newest? target.id s.key = none

/-- That is so if a body goes on that has the lock of its row. -/
theorem Located.misses (located : db.Located s target)
    (hbuffered : db.buffered? t target s.key = log.newest? target.id s.key)
    (hnone : db.lockedEnding? t target s = none) : db.Misses log s target := by
  unfold lockedEnding? at hnone
  cases s with
  | put table key value => cases hnone
  | get table key | delete table key =>
    refine ⟨located, rfl, ?_⟩
    rw [← hbuffered]
    dsimp only [Statement.key] at hnone ⊢
    split at hnone
    · cases hnone
    · cases hnone
    · assumption

/-- A body that has read its row has done what its statement does alone. -/
theorem Shows.fetched {row : Outcome Value} (h : db.Shows K log V) (misses : db.Misses log s target)
    (hk : (⟨target.id, s.key⟩ : Lock.Key) ∈ K)
    (hrow : row = db.contents.read ⟨target.id, s.key⟩) :
    db.Does K log V s target.id (fetchedEnding s row) := by
  have hlocate := misses.located.locate
  have hsees := h.eq_of_unwritten hk misses.unwritten
  unfold Contents.read at hrow
  rw [← hsees] at hrow
  unfold Does Serial.statement
  rw [hlocate, hrow]
  cases s with
  | put table key value => cases misses.value
  | get table key =>
    dsimp only
    cases V ⟨target.id, (Statement.get table key).key⟩ <;> exact ⟨rfl, h⟩
  | delete table key =>
    dsimp only
    cases hthere : V ⟨target.id, (Statement.delete table key).key⟩ with
    | none => exact ⟨rfl, h⟩
    | some v => exact ⟨rfl, h.written hlocate hk rfl fun _ hnone => nomatch hthere.symm.trans hnone⟩

/-! ## The turns of a statement -/

/-- What a statement knows of its row where it stands, if it never waits for a lock. -/
def Knows (db : Database MemoryTable) (log : WriteBuffer) (s : Statement) : Stand → Prop
  | .issued => True
  | .reading target => db.Misses log s target
  | .fetched target row => db.Misses log s target ∧ row = db.contents.read ⟨target.id, s.key⟩
  | .locking _ _ | .draining _ _ | .applying _ _ | .applied _ _ | .finished _ => False

/-- A statement that knows of its row is at work. -/
theorem Knows.working (h : db.Knows log s stand) : stand.isWorking := by
  cases stand with
  | issued | reading target | fetched target row => rfl
  | locking target w | draining purpose r | applying plan r | applied errors r | finished r =>
    exact h.elim

/-- A table that was looked up is found where nothing has happened to the checks. -/
theorem Misses.frame (h : db.Misses log s target) (hlocate : db'.locate = db.locate)
    (hregistry : db'.registry = db.registry) : db'.Misses log s target :=
  ⟨h.located.mono hregistry hlocate, h.value, h.unwritten⟩

/-- The row of a statement that has to read it is the one that the statement names. -/
theorem Misses.place (h : db.Misses log s target) :
    (⟨target.id, s.key⟩ : Lock.Key) = s.place db.registry :=
  Serial.place_of_locate h.located.locate

/-- What a statement knows stays true as long as nobody else changes the rows. -/
theorem Knows.frame (h : db.Knows log s stand) (hlocate : db'.locate = db.locate)
    (hregistry : db'.registry = db.registry) (hcontents : Set.EqOn db'.contents db.contents K)
    (hk : s.place db.registry ∈ K) : db'.Knows log s stand := by
  cases stand with
  | issued => trivial
  | reading target => exact Misses.frame h hlocate hregistry
  | fetched target row =>
    obtain ⟨hmisses, hrow⟩ := h
    refine ⟨hmisses.frame hlocate hregistry, hrow.trans ?_⟩
    unfold Contents.read
    rw [hcontents (hmisses.place ▸ hk)]
  | locking target w | draining purpose r | applying plan r | applied errors r | finished r =>
    exact h.elim

/-- A statement that begins fails its checks, or asks for the lock of its row. -/
theorem begin_cases (db : Database MemoryTable) (i : TaskId) (me : Lock.Holder)
    (hcall : op.call = .statement s) (hstand : op.stand = .issued) :
    (∃ e, db.locate s = .error e ∧ db.bodyEnding? op me = some (.failed e)) ∨
      ∃ target, db.Located s target ∧
        db.bodyEnding? op me = db.acquiredEnding? me.txn target s
          (db.locks.acquire db.now .write me ⟨target.id, s.key⟩).2 ∧
        db.begin i op me s = db.acquired i op me.txn s target
          (db.locks.acquire db.now .write me ⟨target.id, s.key⟩) := by
  unfold bodyEnding? Database.begin
  rw [hcall, hstand]
  dsimp only
  rcases Serial.locate_cases db.registry db.store s with
    ⟨cause, hlook, hlocate⟩ | ⟨id, entry, hlook, ⟨htable, hlocate⟩ | ⟨table, htable, hcheck⟩⟩
  · rw [hlook]
    exact .inl ⟨_, hlocate, rfl⟩
  · rw [hlook]
    dsimp only
    rw [htable]
    exact .inl ⟨_, hlocate, rfl⟩
  · rw [hlook]
    dsimp only
    rw [htable]
    rcases hcheck with ⟨e, hcheck, hlocate⟩ | ⟨hcheck, hlocate⟩
    · have hvalidate : Backend.validate table s.key s.value? = .failed e :=
        congrArg Outcome.ofExcept hcheck
      dsimp only
      rw [hvalidate]
      exact .inl ⟨_, hlocate, rfl⟩
    · have hvalidate : Backend.validate table s.key s.value? = .done () :=
        congrArg Outcome.ofExcept hcheck
      dsimp only
      rw [hvalidate]
      exact .inr ⟨⟨id, entry.table⟩, ⟨hlocate, entry, Registry.get?_of_lookUp hlook, rfl⟩, rfl, rfl⟩

section

variable {c : ConnectionId} {clock : Clock} {tables : List MemoryTable}

/-- A connection gets the lock of its own row as soon as it asks for it. -/
theorem Secluded.granted (h : Secluded K c clock tables db) (hruns : db.Runs i op me)
    (hc : op.connection = c) (hworking : op.stand.isWorking) (holds : db.Holds c me.txn txn 1)
    (hk : k ∈ K) : (db.locks.acquire db.now .write me k).2 = .answered (.ok ()) := by
  have hfree : me.txn ∉ db.locks.released := fun hmem =>
    holds.not_shut (h.regular.twoPhase.locks.released _ hmem)
  rw [Lock.Manager.acquire_of_sole hfree fun t ht => h.sole hruns hc hworking hk ht]

/-- The buffer of a connection's transaction is the one that its statements look into. -/
theorem Holds.buffered?_eq (h : db.Holds c t txn 1) (target : Target) (key : Value) :
    db.buffered? t target key = txn.log.newest? target.id key := by
  unfold Database.buffered?
  rw [h.found]
  rfl

/-- When the body of a statement ends it has done what it does alone. -/
theorem Secluded.ends (h : Secluded K c clock tables db) (hruns : db.Runs i op me)
    (hc : op.connection = c) (hcall : op.call = .statement s) (holds : db.Holds c me.txn txn 1)
    (shows : db.Shows K txn.log V) (knows : db.Knows txn.log s op.stand)
    (hending : db.bodyEnding? op me = some ending) :
    db.Does K txn.log V s (op.tableOf db.registry s) ending := by
  have hk : s.place db.registry ∈ K := (h.names i op s hruns.1 hcall).mpr hc
  unfold Operation.tableOf
  cases hstand : op.stand with
  | issued =>
    rcases db.begin_cases i me hcall hstand with
      ⟨e, hlocate, hfailed⟩ | ⟨target, hlocated, hacquired, -⟩
    · cases hending.symm.trans hfailed
      unfold Does Serial.statement
      rw [hlocate]
      exact ⟨rfl, shows⟩
    · have hplace := Serial.place_of_locate hlocated.locate
      have hgranted := h.granted hruns hc knows.working holds (hplace ▸ hk)
      rw [hacquired, hgranted] at hending
      have htarget : target.id = db.registry.tableId s.table := congrArg Lock.Key.table hplace
      dsimp only [Stand.target?]
      rw [← htarget]
      exact shows.locked hlocated (hplace ▸ hk) (holds.buffered?_eq ..) hending
  | fetched target row =>
    rw [hstand] at knows
    obtain ⟨hmisses, hrow⟩ := knows
    have hfetched : db.bodyEnding? op me = some (fetchedEnding s row) := by
      unfold bodyEnding?
      rw [hcall, hstand]
    cases hending.symm.trans hfetched
    -- The row was read in an earlier turn, and nobody else has written it since.
    exact shows.fetched hmisses (hmisses.place ▸ hk) hrow
  | reading target =>
    unfold bodyEnding? at hending
    rw [hcall, hstand] at hending
    cases hending
  | locking target w | draining purpose r | applying plan r | applied errors r | finished r =>
    rw [hstand] at knows
    exact knows.elim

/-- When the body goes on it is never put down where it would wait for a lock. -/
theorem Secluded.goesOn (h : Secluded K c clock tables db) (hruns : db.Runs i op me)
    (hc : op.connection = c) (hcall : op.call = .statement s) (holds : db.Holds c me.txn txn 1)
    (knows : db.Knows txn.log s op.stand) (hending : db.bodyEnding? op me = none) :
    ∃ stand, (db.resume i).Runs i { op with stand := stand } me ∧ db.Knows txn.log s stand := by
  have hk : s.place db.registry ∈ K := (h.names i op s hruns.1 hcall).mpr hc
  have hpop : (db.pop i).Runs i op me := hruns
  have hresume : db.resume i = (db.pop i).resumeOperation i op me := resume_eq hruns
  rw [hresume]
  obtain ⟨d, call, holder, opened, stand⟩ := op
  cases hcall
  -- By cases on where the body stands; it never stands where it waits for a lock, which is what
  -- `knows` says.
  cases stand with
  | issued =>
    have hissued : (⟨d, .statement s, holder, opened, .issued⟩ : Operation).stand = .issued := rfl
    rcases (db.pop i).begin_cases i me (Eq.refl (Call.statement s)) hissued with
      ⟨e, -, hfailed⟩ | ⟨target, hlocated, hacquired, hbegin⟩
    · have hfailed : db.bodyEnding? ⟨d, .statement s, holder, opened, .issued⟩ me =
          some (.failed e) := hfailed
      cases hending.symm.trans hfailed
    · -- The lock is granted, so the body goes on only if it has to read the row.
      have hplace := Serial.place_of_locate hlocated.locate
      have hgranted := h.granted hruns hc rfl holds (hplace ▸ hk)
      generalize hturn : (db.pop i).locks.acquire (db.pop i).now .write me ⟨target.id, s.key⟩ = turn
        at hacquired hbegin
      obtain ⟨m, answer⟩ := turn
      obtain rfl : answer = .answered (.ok ()) := (congrArg Prod.snd hturn).symm.trans hgranted
      have hnone : db.lockedEnding? me.txn target s = none := hacquired.symm.trans hending
      have hlocked : ((db.pop i).withLocks m).lockedEnding? me.txn target s = none :=
        (lockedEnding?_of_eq rfl).trans hnone
      have hfound : db.Located s target := hlocated.mono rfl rfl
      refine ⟨.reading target, ?_, hfound.misses (holds.buffered?_eq ..) hnone⟩
      show ((db.pop i).begin i _ me s).Runs i _ me
      rw [hbegin]
      show (((db.pop i).withLocks m).locked i _ me.txn s target).Runs i _ me
      rw [locked_eq_of_none hlocked]
      have hmoved : ((db.pop i).withLocks m).Runs i ⟨d, .statement s, holder, opened, .issued⟩ me :=
        hruns
      exact hmoved.setStand (.reading target)
  | reading target =>
    refine ⟨.fetched target (db.readRow target s.key), ?_, knows,
      Located.readRow_eq knows.located knows.value⟩
    show (((db.pop i).setStand i (.fetched target (db.readRow target s.key))).wake [i]).Runs i _ me
    exact hpop.setStand (.fetched target _)
  | fetched target row => cases hending
  | locking target w | draining purpose r | applying plan r | applied errors r | finished r =>
    exact knows.elim

/-- Where nothing happens to the tables the rows and the checks are the same. -/
theorem Stable.same (h : Stable db db') : db'.contents = db.contents ∧ db'.locate = db.locate := by
  unfold Database.contents Database.locate
  rw [h.store, h.registry]
  exact ⟨rfl, rfl⟩

/-- So is what a transaction sees. -/
theorem Shows.stable (h : db.Shows K log V) (hstable : Stable db db') : db'.Shows K log V := by
  obtain ⟨hcontents, hlocate⟩ := hstable.same
  refine h.frame hlocate fun k _ => ?_
  rw [hcontents]

/-- A turn of a statement leaves it at work, or its body has done what the statement does alone. -/
theorem Secluded.works (h : Secluded K c clock tables db) (hruns : db.Runs i op me)
    (hc : op.connection = c) (hcall : op.call = .statement s) (holds : db.Holds c me.txn txn 1)
    (shows : db.Shows K txn.log V) (knows : db.Knows txn.log s op.stand) :
    (∃ stand, (db.resume i).Runs i { op with stand := stand } me ∧
        (db.resume i).Holds c me.txn txn 1 ∧ Stable db (db.resume i) ∧ db.Knows txn.log s stand) ∨
      ∃ ending, db.Does K txn.log V s (op.tableOf db.registry s) ending ∧ ∃ mid,
        Labors i op me db
          { txn with
            log := txn.log.appendAll (entriesAt (op.tableOf db.registry s) s (some ending)) } mid ∧
        db.resume i = mid.conclude i op me.txn ending := by
  subst hc
  cases hending : db.bodyEnding? op me with
  | none =>
    obtain ⟨stand, hafter, hknows⟩ := h.goesOn hruns rfl hcall holds knows hending
    obtain ⟨stand', -, -, hholds, hstable, -⟩ :=
      holds.body_goesOn hruns hcall knows.working hending
    exact .inl ⟨stand, hafter, hholds, hstable, hknows⟩
  | some ending =>
    exact .inr ⟨ending, h.ends hruns rfl hcall holds shows knows hending,
      holds.body_ends hruns hcall knows.working hending⟩

end

end Database

end TxStore
