import TxStore.Proofs.Database.Contents
import TxStore.Proofs.Lock.Holders

/-!
# Transactions that keep track of their statements

A transaction executes its statements on what it sees: the tables, under its write buffer. It keeps
track of them (`Tracks`) if the same statements, executed alone, yield what their callers were told
and leave what the buffer shows. That must hold on any contents that agree with the tables in the
rows that the transaction has locked, since the other rows may change before it commits.

Each way in which a statement can end extends the history by one entry (`Tracks.extend`): one that
fails its checks (`Tracks.refuse`), one that writes without looking (`Tracks.put`), and those that
look at their row first (`Tracks.get`, `Tracks.delete`), in the buffer or in the table.
-/

namespace TxStore

/-- A statement and what its caller was told, as an item of a history. -/
def settled (p : Statement × Result) : Statement × Option Result :=
  (p.1, some p.2)

/-- What a read of a row yields. -/
def Contents.read (M : Contents) (k : Lock.Key) : Outcome Value :=
  match M k with
  | some v => .done v
  | none => .failed (.keyNotFound k.row)

namespace Database

variable {db db' : Database MemoryTable} {t : TransactionId} {log log' : WriteBuffer}
  {past : List (Statement × Result)} {s : Statement} {r : Result} {k : Lock.Key} {target : Target}

/-- Whether `t` is the writer of a key. -/
def Writes (db : Database MemoryTable) (t : TransactionId) (k : Lock.Key) : Prop :=
  (db.locks.lockOf k).holders.writes t

/-- Whether `B` is what the tables hold, in the rows that `t` has locked. -/
def Agrees (db : Database MemoryTable) (t : TransactionId) (B : Contents) : Prop :=
  ∀ k, db.Writes t k → B k = db.contents k

/-- The write buffer of a transaction keeps track of the statements that it has executed. -/
structure Tracks (db : Database MemoryTable) (t : TransactionId) (log : WriteBuffer)
    (past : List (Statement × Result)) : Prop where
  /-- The buffer is in order. -/
  ascending : WriteBuffer.Ascending log.groups
  /-- Every write comes from a statement that was checked. -/
  sourced : ∀ e ∈ log.entries, ∃ s, db.locate s = .ok e.place ∧ s.write? = some e.write
  /-- Executed alone, the statements yield the same and leave what the buffer shows. -/
  executed : ∀ B, db.Agrees t B → Serial.transaction db.locate (past.map Prod.fst) B =
    (past.map Prod.snd, log.overlay B)
  /-- Applying the buffer leaves that, too. -/
  replayed : ∀ B, db.Agrees t B → Contents.replay log.entries B = some (log.overlay B)

/-- The table of a statement's row was looked up. -/
structure Located (db : Database MemoryTable) (s : Statement) (target : Target) : Prop where
  /-- The statement was checked. -/
  locate : db.locate s = .ok ⟨target.id, s.key⟩
  /-- The table is the registered one. -/
  entry : ∃ entry, db.registry.get? target.id = some entry ∧ entry.table = target.table

/-- A statement of `t` has to read its row from the table. -/
structure Reads (db : Database MemoryTable) (t : TransactionId) (log : WriteBuffer) (s : Statement)
    (target : Target) : Prop where
  /-- The table was looked up. -/
  located : db.Located s target
  /-- The statement does not insert. -/
  value : s.value? = none
  /-- The transaction has not written the row. -/
  unwritten : log.newest? target.id s.key = none
  /-- It has locked the row. -/
  writes : db.Writes t ⟨target.id, s.key⟩

/-- What a statement of `t` has found out where it stands. -/
def Midway (db : Database MemoryTable) (t : TransactionId) (log : WriteBuffer) (s : Statement) :
    Stand → Prop
  | .issued => True
  | .locking target _ => db.Located s target
  | .reading target => db.Reads t log s target
  | .fetched target row =>
    db.Reads t log s target ∧ row = db.contents.read ⟨target.id, s.key⟩
  | .draining _ _ | .applying _ _ | .applied _ _ | .finished _ => False

/-! ## Executing one more statement -/

/-- A lookup through the buffer shows the newest write, or else what the table holds. -/
theorem overlay_of_agrees {B : Contents} (hB : db.Agrees t B) (hwrites : db.Writes t k) :
    log.overlay B k = log.overlay db.contents k := by
  unfold WriteBuffer.overlay
  rw [hB k hwrites]

/-- A history may be extended by a statement that yields the same alone, and that changes what the
buffer shows as it would change the contents. -/
theorem Tracks.extend (h : db.Tracks t log past) (hascending : WriteBuffer.Ascending log'.groups)
    (hsourced : ∀ e ∈ log'.entries, ∃ s, db.locate s = .ok e.place ∧ s.write? = some e.write)
    (hstep : ∀ B, db.Agrees t B →
      Serial.statement db.locate s (log.overlay B) = (r, log'.overlay B))
    (hreplay : ∀ B, db.Agrees t B → Contents.replay log'.entries B = some (log'.overlay B)) :
    db.Tracks t log' (past ++ [(s, r)]) := by
  refine ⟨hascending, hsourced, fun B hB => ?_, hreplay⟩
  rw [List.map_append, List.map_append]
  show Serial.transaction db.locate (past.map Prod.fst ++ [s]) B = (past.map Prod.snd ++ [r], _)
  rw [Serial.transaction_append (h.executed B hB) s, hstep B hB]

/-- A statement may leave the buffer as it is. -/
theorem Tracks.unwritten (h : db.Tracks t log past)
    (hstep : ∀ B, db.Agrees t B →
      Serial.statement db.locate s (log.overlay B) = (r, log.overlay B)) :
    db.Tracks t log (past ++ [(s, r)]) :=
  h.extend h.ascending h.sourced hstep h.replayed

/-- A statement may add its write to the buffer; a row that it removes must be there. -/
theorem Tracks.written {w : Write} (h : db.Tracks t log past) (hlocate : db.locate s = .ok k)
    (hwrite : s.write? = some w)
    (hstep : ∀ B, db.Agrees t B →
      Serial.statement db.locate s (log.overlay B) = (r, (log.overlay B).set k w.value?))
    (hthere : ∀ B, db.Agrees t B → w = .delete → log.overlay B k ≠ none) :
    db.Tracks t (log.append k.table k.row w) (past ++ [(s, r)]) := by
  -- To the transaction the write is already made, though the tables do not have it yet.
  have hoverlay : ∀ B : Contents,
      (log.append k.table k.row w).overlay B = (log.overlay B).set k w.value? :=
    fun B => WriteBuffer.overlay_append h.ascending k.table k.row w B
  refine h.extend (WriteBuffer.ascending_appendTo h.ascending) (fun e he => ?_) (fun B hB => ?_)
    fun B hB => ?_
  · rcases WriteBuffer.mem_entries_append he with he | rfl
    · exact h.sourced e he
    · exact ⟨s, hlocate, hwrite⟩
  · rw [hoverlay]
    exact hstep B hB
  · rw [WriteBuffer.replay_append h.ascending, h.replayed B hB, hoverlay, Option.bind_some]
    unfold Contents.write
    rw [if_neg fun hdelete => hthere B hB hdelete.1 hdelete.2]
    rfl

/-- A statement that fails its checks fails alone, too. -/
theorem Tracks.refuse {e : Error} (h : db.Tracks t log past) (hlocate : db.locate s = .error e) :
    db.Tracks t log (past ++ [(s, .error e)]) := by
  refine h.unwritten fun B _ => ?_
  unfold Serial.statement
  rw [hlocate]

/-- A write needs no look at its row. -/
theorem Tracks.put {table : String} {key value : Value} (h : db.Tracks t log past)
    (hlocate : db.locate (.put table key value) = .ok k) :
    db.Tracks t (log.append k.table k.row (.put value))
      (past ++ [(.put table key value, .ok none)]) := by
  refine h.written hlocate rfl (fun B _ => ?_) fun B _ => nofun
  unfold Serial.statement
  rw [hlocate]
  rfl

/-- A read yields what the transaction sees. -/
theorem Tracks.get {table : String} {key : Value} (h : db.Tracks t log past)
    (hlocate : db.locate (.get table key) = .ok k) (hwrites : db.Writes t k) :
    db.Tracks t log (past ++ [(.get table key,
      match log.overlay db.contents k with
      | some v => .ok (some v)
      | none => .error (.one (.table (.keyNotFound key))))]) := by
  refine h.unwritten fun B hB => ?_
  unfold Serial.statement
  rw [hlocate, ← overlay_of_agrees hB hwrites]
  dsimp only
  cases log.overlay B k <;> rfl

/-- A removal of a row that the transaction sees is buffered. -/
theorem Tracks.delete {table : String} {key v : Value} (h : db.Tracks t log past)
    (hlocate : db.locate (.delete table key) = .ok k) (hwrites : db.Writes t k)
    (hthere : log.overlay db.contents k = some v) :
    db.Tracks t (log.append k.table k.row .delete) (past ++ [(.delete table key, .ok none)]) := by
  have hsees : ∀ B, db.Agrees t B → log.overlay B k = some v :=
    fun B hB => (overlay_of_agrees hB hwrites).trans hthere
  refine h.written hlocate rfl (fun B hB => ?_) fun B hB _ hnone => ?_
  · unfold Serial.statement
    rw [hlocate]
    dsimp only
    rw [hsees B hB]
    rfl
  · rw [hsees B hB] at hnone
    cases hnone

/-- A removal of a row that the transaction does not see fails. -/
theorem Tracks.delete_none {table : String} {key : Value} (h : db.Tracks t log past)
    (hlocate : db.locate (.delete table key) = .ok k) (hwrites : db.Writes t k)
    (hthere : log.overlay db.contents k = none) :
    db.Tracks t log
      (past ++ [(.delete table key, .error (.one (.table (.keyNotFound key))))]) := by
  refine h.unwritten fun B hB => ?_
  have hsees : log.overlay B k = none := (overlay_of_agrees hB hwrites).trans hthere
  unfold Serial.statement
  rw [hlocate]
  dsimp only
  rw [hsees]

/-! ## Change of state -/

/-- Locks and rows that a transaction has are all that it keeps track of. -/
theorem Tracks.mono (h : db.Tracks t log past) (hlocate : db'.locate = db.locate)
    (hwrites : ∀ k, db.Writes t k → db'.Writes t k)
    (hcontents : ∀ k, db.Writes t k → db'.contents k = db.contents k) :
    db'.Tracks t log past := by
  have hagrees : ∀ B, db'.Agrees t B → db.Agrees t B :=
    fun B hB k hk => (hB k (hwrites k hk)).trans (hcontents k hk)
  refine ⟨h.ascending, ?_, fun B hB => ?_, fun B hB => h.replayed B (hagrees B hB)⟩
  · rw [hlocate]
    exact h.sourced
  · rw [hlocate]
    exact h.executed B (hagrees B hB)

/-- Only the locks and the tables matter. -/
theorem Tracks.of_eq (h : db.Tracks t log past) (hlocks : db'.locks = db.locks)
    (hregistry : db'.registry = db.registry) (hstore : db'.store = db.store) :
    db'.Tracks t log past := by
  have hcontents : db'.contents = db.contents := by
    show Contents.of db'.registry db'.store = Contents.of db.registry db.store
    rw [hregistry, hstore]
  have hlocate : db'.locate = db.locate := by
    show Serial.locate db'.registry db'.store = Serial.locate db.registry db.store
    rw [hregistry, hstore]
  refine h.mono hlocate (fun k hk => ?_) fun k _ => congrFun hcontents k
  unfold Writes
  rw [hlocks]
  exact hk

/-- A table that was looked up stays the one. -/
theorem Located.mono (h : db.Located s target) (hregistry : db'.registry = db.registry)
    (hlocate : db'.locate = db.locate) : db'.Located s target := by
  refine ⟨?_, ?_⟩
  · rw [hlocate]
    exact h.locate
  · rw [hregistry]
    exact h.entry

/-- What a statement has found out stays true as long as its transaction keeps its locks and the
rows under them. -/
theorem Midway.mono {stand : Stand} (h : db.Midway t log s stand)
    (hregistry : db'.registry = db.registry) (hlocate : db'.locate = db.locate)
    (hwrites : ∀ k, db.Writes t k → db'.Writes t k)
    (hcontents : ∀ k, db.Writes t k → db'.contents k = db.contents k) :
    db'.Midway t log s stand := by
  have hreads : ∀ target, db.Reads t log s target → db'.Reads t log s target := fun target h =>
    ⟨h.located.mono hregistry hlocate, h.value, h.unwritten, hwrites _ h.writes⟩
  cases stand with
  | issued => trivial
  | locking target w => exact Located.mono h hregistry hlocate
  | reading target => exact hreads target h
  | fetched target row =>
    obtain ⟨hr, hrow⟩ := h
    refine ⟨hreads target hr, hrow.trans ?_⟩
    unfold Contents.read
    rw [hcontents _ hr.writes]
  | draining purpose result => exact h
  | applying plan result => exact h
  | applied errors result => exact h
  | finished result => exact h

end Database

end TxStore
