import TxStore.Proofs.Database.Solitary
import TxStore.Proofs.Table.Memory
import TxStore.Workload.Counter

/-!
# The row that is counted up

The row of a plan is kept in a table in memory, and every statement of the workload reads it or
writes a number to it. A statement of a connection that makes one call at a time is alone in its
transaction (`Serves`). Its next turn leads it on, or it is refused its lock, or a read ends with
what the row holds, or a write ends (`Serves.bodyEnding?_cases`). The row itself changes only when
the write of a commit is applied to it (`Finds.applyPlan_eq`).
-/

namespace TxStore.CounterPlan

open Database

variable {p : CounterPlan} {target : Target} {t : MemoryTable} {db db' : Database Table} {i : TaskId}
  {op : Operation} {me : Lock.Holder} {txn : Transaction} {s : Statement} {n : Int64} {v : Value}

/-- The statement that reads the row. -/
def read (p : CounterPlan) : Statement :=
  .get p.table (.integer p.key)

/-- The statement that writes a number to the row. -/
def write (p : CounterPlan) (n : Int64) : Statement :=
  .put p.table (.integer p.key) (.integer n)

/-- Whether a statement reads the row or writes a number to it. -/
def OnRow (p : CounterPlan) (s : Statement) : Prop :=
  s = p.read ∨ ∃ n, s = p.write n

/-- What a table holds in the row. -/
def rowIn (p : CounterPlan) (t : MemoryTable) : Option Value :=
  t.rows.get? (.integer p.key)

/-- The number after the one that a table holds in the row. -/
def nextIn (p : CounterPlan) (t : MemoryTable) : Int64 :=
  ((p.rowIn t).bind Value.integer?).getD 0 + 1

/-- The lock of the row. -/
def lock (p : CounterPlan) (target : Target) : Lock.Key :=
  ⟨target.id, .integer p.key⟩

/-- Whether a transaction has the lock of the row. -/
def Writes (p : CounterPlan) (target : Target) (db : Database Table) (u : TransactionId) : Prop :=
  (db.locks.lockOf (p.lock target)).holders.writes u

/-- Whether a table takes numbers in the row. -/
def Fits (p : CounterPlan) (t : MemoryTable) : Prop :=
  t.keyKind.accepts (.integer p.key) ∧ t.valueKind.accepts (.integer 0)

/-- The table of the plan is the one in memory that a target names. -/
structure Finds (p : CounterPlan) (target : Target) (t : MemoryTable) (db : Database Table) : Prop where
  /-- It is registered. -/
  looked : ∃ entry, db.registry.lookUp p.table = .ok (target.id, entry) ∧ entry.table = target.table
  /-- It is kept in memory. -/
  table : db.store[target.table]? = some (.memory t)

/-- Where a statement on the row stands before it ends. -/
inductive Stands (p : CounterPlan) (target : Target) (t : MemoryTable) (s : Statement) :
    Stand → Prop where
  /-- It has not begun. -/
  | issued : Stands p target t s .issued
  /-- It waits for its lock. -/
  | locking (w : Lock.Waiting) : Stands p target t s (.locking target w)
  /-- It is to read the row. -/
  | reading (reads : s = p.read) : Stands p target t s (.reading target)
  /-- It has read what the row holds. -/
  | fetched {v : Value} (reads : s = p.read) (row : p.rowIn t = some v) :
      Stands p target t s (.fetched target (.done v))

/-- A statement on the row that is alone in a transaction without writes. -/
structure Serves (p : CounterPlan) (target : Target) (t : MemoryTable) (db : Database Table)
    (i : TaskId) (op : Operation) (me : Lock.Holder) (txn : Transaction) (s : Statement) : Prop where
  /-- It is task `i`. -/
  runs : db.Runs i op me
  /-- It is this statement. -/
  call : op.call = .statement s
  /-- It reads the row or writes a number to it. -/
  onRow : p.OnRow s
  /-- It is the only operation of its transaction in flight. -/
  holds : db.Holds op.connection me.txn txn 1
  /-- The transaction has no writes. -/
  empty : txn.log = .empty
  /-- It has not ended. -/
  stands : p.Stands target t s op.stand

/-- A statement on the row is at work where it stands. -/
theorem Stands.working {stand : Stand} (h : p.Stands target t s stand) : stand.isWorking := by
  cases h <;> rfl

/-- It works on the table of the plan. -/
theorem Stands.target_eq {found : Target} {stand : Stand} (h : p.Stands target t s stand)
    (hfound : stand.target? = some found) : found = target := by
  cases h with
  | issued => cases hfound
  | locking w | reading reads | fetched reads row => exact (Option.some.inj hfound).symm

/-- Unless it has read what the row holds, it does not rely on that. -/
theorem Stands.relies {stand : Stand} (h : p.Stands target t s stand) :
    (∀ t', p.Stands target t' s stand) ∨ ∃ row, stand = .fetched target row := by
  cases h with
  | issued => exact .inl fun _ => .issued
  | locking w => exact .inl fun _ => .locking w
  | reading reads => exact .inl fun _ => .reading reads
  | fetched reads row => exact .inr ⟨_, rfl⟩

/-- If its row is to be read it is the read. -/
theorem Stands.of_reading {found : Target} {stand : Stand} (h : p.Stands target t s stand)
    (hstand : stand = .reading found) : found = target ∧ s = p.read := by
  cases h with
  | reading reads =>
    cases hstand
    exact ⟨rfl, reads⟩
  | issued | locking w | fetched reads row => cases hstand

/-! ## The table -/

/-- Statements on the row name its table. -/
theorem OnRow.table_eq (h : p.OnRow s) : s.table = p.table := by
  rcases h with rfl | ⟨n, rfl⟩ <;> rfl

/-- And its key. -/
theorem OnRow.key_eq (h : p.OnRow s) : s.key = .integer p.key := by
  rcases h with rfl | ⟨n, rfl⟩ <;> rfl

/-- A table that takes zero takes every number. -/
theorem Fits.check_write (h : p.Fits t) (n : Int64) :
    t.check (.integer p.key) (some (.integer n)) = .ok () := by
  have hvalue : t.valueKind.accepts (.integer n) := h.2
  unfold MemoryTable.check
  rw [if_pos h.1]
  exact if_pos hvalue

/-- And lets the row be read. -/
theorem Fits.check_read (h : p.Fits t) : t.check (.integer p.key) none = .ok () := by
  unfold MemoryTable.check
  exact if_pos h.1

/-- A table that fits passes the statements on the row. -/
theorem Fits.validate (h : p.Fits t) (honRow : p.OnRow s) :
    Backend.validate (Table.memory t) s.key s.value? = .done () := by
  show Outcome.ofExcept (t.check s.key s.value?) = _
  rcases honRow with rfl | ⟨n, rfl⟩
  · have hcheck : t.check p.read.key p.read.value? = .ok () := h.check_read
    rw [hcheck]
    rfl
  · have hcheck : t.check (p.write n).key (p.write n).value? = .ok () := h.check_write n
    rw [hcheck]
    rfl

/-- Nothing that leaves the tables alone changes which one is found. -/
theorem Finds.of_stable (h : p.Finds target t db) (hstable : Stable db db') : p.Finds target t db' :=
  ⟨hstable.registry ▸ h.looked, hstable.store ▸ h.table⟩

/-- Whoever looks for the table finds this one. -/
theorem Finds.eq_of_lookUp {found : Target} {entry : Registered TableRef} (h : p.Finds target t db)
    (hlook : db.registry.lookUp p.table = .ok (found.id, entry)) (href : entry.table = found.table) :
    found = target := by
  obtain ⟨entry', hlook', href'⟩ := h.looked
  obtain ⟨hid, hentry⟩ := Prod.mk.inj (Except.ok.inj (hlook'.symm.trans hlook))
  have htable : target.table = found.table := by
    rw [← href, ← href', hentry]
  obtain ⟨id, ref⟩ := found
  exact (congr (congrArg Target.mk hid) htable).symm

/-- A background read yields what the row holds. -/
theorem Finds.readRow_eq (h : p.Finds target t db) (hfits : p.Fits t) (hrow : p.rowIn t = some v) :
    db.readRow target p.read.key = .done v := by
  unfold readRow
  rw [h.table]
  show Outcome.ofExcept (t.get (.integer p.key)) = _
  rw [MemoryTable.get_eq hfits.check_read]
  have hget : t.rows.get? (.integer p.key) = some v := hrow
  rw [hget]
  rfl

/-- The write of a number to the row is applied without an error, and nothing else changes. -/
theorem Finds.applyPlan_eq (h : p.Finds target t db) (hfits : p.Fits t) (n : Int64) :
    ∃ t' store, applyPlan db.store (db.plan [⟨target.id, .integer p.key, .put (.integer n)⟩]) =
        (store, .ok []) ∧ store[target.table]? = some (.memory t') ∧ p.Fits t' ∧
      p.rowIn t' = some (.integer n) := by
  obtain ⟨entry, hlook, href⟩ := h.looked
  have hget : db.registry.get? target.id = some entry := Registry.get?_of_lookUp hlook
  have hlt : target.table < db.store.size := (Array.getElem?_eq_some_iff.mp h.table).1
  have happly : applyWrite (Table.memory t) ⟨target.id, .integer p.key, .put (.integer n)⟩ =
      .done (.memory { t with rows := t.rows.insert (.integer p.key) (.integer n) }) := by
    show Outcome.bind (Outcome.ofExcept (t.put (.integer p.key) (.integer n))) _ = _
    rw [MemoryTable.put_eq (hfits.check_write n)]
    rfl
  refine ⟨{ t with rows := t.rows.insert (.integer p.key) (.integer n) }, db.store.setIfInBounds
    target.table (.memory { t with rows := t.rows.insert (.integer p.key) (.integer n) }), ?_,
    Array.getElem?_setIfInBounds_self_of_lt hlt, hfits, ?_⟩
  · unfold Database.plan
    rw [List.map_singleton, hget]
    unfold applyPlan
    dsimp only [Option.map_some, Option.bind_some]
    rw [href, h.table]
    dsimp only [Option.map_some]
    rw [happly]
    rfl
  · exact (Rows.get?_insert ..).trans (if_pos rfl)

/-! ## Statements on the row -/

/-- A statement that has looked for its lock waits, is refused it, or goes on with it. -/
theorem acquiredEnding?_eq {u : TransactionId} (db : Database Table) (target : Target)
    (s : Statement) (a : Lock.Acquisition) :
    db.acquiredEnding? u target s a = none ∨
      (∃ why, db.acquiredEnding? u target s a = some (.refused why)) ∨
      db.acquiredEnding? u target s a = db.lockedEnding? u target s := by
  match a with
  | .answered (.ok ()) => exact .inr (.inr rfl)
  | .answered (.error why) => exact .inr (.inl ⟨why, rfl⟩)
  | .waiting w => exact .inl rfl

/-- Where nothing is buffered a read goes on with its lock, and a write ends. -/
theorem Serves.lockedEnding?_eq (h : p.Serves target t db i op me txn s) :
    s = p.read ∧ db.lockedEnding? me.txn target s = none ∨
      ∃ n, s = p.write n ∧ db.lockedEnding? me.txn target s = some (.done none) := by
  rcases h.onRow with rfl | ⟨n, rfl⟩
  · have hbuffered : db.buffered? me.txn target (.integer p.key) = none := by
      unfold buffered?
      rw [h.holds.found]
      show txn.log.newest? target.id _ = none
      rw [h.empty]
      rfl
    refine .inl ⟨rfl, ?_⟩
    unfold lockedEnding? CounterPlan.read
    dsimp only
    rw [hbuffered]
  · exact .inr ⟨n, rfl, rfl⟩

/-- What may become of a statement on the row in its next turn. -/
theorem Serves.bodyEnding?_cases (h : p.Serves target t db i op me txn s)
    (hfinds : p.Finds target t db) (hfits : p.Fits t) :
    db.bodyEnding? op me = none ∨
      (∃ why, db.bodyEnding? op me = some (.refused why)) ∨
      (s = p.read ∧ ∃ v, p.rowIn t = some v ∧ op.stand = .fetched target (.done v) ∧
        db.bodyEnding? op me = some (.done (some v))) ∨
      ∃ n, s = p.write n ∧ db.bodyEnding? op me = some (.done none) := by
  -- Whether it asks for the lock or looks for the answer, the rest depends on the answer alone.
  have hacquired : ∀ a, db.bodyEnding? op me = db.acquiredEnding? me.txn target s a →
      db.bodyEnding? op me = none ∨ (∃ why, db.bodyEnding? op me = some (.refused why)) ∨
        (s = p.read ∧ ∃ v, p.rowIn t = some v ∧ op.stand = .fetched target (.done v) ∧
          db.bodyEnding? op me = some (.done (some v))) ∨
        ∃ n, s = p.write n ∧ db.bodyEnding? op me = some (.done none) := by
    intro a heq
    rw [heq]
    rcases acquiredEnding?_eq db target s a with hnone | hrefused | hlocked
    · exact .inl hnone
    · exact .inr (.inl hrefused)
    · rw [hlocked]
      rcases h.lockedEnding?_eq with ⟨-, hnone⟩ | ⟨n, hwrite, hdone⟩
      · exact .inl hnone
      · exact .inr (.inr (.inr ⟨n, hwrite, hdone⟩))
  obtain ⟨c, call, holder, opened, stand⟩ := op
  have hcall := h.call
  have hstands := h.stands
  cases hcall
  cases hstands with
  | issued =>
    obtain ⟨entry, hlook, href⟩ := hfinds.looked
    have htable := hfinds.table
    refine hacquired (db.locks.acquire db.now .write me ⟨target.id, s.key⟩).2 ?_
    unfold bodyEnding?
    dsimp only
    rw [h.onRow.table_eq, hlook]
    dsimp only
    rw [href, htable]
    dsimp only
    rw [hfits.validate h.onRow]
  | locking w => exact hacquired (db.locks.poll db.now w).2 rfl
  | reading reads => exact .inl rfl
  | fetched reads row =>
    subst reads
    exact .inr (.inr (.inl ⟨rfl, _, row, rfl, rfl⟩))

/-- A statement on the row whose body goes on stands where such a statement stands. -/
theorem Serves.resume (h : p.Serves target t db i op me txn s) (hfinds : p.Finds target t db)
    (hfits : p.Fits t) (hrow : s = p.read → ∃ v, p.rowIn t = some v)
    (hending : db.bodyEnding? op me = none) :
    ∃ stand, p.Serves target t (db.resume i) i { op with stand := stand } me txn s ∧
      Stable db (db.resume i) ∧
      ∀ Shut, db.locks.Orderly Shut → db.locks.Continues Shut (db.resume i).locks := by
  have hworking : op.stand.isWorking := h.stands.working
  obtain ⟨stand, hgoesOn, hruns, hholds, hstable, hlocks⟩ :=
    h.holds.body_goesOn h.runs h.call hworking hending
  -- A target that the statement has looked up, or will, is the one of the plan.
  have htarget : ∀ found, db.Seeks s op.stand found → found = target := by
    rintro found (hstand | ⟨-, entry, hlook, href⟩)
    · exact h.stands.target_eq hstand
    · exact hfinds.eq_of_lookUp (h.onRow.table_eq ▸ hlook) href
  refine ⟨stand, ⟨hruns, h.call, h.onRow, hholds, h.empty, ?_⟩, hstable, hlocks⟩
  cases hgoesOn with
  | parks seeks w =>
    cases htarget _ seeks
    exact .locking w
  | locks seeks unbuffered =>
    cases htarget _ seeks
    rcases h.lockedEnding?_eq with ⟨hread, -⟩ | ⟨n, -, hdone⟩
    · exact .reading hread
    · cases hdone.symm.trans unbuffered
  | reads begins =>
    obtain ⟨hfound, hread⟩ := h.stands.of_reading begins
    obtain ⟨v, hv⟩ := hrow hread
    have hvalue : db.readRow target s.key = .done v := hread ▸ hfinds.readRow_eq hfits hv
    rw [hfound, hvalue]
    exact .fetched hread hv

/-- The table on which it works is the one of the plan. -/
theorem Serves.tableOf_eq (h : p.Serves target t db i op me txn s) (hfinds : p.Finds target t db) :
    op.tableOf db.registry s = target.id := by
  obtain ⟨entry, hlook, -⟩ := hfinds.looked
  have hid : db.registry.tableId p.table = target.id := Registry.tableId_of_lookUp hlook
  have hstands := h.stands
  unfold Operation.tableOf
  generalize op.stand = stand at hstands
  cases hstands with
  | issued =>
    show db.registry.tableId s.table = target.id
    rw [h.onRow.table_eq, hid]
  | locking w | reading reads | fetched reads row => rfl

/-- When it ends well, it has worked on the row and is concluded. -/
theorem Serves.ends {value : Option Value} (h : p.Serves target t db i op me txn s)
    (hfinds : p.Finds target t db) (hending : db.bodyEnding? op me = some (.done value)) :
    ∃ mid, Labors i op me db
        { txn with log := txn.log.appendAll (entriesAt target.id s (some (.done value))) } mid ∧
      db.resume i = mid.conclude i op me.txn (.done value) := by
  rw [← h.tableOf_eq hfinds]
  exact h.holds.body_ends h.runs h.call h.stands.working hending

/-- A statement that is not the one for which its transaction was made leaves it idle when it ends.
-/
theorem Serves.rested {value : Option Value} (h : p.Serves target t db i op me txn s)
    (hfinds : p.Finds target t db) (hopened : op.opened = false)
    (hending : db.bodyEnding? op me = some (.done value)) :
    Rested i op me db
      { txn with log := txn.log.appendAll (entriesAt target.id s (some (.done value))) } (.ok value)
      (db.resume i) := by
  obtain ⟨mid, hlabors, heq⟩ := h.ends hfinds hending
  have hresult : (Ending.done value).result? = some (.ok value) := rfl
  rw [heq]
  exact hlabors.conclude h.runs hresult hopened

/-- A statement that has read its row has the lock of the row. -/
theorem Serves.writes {row : Outcome Value} (h : p.Serves target t db i op me txn s)
    (htwoPhase : db.TwoPhase) (hstand : op.stand = .fetched target row) :
    p.Writes target db me.txn := by
  have hcovers : db.Backs me.txn s.key op.stand := htwoPhase.backed i op me s h.runs h.call
  rw [hstand, h.onRow.key_eq] at hcovers
  exact hcovers h.holds.not_shut

/-- What happens elsewhere leaves a statement where it stands. -/
theorem Serves.beside (h : p.Serves target t db i op me txn s) (htidy : db.Tidy)
    (hbeside : Beside op.connection db db') : p.Serves target t db' i op me txn s :=
  ⟨hbeside.runs h.runs rfl, h.call, h.onRow, h.holds.beside htidy hbeside, h.empty, h.stands⟩

end TxStore.CounterPlan
