import TxStore.Proofs.Database.Solitary

/-!
# A read on a database that is at rest

On a database on which nothing has run yet (`Blank`), a read in a transaction that has just begun
has the only task there is. The task stands alone in line until it is over (`Sole`): its lock is
granted at once, the row is read, and the caller is told what the table holds (`Blank.read`).
-/

namespace TxStore.Database

variable {σ : Type} {db : Database σ} {i : TaskId} {op : Operation} {me : Lock.Holder}
  {txn : Transaction} {target : Target} {name : String} {key : Value}

/-- Whether there are tables at most: no transaction was begun and no call was made. -/
structure Blank (db : Database σ) : Prop where
  /-- Nobody has asked for a lock. -/
  locks : db.locks = .new db.config.lockTimeout
  /-- No transaction was begun. -/
  directory : db.directory = .empty
  /-- No connection is attached. -/
  attached : db.attached = ∅
  /-- No call was made. -/
  tasks : db.tasks = #[]
  /-- Nothing is in line. -/
  ready : db.ready = []

/-- An operation has the only task in line, in a transaction that has written nothing. -/
structure Sole (db : Database σ) (i : TaskId) (op : Operation) (me : Lock.Holder)
    (txn : Transaction) : Prop where
  /-- It is an operation of the transaction. -/
  runs : db.Runs i op me
  /-- It stands alone in line. -/
  ready : db.ready = [i]
  /-- Its transaction was started. -/
  found : db.directory.find? me.txn = some txn
  /-- It has written nothing. -/
  log : txn.log = .empty
  /-- Nobody waits for it. -/
  parked : txn.parked = []

/-- What a read is told of its row. -/
def rowResult : Outcome Value → Result
  | .done value => .ok (some value)
  | .failed e => .error (Cause.table e)
  | .broken text => .error (Cause.taskFailed text)

/-- A key for which nobody has asked is granted at once. -/
theorem acquire_new (timeout : Option Duration) (now : Duration) (me : Lock.Holder)
    (k : Lock.Key) : ∃ m, (Lock.Manager.new timeout).acquire now .write me k =
      (m, .answered (.ok ())) ∧ m.resolved = [] :=
  ⟨_, rfl, rfl⟩

/-- An operation that is put back in line stands alone there. -/
theorem Sole.moved (h : Sole db i op me txn) (stand : Stand) :
    Sole (((db.pop i).setStand i stand).wake [i]) i { op with stand := stand } me txn := by
  have hruns : (db.pop i).Runs i op me := h.runs
  refine ⟨hruns.setStand stand, ?_, ?_, h.log, h.parked⟩
  · unfold Database.wake
    rw [setStand_eq]
    show (db.ready.erase i) ++ List.filter (fun j => j ∉ db.ready.erase i) [i] = [i]
    rw [h.ready]
    simp
  · unfold Database.wake
    rw [setStand_eq]
    exact h.found

variable [Backend σ]

/-- It has the first turn. -/
theorem Sole.settleWithin_succ (h : Sole db i op me txn) (fuel : Nat) :
    settleWithin (fuel + 1) db = settleWithin fuel (db.resume i) := by
  rw [settleWithin, h.ready]

/-- A read that has begun has its lock and goes on to read its row. -/
theorem Sole.begins {timeout : Option Duration} {entry : Registered TableRef} {id : TableId}
    {table : σ} (h : Sole db i op me txn) (hcall : op.call = .statement (.get name key))
    (hstand : op.stand = .issued) (hlocks : db.locks = .new timeout)
    (hlook : db.registry.lookUp name = .ok (id, entry)) (htable : db.store[entry.table]? = some table)
    (hvalid : Backend.validate table key none = .done ()) :
    Sole (db.resume i) i { op with stand := .reading ⟨id, entry.table⟩ } me txn ∧
      (db.resume i).store = db.store := by
  obtain ⟨m, hacquire, hresolved⟩ := acquire_new timeout db.now me ⟨id, key⟩
  have hlone : Sole { db with locks := m } i op me txn :=
    ⟨h.runs, h.ready, h.found, h.log, h.parked⟩
  have hbuffered :
      ({ db with locks := m }.pop i).buffered? me.txn ⟨id, entry.table⟩ key = none := by
    unfold buffered?
    show (db.directory.find? me.txn).bind _ = none
    rw [h.found, Option.bind_some, h.log]
    rfl
  have hresolved' : m.resolved = (db.pop i).locks.resolved := by
    rw [hresolved, show (db.pop i).locks = _ from hlocks]
    rfl
  -- The operation asks for its lock, is granted it at once, and finds that its transaction has not
  -- written the row.
  have heq : db.resume i = (({ db with locks := m }.pop i).setStand i
      (.reading ⟨id, entry.table⟩)).wake [i] := calc
    db.resume i = (db.pop i).begin i op me (.get name key) := by
      rw [resume_eq h.runs]
      show (db.pop i).resumeOperation i op me = _
      unfold resumeOperation
      rw [hstand, hcall]
    _ = (db.pop i).acquired i op me.txn (.get name key) ⟨id, entry.table⟩
        (db.locks.acquire db.now .write me ⟨id, key⟩) := by
      have hlook' : (db.pop i).registry.lookUp (Statement.get name key).table = .ok (id, entry) :=
        hlook
      have htable' : (db.pop i).store[entry.table]? = some table := htable
      have hvalid' : Backend.validate table (Statement.get name key).key
          (Statement.get name key).value? = .done () := hvalid
      unfold begin
      rw [hlook']
      dsimp only
      rw [htable']
      dsimp only
      rw [hvalid']
      rfl
    _ = ({ db with locks := m }.pop i).locked i op me.txn (.get name key) ⟨id, entry.table⟩ := by
      rw [hlocks, hacquire]
      show ((db.pop i).withLocks m).locked i op me.txn (.get name key) _ = _
      rw [withLocks_of_resolved hresolved']
      rfl
    _ = _ := by
      unfold locked
      dsimp only
      rw [hbuffered]
  rw [heq]
  refine ⟨hlone.moved _, ?_⟩
  unfold Database.wake
  rw [setStand_eq]
  rfl

/-- It reads what its table holds. -/
theorem Sole.reads (h : Sole db i op me txn) (hcall : op.call = .statement (.get name key))
    (hstand : op.stand = .reading target) :
    Sole (db.resume i) i { op with stand := .fetched target (db.readRow target key) } me txn := by
  have heq : db.resume i =
      ((db.pop i).setStand i (.fetched target (db.readRow target key))).wake [i] := by
    rw [resume_eq h.runs]
    show (db.pop i).resumeOperation i op me = _
    unfold resumeOperation
    rw [hstand, hcall]
    rfl
  rw [heq]
  exact h.moved _

omit [Backend σ] in
/-- Nobody is put in line when it leaves its transaction. -/
theorem Sole.ready_leave (h : Sole db i op me txn) : ((db.pop i).leave me.txn).ready = [] := by
  have hpop : (db.pop i).ready = [] := by
    show db.ready.erase i = []
    rw [h.ready, List.erase_cons_head]
  have hwoken : txn.deregister.2 = [] := by
    unfold Transaction.deregister
    split
    · exact h.parked
    · rfl
  have hfound : (db.pop i).directory.find? me.txn = some txn := h.found
  unfold Database.leave
  rw [hfound]
  show ((db.pop i).withDirectory _ |>.wake txn.deregister.2).ready = []
  rw [hwoken]
  show (db.pop i).ready ++ [] = []
  rw [hpop, List.append_nil]

/-- Then it is over, and nothing is left in line. -/
theorem Sole.ends {row : Outcome Value} (h : Sole db i op me txn)
    (hcall : op.call = .statement (.get name key)) (hopened : op.opened = false)
    (hstand : op.stand = .fetched target row) :
    (db.resume i).result? i = some (rowResult row) ∧ (db.resume i).ready = [] := by
  -- The transaction was not opened for the operation, so it goes on whatever the operation is told.
  have hconclude : ∀ ending r, ending.result? = some r →
      (db.pop i).conclude i op me.txn ending = ((db.pop i).leave me.txn).finish i r := by
    intro ending r hresult
    unfold Database.conclude
    cases ending with
    | done value | failed e =>
      cases hresult
      exact if_neg (hopened ▸ Bool.false_ne_true)
    | refused why | broken text => cases hresult
  have heq : db.resume i = ((db.pop i).leave me.txn).finish i (rowResult row) := by
    rw [resume_eq h.runs]
    show (db.pop i).resumeOperation i op me = _
    unfold resumeOperation
    rw [hstand, hcall]
    show (db.pop i).fetched i op me.txn (.get name key) target row = _
    cases row with
    | done value => exact hconclude (.done (some value)) _ rfl
    | failed e => exact hconclude (.failed (.one (.table e))) _ rfl
    | broken text => exact hconclude (.failed (.one (.taskFailed text))) _ rfl
  have hruns : ((db.pop i).leave me.txn).Runs i op me :=
    (runs_of_tasks (tasks_leave ..)).mpr h.runs
  rw [heq]
  unfold Database.finish
  constructor
  · unfold Database.result?
    rw [(hruns.setStand (.finished (rowResult row))).1]
    rfl
  · rw [setStand_eq]
    exact h.ready_leave

/-- A sole read is told what its table holds when the line has been run. -/
theorem Sole.settles {timeout : Option Duration} {entry : Registered TableRef} {id : TableId}
    {table : σ} (h : Sole db i op me txn) (hcall : op.call = .statement (.get name key))
    (hstand : op.stand = .issued) (hopened : op.opened = false) (hlocks : db.locks = .new timeout)
    (hlook : db.registry.lookUp name = .ok (id, entry)) (htable : db.store[entry.table]? = some table)
    (hvalid : Backend.validate table key none = .done ()) :
    db.settle.result? i = some (rowResult (Backend.get table key)) := by
  obtain ⟨hbegun, hstore⟩ := h.begins hcall hstand hlocks hlook htable hvalid
  have hread := hbegun.reads hcall rfl
  have hrow : (db.resume i).readRow ⟨id, entry.table⟩ key = Backend.get table key := by
    unfold readRow
    rw [hstore, htable]
  obtain ⟨hresult, hready⟩ := hread.ends hcall hopened rfl
  rw [hrow] at hresult
  -- Three turns of the line are all there is to run, and there is fuel for more.
  obtain ⟨fuel, hfuel⟩ : ∃ fuel, db.ready.length + 6 * db.tasks.size = fuel + 4 := by
    have hsize : 0 < db.tasks.size :=
      Nat.zero_lt_of_lt (Array.getElem?_eq_some_iff.mp h.runs.1).1
    exact ⟨db.ready.length + 6 * db.tasks.size - 4, by omega⟩
  unfold settle
  rw [hfuel, h.settleWithin_succ, hbegun.settleWithin_succ, hread.settleWithin_succ]
  unfold settleWithin
  rw [hready]
  exact hresult

omit [Backend σ] in
/-- A transaction may be begun where nothing has run yet. -/
theorem Blank.begins (h : db.Blank) (c : ConnectionId) :
    ∃ t ts db', db.beginTransaction c = (.ok t, db') ∧ db'.Holds c t (.new t c ts .explicit) 0 ∧
      db'.locks = db.locks ∧ db'.registry = db.registry ∧ db'.store = db.store ∧
      db'.ready = [] := by
  have hdetached : ¬ db.attached.contains c := by
    rw [h.attached]
    exact Bool.false_ne_true
  have hcurrent : db.directory.current.get? c = none := by
    rw [h.directory]
    rfl
  unfold beginTransaction
  rw [if_neg hdetached, start_eq hcurrent]
  refine ⟨_, db.clock.read.1, _, rfl, ⟨?_, ?_, ?_, ?_⟩, rfl, rfl, rfl, h.ready⟩
  · exact Dict.get?_insert_self ..
  · exact (Directory.find?_place ..).trans (if_pos rfl)
  · rfl
  · rfl

/-- A read in a transaction that has just begun is told what its table holds. -/
theorem Blank.read {entry : Registered TableRef} {id : TableId} {table : σ} (h : db.Blank)
    (c : ConnectionId) (hlook : db.registry.lookUp name = .ok (id, entry))
    (htable : db.store[entry.table]? = some table)
    (hvalid : Backend.validate table key none = .done ()) :
    ∃ t db', db.beginTransaction c = (.ok t, db') ∧
      (db'.call c (.statement (.get name key))).1 = some (rowResult (Backend.get table key)) := by
  obtain ⟨t, ts, db', hbegin, hholds, hlocks, hregistry, hstore, hready⟩ := h.begins c
  refine ⟨t, db', hbegin, ?_⟩
  unfold Database.call
  dsimp only
  rw [hholds.submit_eq]
  generalize htxn : Transaction.new t c ts .explicit = txn at hholds ⊢
  have hnew : txn.log = .empty ∧ txn.parked = [] ∧ txn.holder.txn = t := by
    subst htxn
    exact ⟨rfl, rfl, rfl⟩
  obtain ⟨hlog, hparked, hid⟩ := hnew
  have hfound := (Directory.find?_set hholds.found { txn with inFlight := 1 } t).trans (if_pos rfl)
  -- The call has put the operation in line, where it stands alone.
  have hsole : Sole (((db'.withDirectory
      (db'.directory.set t { txn with inFlight := 1 })).push (.operation
        ⟨c, .statement (.get name key), some txn.holder, false, .issued⟩)).wake [db'.tasks.size])
      db'.tasks.size ⟨c, .statement (.get name key), some txn.holder, false, .issued⟩ txn.holder
      { txn with inFlight := 1 } := by
    refine ⟨⟨Array.getElem?_push_size, rfl⟩, ?_, ?_, hlog, hparked⟩
    · show db'.ready ++ List.filter (fun j => j ∉ db'.ready) [db'.tasks.size] = _
      rw [hready]
      rfl
    · rw [hid]
      exact hfound
  have hlook' : db'.registry.lookUp name = .ok (id, entry) := by rw [hregistry, hlook]
  have htable' : db'.store[entry.table]? = some table := by rw [hstore, htable]
  exact hsole.settles rfl rfl rfl (hlocks.trans h.locks) hlook' htable' hvalid

end TxStore.Database
