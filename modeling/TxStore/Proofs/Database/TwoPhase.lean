import TxStore.Proofs.Database.Actions
import TxStore.Proofs.Lock.Waiting
import TxStore.Proofs.Transaction.WriteBuffer

/-!
# Buffered writes are covered by locks

A lock is granted in one turn, possibly in a turn of another transaction, and the write is buffered
in a later one. In between the transaction may be committed, rolled back or aborted by its other
operations. `TwoPhase` is the invariant that carries the lock from the grant to the write: as long
as a transaction is not shut, a parked request of it ends with the truth (`Lock.Manager.Awaits`), an
operation that reads its row has the lock, and so has every write in the buffer.

The functions of a turn are built from small changes of the state. Each of these changes keeps the
invariant under a condition of its own: locks may be taken over that continue the present ones, a
transaction may be replaced by one that is open only if it was, and an operation may move to where
the locks back it.
-/

namespace TxStore.Database

variable {σ : Type} {db db' : Database σ} {i : TaskId} {t u : TransactionId} {c : ConnectionId}
  {txn : Transaction} {op : Operation}

/-- Whether a transaction was ever started. -/
def Known (db : Database σ) (t : TransactionId) : Prop :=
  ∃ txn, db.directory.find? t = some txn

/-- Whether a transaction will buffer and apply no more writes. -/
def Shut (db : Database σ) (t : TransactionId) : Prop :=
  ∃ txn, db.directory.find? t = some txn ∧ ¬ txn.IsOpen

/-- Whether `t` is the writer of a key, if it is not shut. -/
def Covers (db : Database σ) (t : TransactionId) (k : Lock.Key) : Prop :=
  ¬ db.Shut t → (db.locks.lockOf k).holders.writes t

/-- What the locks grant to an operation of `t` on a row, by where it stands. -/
def Backs (db : Database σ) (t : TransactionId) (key : Value) : Stand → Prop
  | .locking target w => w.key = ⟨target.id, key⟩ ∧ (¬ db.Shut t → db.locks.Awaits t w)
  | .reading target | .fetched target _ => db.Covers t ⟨target.id, key⟩
  | .issued | .draining _ _ | .applying _ _ | .applied _ _ | .finished _ => True

/-- Locks are taken before a row is read or a write is buffered, and kept until the transaction is
shut. -/
structure TwoPhase (db : Database σ) : Prop where
  /-- Transactions stand under their own identifiers. -/
  numbered : db.directory.Numbered
  /-- The locks are orderly, and only shut transactions have released theirs. -/
  locks : db.locks.Orderly db.Shut
  /-- Every buffered write is covered. -/
  logged : ∀ t txn, db.directory.find? t = some txn →
    ∀ e ∈ txn.log.entries, db.Covers t ⟨e.table, e.key⟩
  /-- Operations belong to transactions that were started. -/
  known : ∀ i op me, db.Runs i op me → db.Known me.txn
  /-- Statements have the locks that they need where they stand. -/
  backed : ∀ i op me s, db.Runs i op me → op.call = .statement s →
    db.Backs me.txn s.key op.stand

/-! ## Change of state -/

/-- What is covered stays covered. -/
theorem Covers.mono {k : Lock.Key} (hshut : ∀ t, db.Shut t → db'.Shut t)
    (hlocks : db.locks.Continues db'.Shut db'.locks) (h : db.Covers t k) : db'.Covers t k :=
  fun hopen => hlocks.writes k t hopen (h fun hshut' => hopen (hshut t hshut'))

/-- What is backed stays backed. -/
theorem Backs.mono {key : Value} {stand : Stand} (hshut : ∀ t, db.Shut t → db'.Shut t)
    (hlocks : db.locks.Continues db'.Shut db'.locks) (h : db.Backs t key stand) :
    db'.Backs t key stand := by
  cases stand with
  | locking target w =>
    exact ⟨h.1, fun hopen => hlocks.awaits t w hopen (h.2 fun hshut' => hopen (hshut t hshut'))⟩
  | reading target => exact Covers.mono hshut hlocks h
  | fetched target row => exact Covers.mono hshut hlocks h
  | issued => trivial
  | draining purpose result => trivial
  | applying plan result => trivial
  | applied errors result => trivial
  | finished result => trivial

/-- The invariant speaks of the transactions, the locks and the tasks only. -/
theorem TwoPhase.of_eq (h : db.TwoPhase)
    (htransactions : db'.directory.transactions = db.directory.transactions)
    (hlocks : db'.locks = db.locks) (htasks : db'.tasks = db.tasks) : db'.TwoPhase := by
  have hfind : db'.directory.find? = db.directory.find? := by
    unfold Directory.find?
    rw [htransactions]
  have hshut : db'.Shut = db.Shut := by
    unfold Shut
    rw [hfind]
  have hknown : db'.Known = db.Known := by
    unfold Known
    rw [hfind]
  have hcovers : db'.Covers = db.Covers := by
    unfold Covers
    rw [hshut, hlocks]
  refine ⟨fun t txn hfound => ?_, ?_, fun t txn hfound => ?_, fun i op me hop => ?_,
    fun i op me s hop hcall => ?_⟩
  · rw [hfind] at hfound
    exact h.numbered t txn hfound
  · rw [hshut, hlocks]
    exact h.locks
  · rw [hfind] at hfound
    rw [hcovers]
    exact h.logged t txn hfound
  · rw [hknown]
    exact h.known i op me ((runs_of_tasks htasks).mp hop)
  · refine (h.backed i op me s ((runs_of_tasks htasks).mp hop) hcall).mono (fun t ht => hshut ▸ ht) ?_
    rw [hshut, hlocks]
    exact h.locks.refl

/-- Waking tasks keeps the invariant. -/
theorem TwoPhase.wake (h : db.TwoPhase) (woken : List TaskId) : (db.wake woken).TwoPhase :=
  h.of_eq rfl rfl rfl

/-- Locks that continue the present ones may be taken over. -/
theorem TwoPhase.withLocks {m : Lock.Manager} (h : db.TwoPhase)
    (hlocks : db.locks.Continues db.Shut m) : (db.withLocks m).TwoPhase := by
  have hcovers : ∀ t k, db.Covers t k → (db.withLocks m).Covers t k :=
    fun t k hcovers => hcovers.mono (fun _ (ht : db.Shut _) => ht) hlocks
  have hbacks : ∀ t key stand, db.Backs t key stand → (db.withLocks m).Backs t key stand :=
    fun t key stand hbacks => hbacks.mono (fun _ (ht : db.Shut _) => ht) hlocks
  exact ⟨h.numbered, hlocks.orderly, fun t txn hfound e he => hcovers t _ (h.logged t txn hfound e he),
    h.known, fun i op me s hop hcall => hbacks _ _ _ (h.backed i op me s hop hcall)⟩

/-- The directory may become another one that loses no transaction, reopens none, and has only
covered writes. -/
theorem TwoPhase.withDirectory {d : Directory} (h : db.TwoPhase) (hnumbered : d.Numbered)
    (hkept : ∀ u old, db.directory.find? u = some old →
      ∃ txn, d.find? u = some txn ∧ (txn.IsOpen → old.IsOpen))
    (hlogged : ∀ u txn, d.find? u = some txn →
      ∀ e ∈ txn.log.entries, db.Covers u ⟨e.table, e.key⟩) : (db.withDirectory d).TwoPhase := by
  have hknown : ∀ u, db.Known u → (db.withDirectory d).Known u := by
    rintro u ⟨old, hold⟩
    obtain ⟨txn, hfound, -⟩ := hkept u old hold
    exact ⟨txn, hfound⟩
  have hshut : ∀ u, db.Shut u → (db.withDirectory d).Shut u := by
    rintro u ⟨old, hold, hclosed⟩
    obtain ⟨txn, hfound, hopen⟩ := hkept u old hold
    exact ⟨txn, hfound, fun h => hclosed (hopen h)⟩
  -- The locks are the same, but more transactions may be shut, of whom nothing is asked.
  have hlocks : db.locks.Continues (db.withDirectory d).Shut db.locks := (h.locks.mono hshut).refl
  exact ⟨hnumbered, hlocks.orderly,
    fun u txn hfound e he => (hlogged u txn hfound e he).mono hshut hlocks,
    fun i op me hop => hknown _ (h.known i op me hop),
    fun i op me s hop hcall => (h.backed i op me s hop hcall).mono hshut hlocks⟩

/-- A transaction may be replaced by one that has the same identifier, is open only if it was, and
has buffered only covered writes. -/
theorem TwoPhase.set (h : db.TwoPhase) (hfound : db.directory.find? t = some txn)
    {txn' : Transaction} (hid : txn'.id = txn.id) (hopen : txn'.IsOpen → txn.IsOpen)
    (hlog : ∀ e ∈ txn'.log.entries, e ∈ txn.log.entries ∨ db.Covers t ⟨e.table, e.key⟩) :
    (db.withDirectory (db.directory.set t txn')).TwoPhase := by
  have hfind := Directory.find?_set hfound txn'
  refine h.withDirectory (fun u old hold => ?_) (fun u old hold => ?_) fun u old hold e he => ?_
  · rw [hfind] at hold
    split at hold
    · rename_i htu
      cases hold
      rw [hid, ← htu]
      exact h.numbered t txn hfound
    · exact h.numbered u old hold
  · rw [hfind]
    split
    · rename_i htu
      subst htu
      rw [hfound] at hold
      cases hold
      exact ⟨txn', rfl, hopen⟩
    · exact ⟨old, hold, fun h => h⟩
  · rw [hfind] at hold
    split at hold
    · rename_i htu
      subst htu
      cases hold
      rcases hlog e he with he | hcovers
      · exact h.logged t txn hfound e he
      · exact hcovers
    · exact h.logged u old hold e he

/-- A new transaction has no writes and no operations. -/
theorem TwoPhase.place (h : db.TwoPhase) (ts : Timestamp) (origin : Origin) :
    (db.withDirectory (db.directory.place c ts origin).2).TwoPhase := by
  have hfind := db.directory.find?_place c ts origin
  refine h.withDirectory (fun u old hold => ?_) (fun u old hold => ?_) fun u old hold e he => ?_
  · rw [hfind] at hold
    split at hold
    · rename_i hnew
      cases hold
      exact hnew
    · exact h.numbered u old hold
  · exact ⟨old, Directory.find?_place_of_some ts origin hold, fun h => h⟩
  · rw [hfind] at hold
    split at hold
    · cases hold
      cases he
    · exact h.logged u old hold e he

/-- An operation may move to where it is backed. -/
theorem TwoPhase.setStand {stand : Stand} (h : db.TwoPhase)
    (hbacks : ∀ op me s, db.Runs i op me → op.call = .statement s →
      db.Backs me.txn s.key stand) :
    (db.setStand i stand).TwoPhase := by
  have hruns : ∀ j op me, (db.setStand i stand).Runs j op me →
      db.Runs j op me ∨ i = j ∧ ∃ old, db.Runs i old me ∧ op = { old with stand := stand } :=
    fun _ _ _ => runs_setStand
  rw [setStand_eq] at hruns ⊢
  refine ⟨h.numbered, h.locks, h.logged, fun j op me hop => ?_, fun j op me s hop hcall => ?_⟩
  · rcases hruns j op me hop with hop | ⟨-, old, hold, -⟩
    · exact h.known j op me hop
    · exact h.known i old me hold
  · rcases hruns j op me hop with hop | ⟨-, old, hold, rfl⟩
    · exact h.backed j op me s hop hcall
    · exact hbacks old me s hold hcall

/-- Any operation may move to where it needs no lock. -/
theorem TwoPhase.finish (h : db.TwoPhase) (i : TaskId) (result : Result) :
    (db.finish i result).TwoPhase :=
  h.setStand fun _ _ _ _ _ => trivial

/-- A task may be added that has not begun. -/
theorem TwoPhase.push {task : Task} (h : db.TwoPhase)
    (htask : ∀ op, task = .operation op →
      (∀ me, op.holder = some me → db.Known me.txn) ∧ ∀ t key, db.Backs t key op.stand) :
    (db.push task).TwoPhase := by
  have hruns : ∀ j op me, (db.push task).Runs j op me →
      db.Runs j op me ∨ task = .operation op ∧ op.holder = some me := by
    rintro j op me ⟨hop, hme⟩
    have hop := Array.getElem?_push.symm.trans hop
    split at hop
    · cases hop
      exact .inr ⟨rfl, hme⟩
    · exact .inl ⟨hop, hme⟩
  refine ⟨h.numbered, h.locks, h.logged, fun j op me hop => ?_, fun j op me s hop hcall => ?_⟩
  · rcases hruns j op me hop with hop | ⟨hop, hme⟩
    · exact h.known j op me hop
    · exact (htask op hop).1 me hme
  · rcases hruns j op me hop with hop | ⟨hop, -⟩
    · exact h.backed j op me s hop hcall
    · exact (htask op hop).2 me.txn s.key

/-- A transaction may be changed in such a way by a function. -/
theorem TwoPhase.modify {f : Transaction → Transaction} (h : db.TwoPhase)
    (hid : ∀ txn, (f txn).id = txn.id) (hopen : ∀ txn, (f txn).IsOpen → txn.IsOpen)
    (hlog : ∀ txn, ∀ e ∈ (f txn).log.entries,
      e ∈ txn.log.entries ∨ db.Covers t ⟨e.table, e.key⟩) :
    (db.withDirectory (db.directory.modify t f)).TwoPhase := by
  unfold Directory.modify
  split
  · exact h
  · rename_i txn hfound
    exact h.set hfound (hid txn) (hopen txn) (hlog txn)

end TxStore.Database
