import TxStore.Proofs.Database.Bodies

/-!
# The life of every transaction

A transaction is finished by one operation, and what that has come to is written down in four
places: the phase of the transaction, the number of its operations in flight, the list of commits,
and where the operation stands. `Lifecycle` says how the four agree. The number in flight is that of
the operations that are at work; a transaction that is being finished has one operation that
finishes it, and that stands where the phase says; and a commit is recorded once, with the writes
that the transaction has buffered.

Every move of a turn changes one transaction, one stand and one commit at most. `Amends` lists what
such a change must keep to, and `Lifecycle.amend` shows that this is enough.
-/

namespace TxStore

/-- Whether an operation is committing its transaction where it stands. -/
def Stand.isCommitting : Stand → Bool
  | .draining .commit _ | .applying _ _ | .applied _ _ => true
  | .draining (.discard _) _ | .issued | .locking _ _ | .reading _ | .fetched _ _ | .finished _ =>
    false

/-- Whether a stand of an operation agrees with its transaction, whose writes are recorded as
applied or not. -/
def Stand.Fits (txn : Transaction) (applied : Prop) : Stand → Prop
  | .draining .commit _ => txn.phase = .committing ∧ ¬ applied
  | .draining (.discard _) _ => txn.phase = .aborting
  | .applying plan _ => txn.phase = .committing ∧ ¬ applied ∧ txn.inFlight = 0 ∧
      plan.map PlannedWrite.entry = txn.log.entries
  | .applied _ _ => txn.phase = .committing ∧ applied ∧ txn.inFlight = 0
  | .issued | .locking _ _ | .reading _ | .fetched _ _ | .finished _ => True

/-- Only a transaction that is being finished agrees with an operation that finishes it. -/
theorem Stand.Fits.closing {txn : Transaction} {applied : Prop} {stand : Stand}
    (h : stand.Fits txn applied) (hclosing : stand.isClosing) : txn.phase.isClosing := by
  cases stand with
  | draining purpose result =>
    cases purpose with
    | commit => rw [h.1]; rfl
    | discard restart => rw [h]; rfl
  | applying plan result => rw [h.1]; rfl
  | applied errors result => rw [h.1]; rfl
  | issued => cases hclosing
  | locking target w => cases hclosing
  | reading target => cases hclosing
  | fetched target row => cases hclosing
  | finished result => cases hclosing

/-- An operation that does not finish its transaction agrees with any. -/
theorem Stand.fits_of_not_closing {txn : Transaction} {applied : Prop} {stand : Stand}
    (h : stand.isClosing = false) : stand.Fits txn applied := by
  cases stand with
  | draining purpose result => cases h
  | applying plan result => cases h
  | applied errors result => cases h
  | issued => trivial
  | locking target w => trivial
  | reading target => trivial
  | fetched target row => trivial
  | finished result => trivial

/-- How much an operation adds at a stand to the number in flight. -/
def Operation.weight (op : Operation) (stand : Stand) : Nat :=
  if op.call.isStatement && stand.isWorking then 1 else 0

/-- Whether a task is an operation of `t` that is at work. -/
def Task.worksFor (t : TransactionId) : Task → Bool
  | .operation op => op.call.isStatement && op.stand.isWorking && op.holder.any (·.txn = t)
  | .request _ => false

namespace Database

variable {σ : Type} {db db' : Database σ} {i j : TaskId} {op op' : Operation}
  {me me' : Lock.Holder} {t u : TransactionId} {txn txn' : Transaction} {stand stand' : Stand}
  {c : ConnectionId}

/-- The number of operations of a transaction that are at work. -/
def working (db : Database σ) (t : TransactionId) : Nat :=
  db.tasks.countP (Task.worksFor t)

/-- If an operation of a transaction is at work, one can be found that is. -/
theorem exists_working (h : db.working t ≠ 0) :
    ∃ i op me, db.Runs i op me ∧ me.txn = t ∧ op.stand.isWorking := by
  obtain ⟨task, hmem, hworks⟩ := Array.countP_pos_iff.mp (Nat.pos_of_ne_zero h)
  obtain ⟨i, hi⟩ := Array.mem_iff_getElem?.mp hmem
  cases task with
  | request r => cases hworks
  | operation op =>
    obtain ⟨hworking, hholder⟩ := Bool.and_eq_true_iff.mp hworks
    obtain ⟨me, hme, htxn⟩ := (Option.any_eq_true _ _).mp hholder
    exact ⟨i, op, me, ⟨hi, hme⟩, of_decide_eq_true htxn, (Bool.and_eq_true_iff.mp hworking).2⟩

/-- Whether the writes of a transaction are recorded as applied. -/
def Applied (db : Database σ) (t : TransactionId) : Prop :=
  t ∈ db.commits.map Commit.txn

/-- The records of every transaction's life agree. -/
structure Lifecycle (db : Database σ) : Prop where
  /-- The two records of a connection's transaction are the same. -/
  attached : ∀ c, db.attached.get? c = db.directory.current.get? c
  /-- A connection is attached to a transaction that was started. -/
  present : ∀ c t, db.attached.get? c = some t → db.Known t
  /-- The number in flight is the number of operations at work. -/
  inFlight : ∀ t txn, db.directory.find? t = some txn → txn.inFlight = db.working t
  /-- Only statements are at work. -/
  placed : ∀ (i : TaskId) (op : Operation), db.tasks[i]? = some (.operation op) →
    op.stand.isWorking → op.call.isStatement
  /-- An operation that is not over belongs to a transaction. -/
  held : ∀ (i : TaskId) (op : Operation), db.tasks[i]? = some (.operation op) →
    (∀ r, op.stand ≠ .finished r) → ∃ me, op.holder = some me
  /-- A statement commits only the transaction that was made for it. -/
  owned : ∀ (i : TaskId) (op : Operation), db.tasks[i]? = some (.operation op) →
    op.stand.isCommitting → op.call = .commit ∨ op.opened
  /-- Where an operation stands agrees with its transaction. -/
  fits : ∀ i op me, db.Runs i op me →
    ∃ txn, db.directory.find? me.txn = some txn ∧ op.stand.Fits txn (db.Applied me.txn)
  /-- A transaction is finished by one operation. -/
  alone : ∀ i j op op' me me', db.Runs i op me → db.Runs j op' me' → op.stand.isClosing →
    op'.stand.isClosing → me.txn = me'.txn → i = j
  /-- A transaction that is being finished has an operation that finishes it. -/
  closer : ∀ t txn, db.directory.find? t = some txn → txn.phase.isClosing →
    ∃ i op me, db.Runs i op me ∧ op.stand.isClosing ∧ me.txn = t
  /-- No operation is in flight in a transaction that is over. -/
  ready : ∀ t txn, db.directory.find? t = some txn → txn.phase = .ready → txn.inFlight = 0
  /-- No transaction is applied twice. -/
  once : (db.commits.map Commit.txn).Nodup
  /-- What was applied are the writes that a transaction had buffered when no operation was in
  flight any more. -/
  recorded : ∀ commit ∈ db.commits, ∃ txn, db.directory.find? commit.txn = some txn ∧
    (txn.phase = .committing ∨ txn.phase = .ready) ∧ txn.inFlight = 0 ∧
    commit.plan.map PlannedWrite.entry = txn.log.entries

/-- What the change of a transaction must keep to when the operation in hand moves on, and `new`
writes of the transaction may be recorded as applied. -/
structure Amends (op : Operation) (applied : Prop) (new : Option (List PlannedWrite))
    (txn : Transaction) (stand : Stand) (txn' : Transaction) (stand' : Stand) : Prop where
  /-- The number in flight goes along. -/
  count : txn'.inFlight + op.weight stand = txn.inFlight + op.weight stand'
  /-- Only a statement may be at work. -/
  placed : stand'.isWorking → op.call.isStatement
  /-- Only what may commit the transaction does. -/
  owned : stand'.isCommitting → op.call = .commit ∨ op.opened
  /-- The new stand agrees with the transaction. -/
  fits : stand'.Fits txn' (applied ∨ new.isSome)
  /-- Another operation that finishes the transaction agrees with it still. -/
  others : stand.isClosing = false → ∀ other : Stand, other.isClosing → other.Fits txn applied →
    other.Fits txn' (applied ∨ new.isSome)
  /-- The operation begins to finish the transaction only if nobody does. -/
  alone : stand'.isClosing → stand.isClosing ∨ txn.phase.isClosing = false
  /-- Somebody finishes the transaction if it is being finished. -/
  closer : txn'.phase.isClosing → stand'.isClosing ∨ stand.isClosing = false ∧ txn.phase.isClosing
  /-- The transaction may be over only if no operation is in flight. -/
  ready : txn'.phase = .ready → txn'.inFlight = 0
  /-- The writes are recorded once. -/
  once : new.isSome → ¬ applied
  /-- What has been applied stays as it is. -/
  kept : applied → (txn'.phase = .committing ∨ txn'.phase = .ready) ∧ txn'.inFlight = 0 ∧
    txn'.log.entries = txn.log.entries
  /-- What is recorded are the writes of the transaction. -/
  recorded : ∀ plan, new = some plan → (txn'.phase = .committing ∨ txn'.phase = .ready) ∧
    txn'.inFlight = 0 ∧ plan.map PlannedWrite.entry = txn'.log.entries

/-! ## Moving an operation -/

/-- After an operation was moved it stands there, and all others stand where they did. -/
theorem runs_setStand_iff (h : db.Runs i op me) :
    (db.setStand i stand).Runs j op' me' ↔
      i = j ∧ op' = { op with stand := stand } ∧ me' = me ∨ i ≠ j ∧ db.Runs j op' me' := by
  have htasks : (db.setStand i stand).tasks[j]? =
      if i = j then (db.tasks[j]?).map (Task.withStand stand) else db.tasks[j]? := by
    rw [setStand_eq]
    exact Array.getElem?_modify
  unfold Runs
  rw [htasks]
  by_cases hij : i = j
  · subst hij
    rw [if_pos rfl, h.1]
    constructor
    · rintro ⟨hop, hme⟩
      cases hop
      have hme' : op.holder = some me' := hme
      rw [h.2] at hme'
      cases hme'
      exact .inl ⟨rfl, rfl, rfl⟩
    · rintro (⟨-, rfl, rfl⟩ | ⟨hne, -⟩)
      · exact ⟨rfl, h.2⟩
      · exact absurd rfl hne
  · rw [if_neg hij]
    constructor
    · exact fun h => .inr ⟨hij, h⟩
    · rintro (⟨heq, -⟩ | ⟨-, h⟩)
      · exact absurd heq hij
      · exact h

/-- Moving an operation changes the number of those at work by its weight. -/
theorem working_setStand (h : db.Runs i op me) (stand : Stand) (t : TransactionId) :
    (db.setStand i stand).working t + (if me.txn = t then op.weight op.stand else 0) =
      db.working t + if me.txn = t then op.weight stand else 0 := by
  have hlt : i < db.tasks.size := (Array.getElem?_eq_some_iff.mp h.1).1
  have htask : db.tasks[i] = .operation op := (Array.getElem?_eq_some_iff.mp h.1).2
  have hworks : ∀ stand,
      (if Task.worksFor t (.operation { op with stand := stand }) then 1 else 0) =
        if me.txn = t then op.weight stand else 0 := by
    intro stand
    have heq : Task.worksFor t (.operation { op with stand := stand }) =
        (op.call.isStatement && stand.isWorking && decide (me.txn = t)) := by
      unfold Task.worksFor
      rw [h.2]
      rfl
    rw [heq]
    unfold Operation.weight
    by_cases ht : me.txn = t
    · simp only [ht, decide_true, Bool.and_true, if_true]
    · simp only [ht, decide_false, Bool.and_false, Bool.false_eq_true, if_false]
  have hold : (if Task.worksFor t (.operation op) then 1 else 0) =
      if me.txn = t then op.weight op.stand else 0 := hworks op.stand
  have hcount : (db.setStand i stand).working t =
      db.working t - (if Task.worksFor t (.operation op) then 1 else 0) +
        if Task.worksFor t (.operation { op with stand := stand }) then 1 else 0 := by
    unfold working
    rw [setStand_eq]
    dsimp only
    rw [modify_eq_set h.1, Array.setIfInBounds, dif_pos hlt, Array.countP_set, htask]
    rfl
  -- The operation counts among those at work before it is moved.
  have hle : (if Task.worksFor t (.operation op) then 1 else 0) ≤ db.working t := by
    split
    · rename_i hcounted
      refine Array.countP_pos_iff.mpr ⟨_, Array.getElem_mem hlt, ?_⟩
      rw [htask]
      exact hcounted
    · exact Nat.zero_le _
  rw [hold] at hle hcount
  rw [hcount, hworks stand]
  omega

/-- Moving an operation changes no other task. -/
theorem tasks_setStand_of_ne (hne : i ≠ j) : (db.setStand i stand).tasks[j]? = db.tasks[j]? := by
  rw [setStand_eq]
  exact Array.getElem?_modify.trans (if_neg hne)

/-- Moving an operation changes no transaction. -/
@[simp] theorem directory_setStand (db : Database σ) (i : TaskId) (stand : Stand) :
    (db.setStand i stand).directory = db.directory := by
  rw [setStand_eq]

/-- Moving an operation attaches no connection. -/
@[simp] theorem attached_setStand (db : Database σ) (i : TaskId) (stand : Stand) :
    (db.setStand i stand).attached = db.attached := by
  rw [setStand_eq]

/-- Moving an operation does nothing to the tables. -/
@[simp] theorem store_setStand (db : Database σ) (i : TaskId) (stand : Stand) :
    (db.setStand i stand).store = db.store := by
  rw [setStand_eq]

/-- Moving an operation registers no table. -/
@[simp] theorem registry_setStand (db : Database σ) (i : TaskId) (stand : Stand) :
    (db.setStand i stand).registry = db.registry := by
  rw [setStand_eq]

/-- Moving an operation records no commit. -/
@[simp] theorem commits_setStand (db : Database σ) (i : TaskId) (stand : Stand) :
    (db.setStand i stand).commits = db.commits := by
  rw [setStand_eq]

/-- Whether a transaction is applied depends on the commits. -/
theorem applied_setStand : (db.setStand i stand).Applied t ↔ db.Applied t := by
  unfold Applied
  rw [commits_setStand]

/-! ## Changes that keep the records in agreement -/

/-- The records agree if the operations, the transactions and the commits are the same, and the two
records of each connection's transaction name the same known one. -/
theorem Lifecycle.of_operations (h : db.Lifecycle)
    (htransactions : db'.directory.transactions = db.directory.transactions)
    (hoperations : ∀ (j : TaskId) (op : Operation),
      db'.tasks[j]? = some (.operation op) ↔ db.tasks[j]? = some (.operation op))
    (hworking : ∀ t, db'.working t = db.working t) (hcommits : db'.commits = db.commits)
    (hattached : ∀ c, db'.attached.get? c = db'.directory.current.get? c)
    (hpresent : ∀ c t, db'.attached.get? c = some t → db.Known t) : db'.Lifecycle := by
  -- Each record is read through these three: who is found, who runs, and what is applied.
  have hfind : db'.directory.find? = db.directory.find? := by
    unfold Directory.find?
    rw [htransactions]
  have hruns : ∀ j op me, db'.Runs j op me ↔ db.Runs j op me :=
    fun j op me => and_congr (hoperations j op) Iff.rfl
  have happlied : db'.Applied = db.Applied := by
    unfold Applied
    rw [hcommits]
  refine ⟨hattached, fun c t ht => ?_, fun t txn hfound => ?_,
    fun j op hop => h.placed j op ((hoperations j op).mp hop),
    fun j op hop => h.held j op ((hoperations j op).mp hop),
    fun j op hop => h.owned j op ((hoperations j op).mp hop), fun j op me hop => ?_,
    fun j k op₁ op₂ me₁ me₂ h₁ h₂ =>
      h.alone j k op₁ op₂ me₁ me₂ ((hruns ..).mp h₁) ((hruns ..).mp h₂),
    fun t txn hfound hclosing => ?_, ?_, ?_, ?_⟩
  · unfold Known
    rw [hfind]
    exact hpresent c t ht
  · rw [hworking]
    exact h.inFlight t txn (hfind ▸ hfound)
  · rw [hfind, happlied]
    exact h.fits j op me ((hruns ..).mp hop)
  · obtain ⟨j, op, me, hop, hstand, htxn⟩ := h.closer t txn (hfind ▸ hfound) hclosing
    exact ⟨j, op, me, (hruns ..).mpr hop, hstand, htxn⟩
  · rw [hfind]
    exact h.ready
  · rw [hcommits]
    exact h.once
  · rw [hcommits, hfind]
    exact h.recorded

/-- The records agree whatever happens to the tables, the locks and the line. -/
theorem Lifecycle.of_eq (h : db.Lifecycle) (hdirectory : db'.directory = db.directory)
    (hattached : db'.attached = db.attached) (htasks : db'.tasks = db.tasks)
    (hcommits : db'.commits = db.commits) : db'.Lifecycle := by
  refine h.of_operations (by rw [hdirectory]) (fun _ _ => by rw [htasks]) (fun t => ?_) hcommits
    (fun c => ?_) fun c t ht => ?_
  · unfold working
    rw [htasks]
  · rw [hattached, hdirectory]
    exact h.attached c
  · exact h.present c t (hattached ▸ ht)

/-- A change in which the transaction `txn` of the operation in hand becomes `txn'`, the operation
moves from `stand` to `stand'`, and `new` writes may be recorded. -/
structure Changes (i : TaskId) (op : Operation) (me : Lock.Holder)
    (new : Option (List PlannedWrite)) (db : Database σ) (txn : Transaction) (stand : Stand)
    (db' : Database σ) (txn' : Transaction) (stand' : Stand) : Prop where
  /-- The operation in hand is one of the transaction. -/
  runs : db.Runs i op me
  /-- The transaction is known. -/
  found : db.directory.find? me.txn = some txn
  /-- It changes, and no other does. -/
  find : ∀ u, db'.directory.find? u = if me.txn = u then some txn' else db.directory.find? u
  /-- Every connection keeps its transaction. -/
  current : db'.directory.current = db.directory.current
  /-- Every connection stays attached. -/
  attached : db'.attached = db.attached
  /-- The tasks are as they were. -/
  tasks : db'.tasks = db.tasks
  /-- A commit may be recorded. -/
  commits : db'.commits = db.commits ++ (new.map (Commit.mk me.txn)).toList
  /-- The change keeps to what it must. -/
  amends : Amends op (db.Applied me.txn) new txn stand txn' stand'

namespace Changes

variable {new : Option (List PlannedWrite)} {found : Transaction}

/-- The operation in hand runs after the change, too. -/
theorem runs' (hc : Changes i op me new db txn stand db' txn' stand') : db'.Runs i op me :=
  (runs_of_tasks hc.tasks).mpr hc.runs

/-- The operation in hand stands where it is held. -/
theorem mine (hc : Changes i op me new db txn stand db' txn' stand') :
    (db.setStand i stand).Runs i { op with stand := stand } me :=
  (runs_setStand_iff hc.runs).mpr (.inl ⟨rfl, rfl, rfl⟩)

/-- Other operations stand where they stood. -/
theorem others (hc : Changes i op me new db txn stand db' txn' stand') (hne : i ≠ j) :
    (db'.setStand i stand').Runs j op' me' ↔ (db.setStand i stand).Runs j op' me' := by
  unfold Runs
  rw [tasks_setStand_of_ne hne, tasks_setStand_of_ne hne, hc.tasks]

/-- An operation that stands somewhere afterwards is the one in hand, or stood there before. -/
theorem runs_cases (hc : Changes i op me new db txn stand db' txn' stand')
    (hop : (db'.setStand i stand').Runs j op' me') :
    i = j ∧ op' = { op with stand := stand' } ∧ me' = me ∨
      i ≠ j ∧ (db.setStand i stand).Runs j op' me' := by
  rcases (runs_setStand_iff hc.runs').mp hop with hmoved | ⟨hne, -⟩
  · exact .inl hmoved
  · exact .inr ⟨hne, (hc.others hne).mp hop⟩

/-- The same holds of operations that belong to no transaction. -/
theorem task_cases (hc : Changes i op me new db txn stand db' txn' stand')
    (hop : (db'.setStand i stand').tasks[j]? = some (.operation op')) :
    op' = { op with stand := stand' } ∨
      (db.setStand i stand).tasks[j]? = some (.operation op') := by
  by_cases hij : i = j
  · subst hij
    obtain ⟨hne, -⟩ | ⟨-, old, hold, rfl⟩ := getElem?_setStand hop
    · exact absurd rfl hne
    · have heq := hold.symm.trans hc.runs'.1
      cases heq
      exact .inl rfl
  · rw [tasks_setStand_of_ne hij, hc.tasks] at hop
    exact .inr ((tasks_setStand_of_ne hij).trans hop)

/-- The writes of the transaction are recorded if they were or are now. -/
theorem applied (hc : Changes i op me new db txn stand db' txn' stand') :
    db'.Applied me.txn ↔ db.Applied me.txn ∨ new.isSome := by
  unfold Applied
  rw [hc.commits, List.map_append, List.mem_append]
  cases new <;> simp

/-- No writes of another transaction are recorded. -/
theorem applied_of_ne (hc : Changes i op me new db txn stand db' txn' stand') (hne : u ≠ me.txn) :
    db'.Applied u ↔ db.Applied u := by
  unfold Applied
  rw [hc.commits, List.map_append, List.mem_append]
  cases new <;> simp [hne]

/-- The number of operations at work changes with the weight of the operation in hand. -/
theorem working (hc : Changes i op me new db txn stand db' txn' stand') (u : TransactionId) :
    (db'.setStand i stand').working u + (if me.txn = u then op.weight stand else 0) =
      (db.setStand i stand).working u + if me.txn = u then op.weight stand' else 0 := by
  have hfirst := working_setStand hc.runs stand u
  have hsecond := working_setStand hc.runs' stand' u
  have hsame : db'.working u = db.working u := by
    unfold Database.working
    rw [hc.tasks]
  omega

/-- What is found of another transaction was found before. -/
theorem find_of_ne (hc : Changes i op me new db txn stand db' txn' stand') (hne : me.txn ≠ u) :
    (db'.setStand i stand').directory.find? u = (db.setStand i stand).directory.find? u := by
  rw [directory_setStand, directory_setStand, hc.find, if_neg hne]

/-- What is found of the transaction before the change. -/
theorem find_before (hc : Changes i op me new db txn stand db' txn' stand') :
    (db.setStand i stand).directory.find? me.txn = some txn := by
  rw [directory_setStand]
  exact hc.found

/-- What is found of it after the change. -/
theorem find_after (hc : Changes i op me new db txn stand db' txn' stand') :
    (db'.setStand i stand').directory.find? me.txn = some txn' := by
  rw [directory_setStand, hc.find, if_pos rfl]

/-- A transaction that is found after the change is the changed one, or was found before. -/
theorem find_cases (hc : Changes i op me new db txn stand db' txn' stand')
    (hu : (db'.setStand i stand').directory.find? u = some found) :
    me.txn = u ∧ found = txn' ∨
      me.txn ≠ u ∧ (db.setStand i stand).directory.find? u = some found := by
  by_cases heq : me.txn = u
  · subst heq
    rw [hc.find_after] at hu
    cases hu
    exact .inl ⟨rfl, rfl⟩
  · rw [hc.find_of_ne heq] at hu
    exact .inr ⟨heq, hu⟩

/-- Another operation of the transaction agrees with it still. -/
theorem fitting (hc : Changes i op me new db txn stand db' txn' stand')
    (h : (db.setStand i stand).Lifecycle) (hne : i ≠ j)
    (hop : (db.setStand i stand).Runs j op' me') (heq : me'.txn = me.txn) :
    op'.stand.Fits txn' (db'.Applied me.txn) := by
  rw [hc.applied]
  obtain ⟨found, hu, hfits⟩ := h.fits j op' me' hop
  rw [heq, hc.find_before] at hu
  cases hu
  rw [applied_setStand, heq] at hfits
  cases hclosing : op'.stand.isClosing with
  | false => exact Stand.fits_of_not_closing hclosing
  | true =>
    refine hc.amends.others ?_ _ hclosing hfits
    -- If the operation in hand finished the transaction, too, it would be this one.
    cases hmine : stand.isClosing with
    | false => rfl
    | true => exact absurd (h.alone i j _ _ _ _ hc.mine hop hmine hclosing heq.symm) hne

/-- Every operation agrees with its transaction. -/
theorem fits (hc : Changes i op me new db txn stand db' txn' stand')
    (h : (db.setStand i stand).Lifecycle) (hop : (db'.setStand i stand').Runs j op' me') :
    ∃ found, (db'.setStand i stand').directory.find? me'.txn = some found ∧
      op'.stand.Fits found ((db'.setStand i stand').Applied me'.txn) := by
  rw [applied_setStand]
  rcases hc.runs_cases hop with ⟨rfl, rfl, rfl⟩ | ⟨hne, hop⟩
  · exact ⟨txn', hc.find_after, by rw [hc.applied]; exact hc.amends.fits⟩
  · by_cases heq : me'.txn = me.txn
    · rw [heq]
      exact ⟨txn', hc.find_after, hc.fitting h hne hop heq⟩
    · obtain ⟨found, hu, hfits⟩ := h.fits j op' me' hop
      rw [applied_setStand] at hfits
      rw [hc.find_of_ne (Ne.symm heq), hc.applied_of_ne heq]
      exact ⟨found, hu, hfits⟩

/-- The operation in hand finishes the transaction only if no other does. -/
theorem not_closing (hc : Changes i op me new db txn stand db' txn' stand')
    (h : (db.setStand i stand).Lifecycle) (hne : i ≠ j)
    (hop : (db.setStand i stand).Runs j op' me') (heq : me.txn = me'.txn)
    (hmine : stand'.isClosing) : ¬ op'.stand.isClosing := by
  intro hclosing
  obtain ⟨found, hu, hfits⟩ := h.fits j op' me' hop
  rw [← heq, hc.find_before] at hu
  cases hu
  rcases hc.amends.alone hmine with hold | hphase
  · exact hne (h.alone i j _ _ _ _ hc.mine hop hold hclosing heq)
  · exact absurd (hfits.closing hclosing) (hphase ▸ Bool.false_ne_true)

/-- Every transaction that is being finished has an operation that finishes it. -/
theorem closer (hc : Changes i op me new db txn stand db' txn' stand')
    (h : (db.setStand i stand).Lifecycle)
    (hu : (db'.setStand i stand').directory.find? u = some found)
    (hclosing : found.phase.isClosing) :
    ∃ j op' me', (db'.setStand i stand').Runs j op' me' ∧ op'.stand.isClosing ∧ me'.txn = u := by
  have hmine : (db'.setStand i stand').Runs i { op with stand := stand' } me :=
    (runs_setStand_iff hc.runs').mpr (.inl ⟨rfl, rfl, rfl⟩)
  rcases hc.find_cases hu with ⟨rfl, rfl⟩ | ⟨hne, hu⟩
  · rcases hc.amends.closer hclosing with hstand' | ⟨hstand, hphase⟩
    · exact ⟨i, _, me, hmine, hstand', rfl⟩
    · obtain ⟨j, op', me', hop, hstand', htxn⟩ := h.closer me.txn txn hc.find_before hphase
      have hij : i ≠ j := by
        rintro rfl
        rw [(hc.mine.unique hop).1, hstand] at hstand'
        cases hstand'
      exact ⟨j, op', me', (hc.others hij).mpr hop, hstand', htxn⟩
  · obtain ⟨j, op', me', hop, hstand', htxn⟩ := h.closer u found hu hclosing
    have hij : i ≠ j := by
      rintro rfl
      exact hne ((hc.mine.unique hop).2 ▸ htxn)
    exact ⟨j, op', me', (hc.others hij).mpr hop, hstand', htxn⟩

/-- No transaction is recorded twice. -/
theorem once (hc : Changes i op me new db txn stand db' txn' stand')
    (h : (db.setStand i stand).Lifecycle) : (db'.commits.map Commit.txn).Nodup := by
  have honce := h.once
  rw [commits_setStand] at honce
  rw [hc.commits, List.map_append, List.nodup_append]
  refine ⟨honce, by cases new <;> simp, fun u hu v hv heq => ?_⟩
  cases new with
  | none => cases hv
  | some plan =>
    rw [heq, List.mem_singleton.mp hv] at hu
    exact hc.amends.once rfl hu

/-- What is recorded are the writes of the transaction. -/
theorem recorded (hc : Changes i op me new db txn stand db' txn' stand')
    (h : (db.setStand i stand).Lifecycle) {commit : Commit} (hmem : commit ∈ db'.commits) :
    ∃ found, (db'.setStand i stand').directory.find? commit.txn = some found ∧
      (found.phase = .committing ∨ found.phase = .ready) ∧ found.inFlight = 0 ∧
      commit.plan.map PlannedWrite.entry = found.log.entries := by
  rw [hc.commits, List.mem_append] at hmem
  rcases hmem with hmem | hmem
  · obtain ⟨found, hu, hphase, hidle, hentries⟩ :=
      h.recorded commit (by rw [commits_setStand]; exact hmem)
    by_cases heq : me.txn = commit.txn
    · rw [← heq, hc.find_before] at hu
      cases hu
      obtain ⟨hphase', hidle', hlog⟩ := hc.amends.kept (heq ▸ List.mem_map_of_mem hmem)
      exact ⟨txn', heq ▸ hc.find_after, hphase', hidle', hentries.trans hlog.symm⟩
    · exact ⟨found, (hc.find_of_ne heq).trans hu, hphase, hidle, hentries⟩
  · cases new with
    | none => cases hmem
    | some plan =>
      rw [List.mem_singleton.mp hmem]
      exact ⟨txn', hc.find_after, hc.amends.recorded plan rfl⟩

end Changes

/-- The records agree after a change that keeps to what it must. -/
theorem Lifecycle.change {new : Option (List PlannedWrite)} (h : (db.setStand i stand).Lifecycle)
    (hc : Changes i op me new db txn stand db' txn' stand') :
    (db'.setStand i stand').Lifecycle where
  attached c := by
    have hagree := h.attached c
    rw [directory_setStand, attached_setStand] at hagree ⊢
    rw [hc.attached, hc.current]
    exact hagree
  present c t ht := by
    rw [attached_setStand, hc.attached, ← attached_setStand db i stand] at ht
    obtain ⟨old, hold⟩ := h.present c t ht
    by_cases heq : me.txn = t
    · exact ⟨txn', heq ▸ hc.find_after⟩
    · exact ⟨old, (hc.find_of_ne heq).trans hold⟩
  inFlight u found hu := by
    -- The number in flight changes by the weight of the operation in hand, as those at work do.
    have hcount := hc.working u
    rcases hc.find_cases hu with ⟨rfl, rfl⟩ | ⟨hne, hu⟩
    · have hbefore := h.inFlight me.txn txn hc.find_before
      have hamended := hc.amends.count
      rw [if_pos rfl, if_pos rfl] at hcount
      omega
    · have hbefore := h.inFlight u found hu
      rw [if_neg hne, if_neg hne] at hcount
      omega
  placed j op' hop hworks := by
    -- It is the operation in hand, or one that has not changed.
    rcases hc.task_cases hop with rfl | hop
    · exact hc.amends.placed hworks
    · exact h.placed j op' hop hworks
  held j op' hop hover := by
    rcases hc.task_cases hop with rfl | hop
    · exact ⟨me, hc.runs.2⟩
    · exact h.held j op' hop hover
  owned j op' hop hcommitting := by
    rcases hc.task_cases hop with rfl | hop
    · exact hc.amends.owned hcommitting
    · exact h.owned j op' hop hcommitting
  fits j op' me' hop := hc.fits h hop
  alone j k op₁ op₂ me₁ me₂ h₁ h₂ hclosing₁ hclosing₂ heq := by
    -- If it is the one in hand that finishes the transaction now, no other did so before.
    rcases hc.runs_cases h₁ with ⟨rfl, rfl, rfl⟩ | ⟨hne₁, h₁⟩ <;>
      rcases hc.runs_cases h₂ with ⟨rfl, rfl, rfl⟩ | ⟨hne₂, h₂⟩
    · rfl
    · exact absurd hclosing₂ (hc.not_closing h hne₂ h₂ heq hclosing₁)
    · exact absurd hclosing₁ (hc.not_closing h hne₁ h₁ heq.symm hclosing₂)
    · exact h.alone j k op₁ op₂ me₁ me₂ h₁ h₂ hclosing₁ hclosing₂ heq
  closer u found hu hclosing := hc.closer h hu hclosing
  ready u found hu hready := by
    rcases hc.find_cases hu with ⟨rfl, rfl⟩ | ⟨-, hu⟩
    · exact hc.amends.ready hready
    · exact h.ready u found hu hready
  once := by
    rw [commits_setStand]
    exact hc.once h
  recorded commit hmem := hc.recorded h (commits_setStand db' i stand' ▸ hmem)

end Database

end TxStore
