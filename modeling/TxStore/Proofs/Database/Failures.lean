import TxStore.Proofs.Database.Noninterference
import TxStore.Proofs.Database.Queued

/-!
# A statement that fails does no harm

A statement may fail before it asks for the lock of its row, since its table is not there or the row
does not fit it, and it may fail with the lock, since the row is not there or the table breaks. In
either case its transaction is afterwards what it was before, and so are the tables. The transaction
may have become the writer of one more row, the one that the statement names, and not even this if
the statement was rejected before it asked (`unharmed_of_failed`).

A statement that is the only call on its connection is followed through a run: it is `Underway`
until its body ends, and if it fails it leaves its transaction `Unharmed`, which no action elsewhere
changes. The locks are compared by what they leave to the transaction (`Lock.Manager.Leaves`).
-/

namespace TxStore

/-- The error that the caller is told of a body that fails. A body that is refused its lock does not
count as such: its transaction is aborted. -/
def Database.Ending.failure? : Database.Ending → Option Error
  | .failed e => some e
  | .broken text => some (Cause.taskFailed text)
  | .done _ | .refused _ => none

/-- Whether a result is an error, and not one that says that a lock was refused or that the
transaction is over. -/
def Result.Fails (r : Result) : Prop :=
  ∃ e : Error, r = .error e ∧ e ≠ Cause.lock .conflict ∧ e ≠ Cause.lock .timeout ∧
    e ≠ Cause.terminalState

/-- Leaving changes nothing where no operation is in flight. -/
theorem Transaction.rested_eq {txn : Transaction} (hidle : txn.inFlight = 0)
    (hparked : txn.parked = []) : { txn with inFlight := 0, parked := [] } = txn := by
  rw [← hidle, ← hparked]

namespace Database

variable {σ : Type} {db db' first mid last : Database σ} {i j : TaskId} {op : Operation}
  {me : Lock.Holder} {t : TransactionId} {txn : Transaction} {stand stand' : Stand}
  {writes : List WriteEntry} {c : ConnectionId} {clock : Clock} {s : Statement} {e : Error}
  {r : Result} {target : Target} {ending : Ending} {k : Lock.Key} {K : Set Lock.Key}
  {hasher : Hasher} {past : List Success}

/-! ## What others do with the locks -/

/-- What an operation does with the locks leaves another transaction what it has. -/
theorem Contends.leaves {m : Lock.Manager} (hcontends : Contends op me db stand m)
    (h : db.locks.Consistent) (hne : me.txn ≠ t) : db.locks.Leaves m t ∅ := by
  cases hcontends with
  | idle => exact Lock.Manager.leaves_refl ..
  | ask call aims begins =>
    exact (h.leaves_acquire _ _ _ _ t).mono fun _ ⟨_, htxn⟩ => absurd htxn.symm hne
  | look waits => exact h.leaves_poll ..
  | release => exact h.leaves_release hne ∅
  | forget ends => exact (h.evolves_forget me.txn).leaves rfl ∅

section

variable [Backend σ] {action : Action σ}

/-- So do its moves. -/
theorem Moves.leaves (hmoves : Moves i op me db stand writes db' stand') (h : db.locks.Consistent)
    (hne : me.txn ≠ t) : db.locks.Leaves db'.locks t ∅ := by
  induction hmoves with
  | nil => exact Lock.Manager.leaves_refl ..
  | cons move rest ih =>
    exact (move.contends.leaves h hne).trans (ih (move.contends.consistent h).1)

/-- So does a whole turn. -/
theorem Leads.leaves (hleads : Leads i op me db stand writes db') (h : db.locks.Consistent)
    (hne : me.txn ≠ t) : db.locks.Leaves db'.locks t ∅ := by
  obtain ⟨mid, last, hmoves, -, rfl⟩ := hleads
  rw [locks_putDown]
  exact hmoves.leaves h hne

/-- An action that does not concern a connection leaves its transactions what they have. -/
theorem Regular.leaves_elsewhere (h : db.Regular clock) (hcoordinated : db.Coordinated action)
    (helse : ¬ db.Concerns c action) (hmine : db.Belongs t c) :
    db.locks.Leaves (db.perform action).locks t ∅ := by
  -- A transaction of another connection is another transaction.
  have hother : ∀ {u : TransactionId} {d : ConnectionId}, db.Belongs u d → d ≠ c → u ≠ t := by
    rintro u d hbelongs hne rfl
    exact hne (hbelongs.eq hmine)
  -- An action has nothing to do with the locks, or it gives a turn to an operation, and then to one
  -- of another connection.
  rcases h.perform_cases hcoordinated with
    hcalm | ⟨i, op, me, first, stand, writes, htakes, hleads⟩
  · rw [hcalm.locks]
    exact Lock.Manager.leaves_refl ..
  · cases htakes.begins with
    | resume runs =>
      show db.locks.Leaves (db.resume i).locks t ∅
      rcases h.resume_cases i with heq | ⟨op, me, hruns, hopen, -, hleads⟩
      · rw [heq]
        exact Lock.Manager.leaves_refl ..
      · have hne : op.connection ≠ c := fun hc => helse ⟨op, hruns.1, hc, hopen⟩
        exact hleads.leaves h.tidy.consistent (hother (h.tidy.placed i op me hruns) hne)
    | submit new made finishes holder result =>
      have hbelongs := h.tidy.home _ me.txn (h.twoPhase.txn_attachedHolder holder).1
      exact hleads.leaves h.tidy.consistent (hother hbelongs helse)

end

/-! ## How a statement fails -/

/-- A body that fails is not refused its lock. -/
theorem kept_of_failure (hfailure : ending.failure? = some e) (why : Lock.Refusal) :
    ending ≠ .refused why := by
  rintro rfl
  cases hfailure

/-- A statement that is not up to its transaction leaves and is over when its body has ended, if that
was not refused its lock. If it has failed it tells the error. -/
theorem conclude_of_kept (hopened : op.opened = false) (hkept : ∀ why, ending ≠ .refused why)
    (db : Database σ) (i : TaskId) (t : TransactionId) :
    ∃ r, db.conclude i op t ending = (db.leave t).finish i r ∧
      ∀ e, ending.failure? = some e → r = .error e := by
  -- A transaction that was not made for the statement is left open.
  have hclose : ∀ r, (if op.opened then (db.leave t).commit i op.connection (some t) r
      else (db.leave t).finish i r) = (db.leave t).finish i r :=
    fun r => if_neg (hopened ▸ Bool.false_ne_true)
  unfold Database.conclude
  cases ending with
  | done value => exact ⟨.ok value, hclose _, nofun⟩
  | failed e => exact ⟨.error e, hclose _, fun _ heq => congrArg Except.error (Option.some.inj heq)⟩
  | refused why => exact absurd rfl (hkept why)
  | broken text =>
    exact ⟨.error (Cause.taskFailed text), rfl,
      fun _ heq => congrArg Except.error (Option.some.inj heq)⟩

/-- To leave and to tell has nothing to do with the locks. -/
theorem locks_conclude (hopened : op.opened = false) (hkept : ∀ why, ending ≠ .refused why)
    (db : Database σ) (i : TaskId) (t : TransactionId) :
    (db.conclude i op t ending).locks = db.locks := by
  obtain ⟨r, heq, -⟩ := conclude_of_kept hopened hkept db i t
  rw [heq]
  unfold Database.finish
  rw [setStand_eq]
  exact db.locks_leave t

/-- Nor has what such a statement does with its row. -/
theorem locks_fetched (hopened : op.opened = false) (db : Database σ) (i : TaskId)
    (t : TransactionId) (s : Statement) (target : Target) (row : Outcome Value) :
    (db.fetched i op t s target row).locks = db.locks := by
  unfold Database.fetched
  cases row with
  | failed e => exact locks_conclude hopened (by nofun) db i t
  | broken text => exact locks_conclude hopened (by nofun) db i t
  | done value =>
    cases s with
    | delete table key => exact locks_conclude hopened (by nofun) (db.buffer t target key _) i t
    | get table key => exact locks_conclude hopened (by nofun) db i t
    | put table key value => exact locks_conclude hopened (by nofun) db i t

/-- When it has asked for its lock, or looked for the answer, the locks are those of the answer. -/
theorem locks_acquired {turn : Lock.Manager × Lock.Acquisition} (hopened : op.opened = false)
    (hkept : ∀ why, turn.2 ≠ .answered (.error why)) (db : Database σ) (i : TaskId)
    (t : TransactionId) (s : Statement) (target : Target) :
    (db.acquired i op t s target turn).locks = turn.1 := by
  obtain ⟨m, answer⟩ := turn
  match answer with
  | .answered (.ok ()) =>
    rcases (db.withLocks m).locked_cases i op t s target with
      ⟨mid, ending, hlocks, hkept, heq⟩ | heq
    · exact (congrArg locks heq).trans ((locks_conclude hopened hkept mid i t).trans hlocks)
    · refine (congrArg locks heq).trans ?_
      rw [setStand_eq]
      rfl
  | .answered (.error why) => exact absurd rfl (hkept why)
  | .waiting w => rfl

/-- Only a statement that has its lock fails after it has asked for it. -/
theorem granted_of_failure {answer : Lock.Acquisition}
    (hending : db.acquiredEnding? t target s answer = some ending)
    (hfailure : ending.failure? = some e) : answer = .answered (.ok ()) := by
  match answer with
  | .answered (.ok ()) => rfl
  | .answered (.error why) =>
    cases hending
    cases hfailure
  | .waiting w => cases hending

section

variable [Backend σ]

/-- A statement that is rejected fails. -/
theorem failure?_of_rejection (h : db.rejection? s = some ending) :
    ∃ e, ending.failure? = some e := by
  unfold rejection? at h
  split at h
  · cases h
    exact ⟨_, rfl⟩
  · split at h
    · cases h
      exact ⟨_, rfl⟩
    · split at h
      · cases h
        exact ⟨_, rfl⟩
      · cases h
        exact ⟨_, rfl⟩
      · cases h

/-- A statement that is rejected leaves the locks alone. -/
theorem Runs.locks_of_rejection (hruns : db.Runs i op me) (hcall : op.call = .statement s)
    (hstand : op.stand = .issued) (hopened : op.opened = false)
    (hrejection : db.rejection? s = some ending) : (db.resume i).locks = db.locks := by
  obtain ⟨e, hfailure⟩ := failure?_of_rejection hrejection
  have hworking : op.stand.isWorking := by rw [hstand]; rfl
  -- Of the turns that a body can take only the rejection fits.
  cases bodyTurn hruns hcall hworking with
  | rejected issued rejection ends resume =>
    cases rejection.symm.trans hrejection
    rw [resume, locks_conclude hopened (kept_of_failure hfailure)]
    rfl
  | asks issued aims accepted ending resume => cases accepted.symm.trans hrejection
  | looks waits ending resume => cases hstand.symm.trans waits
  | reads reading ending resume => cases hstand.symm.trans reading
  | ends fetched ending resume => cases hstand.symm.trans fetched

/-- A statement that fails leaves its transaction at rest, with the writes that it had. -/
theorem Holds.fails (holds : db.Holds op.connection me.txn txn 1) (hruns : db.Runs i op me)
    (hcall : op.call = .statement s) (hworking : op.stand.isWorking) (hopened : op.opened = false)
    (hending : db.bodyEnding? op me = some ending) (hfailure : ending.failure? = some e) :
    Rested i op me db txn (.error e) (db.resume i) := by
  obtain ⟨mid, hlabors, heq⟩ := holds.body_ends hruns hcall hworking hending
  -- A body that fails adds no write.
  have hnothing : entriesAt (op.tableOf db.registry s) s (some ending) = [] := by
    cases ending with
    | done value => cases hfailure
    | failed e' | refused why | broken text => rfl
  rw [hnothing] at hlabors
  obtain ⟨r, hconclude, htold⟩ := conclude_of_kept hopened (kept_of_failure hfailure) mid i me.txn
  rw [heq, hconclude, htold e hfailure]
  exact hlabors.finish hruns _

/-- A statement whose body ends otherwise is over, too, and what it tells is no such error. -/
theorem Regular.body_over (h : db.Regular clock) (holds : db.Holds op.connection me.txn txn 1)
    (hruns : db.Runs i op me) (hcall : op.call = .statement s) (hworking : op.stand.isWorking)
    (hopened : op.opened = false) (hending : db.bodyEnding? op me = some ending)
    (hsound : ending.failure? = none) :
    ∃ r, ¬ Result.Fails r ∧ (db.resume i).Runs i { op with stand := .finished r } me ∧
      Stable db (db.resume i) := by
  obtain ⟨mid, hlabors, heq⟩ := holds.body_ends hruns hcall hworking hending
  -- A body that ends without failing is done, or has been refused its lock; if it was refused
  -- because the locks are released, it tells that the transaction is over, and otherwise the
  -- refusal.
  cases ending with
  | done value =>
    have hresult : (Ending.done value).result? = some (.ok value) := rfl
    have hrested := hlabors.conclude hruns hresult hopened
    rw [heq]
    refine ⟨.ok value, ?_, hrested.runs, hrested.stable⟩
    rintro ⟨e, hfailed, -⟩
    cases hfailed
  | failed e => cases hsound
  | refused why =>
    by_cases hwhy : why = .released
    · subst hwhy
      have hrested := hlabors.finish hruns (.error Cause.terminalState)
      rw [heq]
      refine ⟨.error Cause.terminalState, ?_, hrested.runs, hrested.stable⟩
      rintro ⟨e, hfailed, -, -, hother⟩
      cases hfailed
      exact hother rfl
    · obtain ⟨hover, -, hstable⟩ := h.refused_alone holds hruns hending hwhy
      refine ⟨.error (Cause.lock why), ?_, hover, hstable⟩
      rintro ⟨e, hfailed, hconflict, htimeout, -⟩
      cases hfailed
      cases why with
      | conflict => exact hconflict rfl
      | timeout => exact htimeout rfl
      | released => exact hwhy rfl
  | broken text => cases hsound

/-- A turn of a statement that is not refused its lock brings transactions at most the key that the
statement names. -/
theorem Regular.leaves_turn (h : db.Regular clock) (hruns : db.Runs i op me)
    (hcall : op.call = .statement s) (hworking : op.stand.isWorking) (hopened : op.opened = false)
    (hkept : ∀ why, db.bodyEnding? op me ≠ some (.refused why)) (t : TransactionId) :
    db.locks.Leaves (db.resume i).locks t {s.place db.registry} := by
  -- Only asking for the lock, or looking for the answer, does anything with the locks.
  cases bodyTurn hruns hcall hworking with
  | rejected issued rejection ends resume =>
    rw [resume, locks_conclude hopened fun why heq => hkept why (heq ▸ ends)]
    exact Lock.Manager.leaves_refl ..
  | asks issued aims accepted ending resume =>
    rw [resume, locks_acquired hopened fun why heq => hkept why (by rw [ending, heq]; rfl)]
    exact (h.tidy.consistent.leaves_acquire _ _ _ _ t).mono fun _ hj => hj.1
  | looks waits ending resume =>
    rw [resume, locks_acquired hopened fun why heq => hkept why (by rw [ending, heq]; rfl)]
    exact h.tidy.consistent.leaves_poll ..
  | reads reading ending resume =>
    rw [resume, setStand_eq]
    exact Lock.Manager.leaves_refl ..
  | ends fetched ending resume =>
    rw [resume, locks_fetched hopened]
    exact Lock.Manager.leaves_refl ..

/-- A statement that fails has been rejected and has left the locks alone, or its transaction writes
the key that it names. -/
theorem Regular.writes_of_failure (h : db.Regular clock) (hlogged : db.Logged hasher past)
    (hopen : ¬ db.Shut me.txn) (hruns : db.Runs i op me) (hcall : op.call = .statement s)
    (hworking : op.stand.isWorking) (hopened : op.opened = false)
    (hending : db.bodyEnding? op me = some ending) (hfailure : ending.failure? = some e) :
    op.stand = .issued ∧ (db.resume i).locks = db.locks ∨
      ((db.resume i).locks.lockOf (s.place db.registry)).holders.writes me.txn := by
  -- A statement works on the table that it names, and so on the row that it names.
  have hplace : ∀ {target : Target}, op.stand.target? = some target →
      s.place db.registry = ⟨target.id, s.key⟩ := by
    intro target htarget
    rw [hlogged.aimed i op me hruns s target hcall htarget]
    rfl
  have hbacked := h.twoPhase.backed i op me s hruns hcall
  -- The statement fails before it asks, or with the answer to its request, or after it; in the last
  -- two cases it has been granted the lock.
  cases bodyTurn hruns hcall hworking with
  | rejected issued rejection ends resume =>
    exact .inl ⟨issued, hruns.locks_of_rejection hcall issued hopened rejection⟩
  | asks issued aims accepted acquired resume =>
    have hgranted := granted_of_failure (acquired.symm.trans hending) hfailure
    rw [resume, locks_acquired hopened (by rw [hgranted]; exact nofun)]
    exact .inr ((h.twoPhase.locks.acquire _ me _).granted hgranted hopen)
  | looks waits acquired resume =>
    have hgranted := granted_of_failure (acquired.symm.trans hending) hfailure
    rw [waits] at hbacked hplace
    obtain ⟨hkey, hawaits⟩ := hbacked
    rw [resume, locks_acquired hopened (by rw [hgranted]; exact nofun), hplace rfl, ← hkey]
    exact .inr ((h.twoPhase.locks.poll _ hawaits).granted hgranted hopen)
  | reads reading goesOn resume => cases goesOn.symm.trans hending
  | ends fetched fails resume =>
    rw [fetched] at hbacked hplace
    rw [resume, locks_fetched hopened, hplace rfl]
    exact .inr (hbacked hopen)

end

/-! ## The only call on a connection -/

/-- A connection holds a transaction with `n` operations in flight that has lost no lock since
`first` and is what it was to the locks, but for the keys in `K`. -/
structure Retains (first db : Database σ) (c : ConnectionId) (t : TransactionId)
    (txn : Transaction) (n : Nat) (K : Set Lock.Key) : Prop where
  /-- The connection holds it. -/
  holds : db.Holds c t txn n
  /-- It has got no other locks. -/
  leaves : first.locks.Leaves db.locks t K
  /-- It has lost none. -/
  writes : ∀ j, (first.locks.lockOf j).holders.writes t → (db.locks.lockOf j).holders.writes t

/-- A statement is at work as the only call on its connection. It has asked for no lock before its
first turn, and for none but that of the key `k` afterwards. -/
structure Underway (first db : Database σ) (c : ConnectionId) (t : TransactionId)
    (txn : Transaction) (s : Statement) (k : Lock.Key) (i : TaskId) (stand : Stand) : Prop where
  /-- It stands there. -/
  runs : db.Runs i ⟨c, .statement s, some txn.holder, false, stand⟩ txn.holder
  /-- It is at work. -/
  working : stand.isWorking
  /-- The transaction is its own. -/
  own : txn.holder.txn = t
  /-- Nothing is in flight but the statement. -/
  retains : Retains first db c t { txn with inFlight := 1 } 1 {j | j = k ∧ stand ≠ .issued}
  /-- The other calls on the connection are over. -/
  alone : ∀ (j : TaskId) (op : Operation), j ≠ i → db.tasks[j]? = some (.operation op) →
    op.connection = c → op.IsOver

/-- The calls on a connection are over, and its transaction is what it was, but that it writes the
keys in `K`. -/
structure Unharmed (first db : Database σ) (c : ConnectionId) (t : TransactionId)
    (txn : Transaction) (K : Set Lock.Key) : Prop where
  /-- Nothing is in flight. -/
  retains : Retains first db c t txn 0 K
  /-- The calls on the connection are over. -/
  ended : ∀ (j : TaskId) (op : Operation), db.tasks[j]? = some (.operation op) →
    op.connection = c → op.IsOver
  /-- The transaction writes the keys. -/
  gained : ∀ j ∈ K, (db.locks.lockOf j).holders.writes t

/-- How far a statement has come that is the only call on its connection. -/
inductive Fares (first db : Database σ) (c : ConnectionId) (t : TransactionId) (txn : Transaction)
    (s : Statement) (k : Lock.Key) (i : TaskId) : Prop where
  /-- It is at work. -/
  | works {stand : Stand} (underway : Underway first db c t txn s k i stand)
  /-- It is over, and if it has failed its transaction is unharmed. -/
  | ended {r : Result} (told : db.Told c i r)
      (unharmed : r.Fails → ∃ K, (K = ∅ ∨ K = {k}) ∧ Unharmed first db c t txn K)

section

variable [Backend σ] {action : Action σ}

omit [Backend σ] in
/-- Where nobody asks for anything, only a turn of a call that is not over concerns a connection. -/
theorem not_concerns (hquiet : action.ask? c = none)
    (hover : ∀ (j : TaskId) (op : Operation), action = .resume j →
      db.tasks[j]? = some (.operation op) → op.connection = c → op.IsOver) :
    ¬ db.Concerns c action := by
  -- To begin a transaction and to make a call would be to ask for something.
  cases action with
  | beginTransaction d | submit d call =>
    rintro rfl
    cases (if_pos rfl).symm.trans hquiet
  | resume j =>
    rintro ⟨op, hop, hc, hopen⟩
    exact hopen (hover j op rfl hop hc)
  | connect | createTable table | dropTable name | requestLock mode holder key | reach instant =>
    exact id

/-- What happens elsewhere leaves it so. -/
theorem Retains.perform {n : Nat} (h : Retains first db c t txn n K) (hregular : db.Regular clock)
    (hcoordinated : db.Coordinated action) (helse : ¬ db.Concerns c action) :
    Retains first (db.perform action) c t txn n K := by
  have hbeside := hregular.beside hcoordinated helse
  have hconnection := h.holds.connection hregular.tidy
  -- What others do adds nothing to what the locks have left to the transaction.
  have hmore := hregular.leaves_elsewhere hcoordinated helse ⟨txn, h.holds.found, hconnection⟩
  exact ⟨h.holds.beside hregular.tidy hbeside, h.leaves.trans (hmore.mono (Set.empty_subset K)),
    fun j hwrites => hbeside.writes t txn j h.holds.found hconnection (.inl h.holds.phase)
      (h.writes j hwrites)⟩

/-- What happens while no call is made on the connection leaves the transaction unharmed. -/
theorem Unharmed.perform (h : Unharmed first db c t txn K) (hregular : db.Regular clock)
    (hcoordinated : db.Coordinated action) (hquiet : action.ask? c = none) :
    Unharmed first (db.perform action) c t txn K := by
  have helse : ¬ db.Concerns c action :=
    not_concerns hquiet fun j op _ hop hc => h.ended j op hop hc
  have hbeside := hregular.beside hcoordinated helse
  have hretains := h.retains.perform hregular hcoordinated helse
  have hholds := h.retains.holds
  exact ⟨hretains, fun j op hop hc => h.ended j op ((hbeside.calls j op hc).mp hop) hc,
    fun j hj => hbeside.writes t txn j hholds.found (hholds.connection hregular.tidy)
      (.inl hholds.phase) (h.gained j hj)⟩

/-- After a turn of the statement the other calls are still over. -/
theorem Underway.alone_resume (h : Underway first db c t txn s k i stand)
    (hregular : db.Regular clock) (hne : j ≠ i)
    (hop : (db.resume i).tasks[j]? = some (.operation op)) (hc : op.connection = c) :
    op.IsOver := by
  have hafter : (db.perform (.resume i)).tasks[j]? = some (.operation op) := hop
  -- The turn moves the statement and no other call, and makes none.
  cases hregular.tidy.comes hregular.lifecycle hregular.twoPhase hafter with
  | same before => exact h.alone j op hne before hc
  | moved turn before unfinished now =>
    cases turn
    exact absurd rfl hne
  | made submitted last opened => cases submitted

/-- A turn in which no transaction loses a lock leaves its transaction the locks that it had. -/
theorem Underway.writes_resume (h : Underway first db c t txn s k i stand)
    (hregular : db.Regular clock)
    (hcontinues : ∀ Shut, db.locks.Orderly Shut → db.locks.Continues Shut (db.resume i).locks)
    (key : Lock.Key) (hwrites : (first.locks.lockOf key).holders.writes t) :
    ((db.resume i).locks.lockOf key).holders.writes t :=
  (hcontinues _ hregular.twoPhase.locks).writes key t h.retains.holds.not_shut
    (h.retains.writes key hwrites)

/-- A turn in which the statement fails leaves its transaction unharmed. -/
theorem Underway.fails (h : Underway first db c t txn s k i stand) (hregular : db.Regular clock)
    (hidle : txn.inFlight = 0) (hparked : txn.parked = [])
    (hending : db.bodyEnding? ⟨c, .statement s, some txn.holder, false, stand⟩ txn.holder =
      some ending)
    (hfailure : ending.failure? = some e) (hleaves : first.locks.Leaves (db.resume i).locks t K)
    (hgained : ∀ j ∈ K, ((db.resume i).locks.lockOf j).holders.writes t) :
    Stable db (db.resume i) ∧ (db.resume i).Told c i (.error e) ∧
      Unharmed first (db.resume i) c t txn K := by
  obtain rfl := h.own
  have hrested := h.retains.holds.fails h.runs rfl h.working rfl hending hfailure
  have hholds : (db.resume i).Holds c txn.holder.txn txn 0 :=
    Transaction.rested_eq hidle hparked ▸ hrested.holds
  refine ⟨hrested.stable, hrested.runs.told,
    ⟨hholds, hleaves, h.writes_resume hregular hrested.locks⟩, fun j op hop hc => ?_, hgained⟩
  -- The statement itself is over now, and the others were.
  by_cases hj : j = i
  · subst hj
    cases hrested.runs.1.symm.trans hop
    exact ⟨_, rfl⟩
  · exact h.alone_resume hregular hj hop hc

/-- A turn in which the statement is rejected leaves its transaction as it was. -/
theorem Underway.rejected (h : Underway first db c t txn s k i .issued)
    (hregular : db.Regular clock) (hidle : txn.inFlight = 0) (hparked : txn.parked = [])
    (hrejection : db.rejection? s = some ending) :
    (db.resume i).locks = db.locks ∧ Unharmed first (db.resume i) c t txn ∅ ∧
      ∃ e, ending.failure? = some e ∧ (db.resume i).Told c i (.error e) := by
  obtain ⟨e, hfailure⟩ := failure?_of_rejection hrejection
  have hlocks := h.runs.locks_of_rejection rfl rfl rfl hrejection
  have hleaves : first.locks.Leaves (db.resume i).locks t ∅ := by
    rw [hlocks]
    exact h.retains.leaves.mono fun j hj => hj.2 rfl
  -- A rejected body fails, so that the general case applies, without any key.
  obtain ⟨-, htold, hunharmed⟩ := h.fails hregular hidle hparked
    (bodyEnding?_of_rejection rfl rfl hrejection) hfailure hleaves nofun
  exact ⟨hlocks, hunharmed, e, hfailure, htold⟩

/-- A turn of the statement leaves it at work, or it is over. -/
theorem Underway.resume (h : Underway first db c t txn s k i stand) (hregular : db.Regular clock)
    (hlogged : db.Logged hasher past) (hidle : txn.inFlight = 0) (hparked : txn.parked = [])
    (hplace : s.place db.registry = k) :
    Stable db (db.resume i) ∧ Fares first (db.resume i) c t txn s k i := by
  obtain rfl := h.own
  have hruns := h.runs
  have hholds := h.retains.holds
  have hbody := hregular.leaves_turn (t := txn.holder.txn) hruns rfl h.working rfl
  rw [hplace] at hbody
  -- By whether the body ends in this turn, and if it does, whether it fails.
  cases hending : db.bodyEnding? _ txn.holder with
  | none =>
    obtain ⟨stand', hgoesOn, hafter, hholds', hstable, hcontinues⟩ :=
      hholds.body_goesOn hruns rfl h.working hending
    have hbegun : stand' ≠ .issued := by cases hgoesOn <;> nofun
    have hworking : stand'.isWorking := by cases hgoesOn <;> rfl
    -- It goes on, and from now on it may have asked for the lock of its row.
    have hbefore : first.locks.Leaves db.locks txn.holder.txn {j | j = k ∧ stand' ≠ .issued} :=
      h.retains.leaves.mono fun j hj => ⟨hj.1, hbegun⟩
    have hturn := hbody (by rw [hending]; nofun)
    have hleaves := hbefore.trans (hturn.mono fun j hj => ⟨hj, hbegun⟩)
    exact ⟨hstable, .works ⟨hafter, hworking, rfl, ⟨hholds', hleaves,
      h.writes_resume hregular hcontinues⟩, fun j op => h.alone_resume hregular⟩⟩
  | some ending =>
    cases hfailure : ending.failure? with
    | none =>
      -- It ends without failing, and nothing is claimed of its transaction.
      obtain ⟨r, hsound, hover, hstable⟩ :=
        hregular.body_over hholds hruns rfl h.working rfl hending hfailure
      exact ⟨hstable, .ended hover.told fun hfails => absurd hfails hsound⟩
    | some e =>
      -- Either it has failed before it has asked for its lock, or it has failed with the lock.
      rcases hregular.writes_of_failure hlogged hholds.not_shut hruns rfl h.working rfl hending
        hfailure with ⟨hissued, hlocks⟩ | hgained
      · have hleaves : first.locks.Leaves (db.resume i).locks txn.holder.txn ∅ := by
          rw [hlocks]
          exact h.retains.leaves.mono fun j hj => hj.2 hissued
        obtain ⟨hstable, htold, hunharmed⟩ :=
          h.fails hregular hidle hparked hending hfailure hleaves nofun
        exact ⟨hstable, .ended htold fun _ => ⟨∅, .inl rfl, hunharmed⟩⟩
      · have hbefore : first.locks.Leaves db.locks txn.holder.txn {k} :=
          h.retains.leaves.mono fun j hj => hj.1
        have hturn := hbody fun why heq =>
          kept_of_failure hfailure why (Option.some.inj (hending.symm.trans heq))
        obtain ⟨hstable, htold, hunharmed⟩ := h.fails hregular hidle hparked hending hfailure
          (hbefore.trans hturn) fun j hj => by
            obtain rfl := Set.mem_singleton_iff.mp hj
            exact hplace ▸ hgained
        exact ⟨hstable, .ended htold fun _ => ⟨{k}, .inr rfl, hunharmed⟩⟩

/-- Any action but a call on the connection takes the statement further. -/
theorem Fares.perform (h : Fares first db c t txn s k i) (hregular : db.Regular clock)
    (hlogged : db.Logged hasher past) (hidle : txn.inFlight = 0) (hparked : txn.parked = [])
    (hplace : s.place db.registry = k) (hcoordinated : db.Coordinated action)
    (hquiet : action.ask? c = none) : Fares first (db.perform action) c t txn s k i := by
  cases h with
  | @works stand underway =>
    -- It is the turn of the statement itself, or something that happens elsewhere.
    by_cases hturn : action = .resume i
    · subst hturn
      exact (underway.resume hregular hlogged hidle hparked hplace).2
    · -- Every other call on the connection is over.
      have helse : ¬ db.Concerns c action := not_concerns hquiet fun j op heq hop hc =>
        underway.alone j op (fun hj => hturn (hj ▸ heq)) hop hc
      have hbeside := hregular.beside hcoordinated helse
      exact .works ⟨hbeside.runs underway.runs rfl, underway.working, underway.own,
        underway.retains.perform hregular hcoordinated helse, fun j op hne hop hc =>
          underway.alone j op hne ((hbeside.calls j op hc).mp hop) hc⟩
  | ended told unharmed =>
    -- If it has not failed other calls may go on, but it keeps its result in any case.
    refine .ended (hregular.told_perform hcoordinated told) fun hfails => ?_
    obtain ⟨K, hK, hunharmed⟩ := unharmed hfails
    exact ⟨K, hK, hunharmed.perform hregular hcoordinated hquiet⟩

/-! ## Runs -/

omit [Backend σ] in
/-- Whether an action asks for nothing on a connection, in a database whose clients get their locks
through their connections. -/
def Hushed (c : ConnectionId) (db : Database σ) (action : Action σ) : Prop :=
  db.Coordinated action ∧ action.ask? c = none

/-- It can be found out from the action alone. -/
instance (c : ConnectionId) (db : Database σ) (action : Action σ) :
    Decidable (db.Hushed c action) :=
  inferInstanceAs (Decidable (_ ∧ _))

/-- A run may go on with actions that were permitted all along. -/
theorem Run.append {P Q : Database σ → Action σ → Prop} (run : Run P first db)
    (further : Run Q db last) (hmore : ∀ db action, Q db action → P db action) :
    Run P first last := by
  induction further with
  | start => exact run
  | perform _ permitted ih => exact ih.perform (hmore _ _ permitted)

/-- Throughout a run the write buffers hold what the statements have written. -/
theorem Run.logged {config : Config} {clock : Clock} {hasher : Hasher}
    (run : Run Coordinated (new config clock hasher) db) : ∃ past, db.Logged hasher past := by
  induction run with
  | start => exact ⟨[], logged_new config clock hasher⟩
  | perform run _ ih =>
    obtain ⟨past, hlogged⟩ := ih
    have hregular := run.regular (regular_new config clock hasher)
    exact ⟨_, hlogged.perform hregular.lifecycle hregular.twoPhase _⟩

/-- An unharmed transaction stays so until a call is made on its connection. -/
theorem Run.unharmed {config : Config} {clock : Clock} {hasher : Hasher}
    (run : Run Coordinated (new config clock hasher) mid) (further : Run (Hushed c) mid last)
    (h : Unharmed first mid c t txn K) : Unharmed first last c t txn K := by
  induction further with
  | start => exact h
  | perform further permitted ih =>
    have hregular := (run.append further fun _ _ => And.left).regular
      (regular_new config clock hasher)
    exact ih.perform hregular permitted.1 permitted.2

/-- A statement fares so until another call is made on its connection. -/
theorem Run.fares {config : Config} {clock : Clock} {hasher : Hasher}
    (run : Run Coordinated (new config clock hasher) mid) (further : Run (Hushed c) mid last)
    (hidle : txn.inFlight = 0) (hparked : txn.parked = [])
    (h : Fares first mid c t txn s ⟨hasher.tableId s.table, s.key⟩ i) :
    Fares first last c t txn s ⟨hasher.tableId s.table, s.key⟩ i := by
  induction further with
  | start => exact h
  | @perform db action further permitted ih =>
    have hrun := run.append further fun _ _ => And.left
    obtain ⟨past, hlogged⟩ := hrun.logged
    -- The row that the statement names is the same throughout, since the hasher does not change.
    have hplace : s.place db.registry = ⟨hasher.tableId s.table, s.key⟩ := by
      unfold Statement.place Registry.tableId
      rw [hlogged.named]
    exact ih.perform (hrun.regular (regular_new config clock hasher)) hlogged hidle hparked hplace
      permitted.1 permitted.2

omit [Backend σ] in
/-- A transaction is idle when all calls on its connection are over. -/
theorem Regular.idle_of_over (h : db.Regular clock) (hfound : db.directory.find? t = some txn)
    (hover : ∀ (j : TaskId) (op : Operation), db.tasks[j]? = some (.operation op) →
      op.connection = txn.connection → op.IsOver) : txn.inFlight = 0 ∧ txn.parked = [] := by
  -- Every operation in flight would be a call at work on the connection.
  have hidle : txn.inFlight = 0 := by
    rw [h.lifecycle.inFlight t txn hfound]
    by_contra hbusy
    obtain ⟨i, op, me, hruns, rfl, hworking⟩ := exists_working hbusy
    have hconnection := (h.tidy.placed i op me hruns).eq ⟨txn, hfound, rfl⟩
    exact Operation.not_over_of_working hworking (hover i op hruns.1 hconnection)
  exact ⟨hidle, by_contra fun hparked => h.attended.parked t txn hfound hparked hidle⟩

/-- A statement that is issued on such a connection is under way. -/
theorem Holds.underway (h : db.Holds c t txn 0) (hregular : db.Regular clock)
    (hover : ∀ (j : TaskId) (op : Operation), db.tasks[j]? = some (.operation op) →
      op.connection = c → op.IsOver) (s : Statement) (k : Lock.Key) :
    Stable db (db.submit c (.statement s)) ∧ (db.submit c (.statement s)).locks = db.locks ∧
      Underway db (db.submit c (.statement s)) c t txn s k db.tasks.size .issued := by
  obtain ⟨hruns, hown, hholds, hstable, hlocks⟩ :=
    h.submit_statement hregular.twoPhase.numbered s
  refine ⟨hstable, hlocks, hruns, rfl, hown, ⟨hholds, ?_, ?_⟩, fun j op hne hop hc => ?_⟩
  · rw [hlocks]
    exact Lock.Manager.leaves_refl ..
  · rw [hlocks]
    exact fun _ => id
  · have hafter : (db.perform (.submit c (.statement s))).tasks[j]? = some (.operation op) := hop
    -- No other call has come with it.
    cases hregular.tidy.comes hregular.lifecycle hregular.twoPhase hafter with
    | same before => exact hover j op before hc
    | moved turn before unfinished now => cases turn
    | made submitted last opened => exact absurd last hne

omit [Backend σ] in
/-- What an unharmed transaction has of the locks. -/
theorem Unharmed.adds (h : Unharmed first db c t txn K) (hfirst : first.Regular clock)
    (hregular : db.Regular clock) (hawaited : db.Awaited)
    (hwaits : ∀ k, ∀ v ∈ (first.locks.lockOf k).queue, v.holder.txn ≠ t) :
    first.locks.Adds db.locks t K := by
  have hconnection := h.retains.holds.connection hregular.tidy
  exact h.retains.leaves.adds hfirst.acquainted.written hregular.acquainted.written hwaits
    (fun _ _ hv => hawaited.not_queued hregular h.retains.holds.found
      (fun j op hop hc => h.ended j op hop (hc.trans hconnection)) hv) h.retains.writes h.gained

/-- Let a connection be attached to an active transaction, let all calls on it be over, and let a
statement be issued on it. Until another call is made on the connection:

To issue the statement changes no table and no lock, and none of its turns changes a table. When it
is over with an error, and not because its lock was refused or its transaction is over, the
connection is still attached to the transaction, which is active, has no operation in flight and the
write buffer that it had. To the locks, too, it is what it was, but that it may write the row that
the statement names. If the statement has not got so far as to ask for the lock, since its table is
not there or the row does not fit it, no lock and no record of the locks has changed in its turn. -/
theorem unharmed_of_failed {config : Config} {clock : Clock} {hasher : Hasher}
    {started : Database σ} (run : Run Coordinated (new config clock hasher) db)
    (hattached : db.attached.get? c = some t) (hfound : db.directory.find? t = some txn)
    (hactive : txn.phase = .active)
    (hover : ∀ (j : TaskId) (op : Operation), db.tasks[j]? = some (.operation op) →
      op.connection = c → op.IsOver)
    (submitted : db.submit c (.statement s) = started) (further : Run (Hushed c) started mid) :
    let i := db.tasks.size
    (Stable db started ∧ started.locks = db.locks) ∧ Stable mid (mid.resume i) ∧
    (∀ e, mid.result? i = some (.error e) → e ≠ Cause.lock .conflict → e ≠ Cause.lock .timeout →
      e ≠ Cause.terminalState → mid.Holds c t txn 0 ∧
        ∃ K, (K = ∅ ∨ K = {s.place db.registry}) ∧ db.locks.Adds mid.locks t K) ∧
    ∀ op ending, mid.tasks[i]? = some (.operation op) → op.stand = .issued →
      mid.rejection? s = some ending →
        (mid.resume i).locks = mid.locks ∧
        (∃ e, ending.failure? = some e ∧ (mid.resume i).result? i = some (.error e)) ∧
        ∀ last, Run (Hushed c) (mid.resume i) last →
          last.Holds c t txn 0 ∧ db.locks.Adds last.locks t ∅ := by
  subst submitted
  intro i
  -- Nothing is in flight or queued for the transaction when the statement is issued, which is
  -- thereby under way.
  have hregular := run.regular (regular_new config clock hasher)
  obtain ⟨own, hown, hconnection, -⟩ := hregular.tidy.owner hattached
  cases hfound.symm.trans hown
  obtain ⟨hidle, hparked⟩ := hregular.idle_of_over hfound
    fun j op hop hc => hover j op hop (hc.trans hconnection)
  have hwaits : ∀ k, ∀ v ∈ (db.locks.lockOf k).queue, v.holder.txn ≠ t := fun _ _ hv =>
    run.awaited.not_queued hregular hfound
      (fun j op hop hc => hover j op hop (hc.trans hconnection)) hv
  have holds : db.Holds c t txn 0 := ⟨hattached, hfound, hactive, hidle⟩
  obtain ⟨hstable, hlocks, hunderway⟩ :=
    holds.underway hregular hover s ⟨hasher.tableId s.table, s.key⟩
  have hstarted : Run Coordinated (new config clock hasher)
      (db.perform (.submit c (.statement s))) := run.perform rfl
  -- It fares as it does through the whole run, and its last turn is judged in a regular database.
  have hmid := hstarted.append further fun _ _ => And.left
  have hmidRegular := hmid.regular (regular_new config clock hasher)
  have hfares := hstarted.fares further hidle hparked (.works hunderway)
  obtain ⟨past, hlogged⟩ := hmid.logged
  have hplace : ∀ {db : Database σ}, db.registry.hasher = hasher →
      s.place db.registry = ⟨hasher.tableId s.table, s.key⟩ := by
    rintro db rfl
    rfl
  obtain ⟨earlier, hearlier⟩ := run.logged
  -- Each part is read off from how far the statement has come.
  refine ⟨⟨hstable, hlocks⟩, ?_, fun e hresult hconflict htimeout hterminal => ?_,
    fun op ending hop hissued hrejection => ?_⟩
  · cases hfares with
    | works underway =>
      exact (underway.resume hmidRegular hlogged hidle hparked (hplace hlogged.named)).1
    | ended told unharmed =>
      -- A call that is over takes no turn any more.
      rcases hmidRegular.resume_cases i with heq | ⟨op, me, hruns, hopen, -⟩
      · rw [heq]
        exact ⟨rfl, rfl⟩
      · obtain ⟨op', hop', -, hstand⟩ := told
        cases hruns.1.symm.trans hop'
        exact absurd ⟨_, hstand⟩ hopen
  · cases hfares with
    | works underway =>
      -- As long as the statement is at work nothing is told.
      have hnone := result?_eq_none underway.runs.1
        (Operation.not_over_of_working underway.working)
      cases hnone.symm.trans hresult
    | ended told unharmed =>
      -- It is over, and the error is none of those that end its transaction.
      obtain rfl := Option.some.inj (told.result?.symm.trans hresult)
      obtain ⟨K, hK, hunharmed⟩ := unharmed ⟨e, rfl, hconflict, htimeout, hterminal⟩
      rw [hplace hearlier.named]
      exact ⟨hunharmed.retains.holds, K, hK,
        hunharmed.adds hregular hmidRegular hmid.awaited hwaits⟩
  · cases hfares with
    | works underway =>
      cases underway.runs.1.symm.trans hop
      cases hissued
      -- It has not asked for the lock yet, and in this turn it is rejected.
      obtain ⟨hsame, hunharmed, e, hfailure, htold⟩ :=
        underway.rejected hmidRegular hidle hparked hrejection
      refine ⟨hsame, ⟨e, hfailure, htold.result?⟩, fun last further => ?_⟩
      have hturned : Run Coordinated (new config clock hasher) (mid.perform (.resume i)) :=
        hmid.perform rfl
      have hlast := hturned.append further fun _ _ => And.left
      have hkept := hturned.unharmed further hunharmed
      exact ⟨hkept.retains.holds, hkept.adds hregular
        (hlast.regular (regular_new config clock hasher)) hlast.awaited hwaits⟩
    | ended told unharmed =>
      -- Who is over is not issued.
      obtain ⟨op', hop', -, hstand⟩ := told
      cases hop.symm.trans hop'
      cases hissued.symm.trans hstand

end

/-- A transaction has inserted a row. -/
def inserted : List (Action MemoryTable) :=
  [ .createTable ⟨"t", .integer, .any, ⟨[]⟩⟩, .beginTransaction 0,
    .submit 0 (.statement (.put "t" (.integer 1) .null)), .resume 0 ]

/-- For instance, the transaction has its write and may go on when it has tried to remove a row that
is not there, and to write one with a key of the wrong kind. -/
theorem unharmed_of_failed_inserted :
    ∃ db missed rejected : Database MemoryTable, ∃ txn,
      inserted.foldl perform (new .standard default ⟨"Constant", fun _ => ⟨7⟩⟩) = db ∧
      [.resume 1, .resume 1, .resume 1].foldl perform
        (db.submit 0 (.statement (.delete "t" (.integer 3)))) = missed ∧
      (db.submit 0 (.statement (.put "t" .null .null))).resume 1 = rejected ∧
      missed.result? 1 = some (.error (Cause.table (.keyNotFound (.integer 3)))) ∧
      rejected.result? 1 =
        some (.error (Cause.table (.typeMismatch .key .integer .null))) ∧
      txn.log.entries = [⟨⟨7⟩, .integer 1, .put .null⟩] ∧ missed.Holds 0 ⟨0⟩ txn 0 ∧
      (∃ K, (K = ∅ ∨ K = {⟨⟨7⟩, .integer 3⟩}) ∧ db.locks.Adds missed.locks ⟨0⟩ K) ∧
      rejected.Holds 0 ⟨0⟩ txn 0 ∧ db.locks.Adds rejected.locks ⟨0⟩ ∅ := by
  -- The insertion is a run after which no call is at work.
  have run : Run Coordinated (new .standard default ⟨"Constant", fun _ => ⟨7⟩⟩)
      (inserted.foldl perform (new .standard default ⟨"Constant", fun _ => ⟨7⟩⟩)) :=
    Run.performAll .start (by decide)
  generalize hdb : inserted.foldl perform (new .standard default ⟨"Constant", fun _ => ⟨7⟩⟩) = db
    at run
  have hover : db.Idle 0 := by
    subst hdb
    decide +kernel
  obtain ⟨txn, hattached, hfound, hactive, hlog⟩ : ∃ txn, db.attached.get? 0 = some ⟨0⟩ ∧
      db.directory.find? ⟨0⟩ = some txn ∧ txn.phase = .active ∧
      txn.log.entries = [⟨⟨7⟩, .integer 1, .put .null⟩] := by
    subst hdb
    exact ⟨_, rfl, rfl, rfl, rfl⟩
  have hsize : db.tasks.size = 1 := by
    subst hdb
    rfl
  -- Either statement is then issued and followed by itself.
  have hmissed : Run (Hushed 0) (db.submit 0 (.statement (.delete "t" (.integer 3))))
      ([.resume 1, .resume 1, .resume 1].foldl perform
        (db.submit 0 (.statement (.delete "t" (.integer 3))))) :=
    Run.performAll .start (by exact ⟨⟨rfl, rfl⟩, ⟨rfl, rfl⟩, ⟨rfl, rfl⟩, trivial⟩)
  obtain ⟨-, -, hfailed, -⟩ := unharmed_of_failed run hattached hfound hactive hover rfl hmissed
  obtain ⟨-, -, -, hrejected⟩ := unharmed_of_failed (s := .put "t" .null .null) run hattached hfound
    hactive hover rfl .start
  rw [hsize] at hfailed hrejected
  have hplace : (Statement.delete "t" (.integer 3)).place db.registry = ⟨⟨7⟩, .integer 3⟩ := by
    subst hdb
    rfl
  -- The removal fails with the lock of its row.
  have hresult : ([.resume 1, .resume 1, .resume 1].foldl perform
      (db.submit 0 (.statement (.delete "t" (.integer 3))))).result? 1 =
        some (.error (Cause.table (.keyNotFound (.integer 3)))) := by
    subst hdb
    decide +kernel
  obtain ⟨hholds, hadds⟩ := hfailed _ hresult nofun nofun nofun
  -- The other one is rejected in its first turn.
  obtain ⟨op, hop, hissued⟩ : ∃ op, (db.submit 0 (.statement (.put "t" .null .null))).tasks[1]? =
      some (.operation op) ∧ op.stand = .issued := by
    subst hdb
    exact ⟨_, rfl, rfl⟩
  have hrejection : (db.submit 0 (.statement (.put "t" .null .null))).rejection?
      (.put "t" .null .null) =
        some (.failed (Cause.table (.typeMismatch .key .integer .null))) := by
    subst hdb
    rfl
  obtain ⟨-, ⟨e, hfailure, htold⟩, hkept⟩ := hrejected op _ hop hissued hrejection
  cases hfailure
  obtain ⟨hholds', hadds'⟩ := hkept _ .start
  rw [hplace] at hadds
  exact ⟨db, _, _, txn, rfl, rfl, rfl, hresult, htold, hlog, hholds, hadds, hholds', hadds'⟩

end Database

end TxStore
