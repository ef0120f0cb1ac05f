import TxStore.Proofs.Clock
import TxStore.Proofs.Database.Settled
import TxStore.Proofs.Database.Traceless
import TxStore.Proofs.Lock.Writers

/-!
# The roster of transactions

A transaction keeps its identifier, its connection, its timestamp and its origin for all its life,
and the directory keeps all transactions. So the list of these data, the roster, only grows: by one
line when a transaction is started, with the next reading of the clock (`Grows`). The timestamps on
the roster are therefore the readings of the clock in their order (`Dated`), and if these increase, a
transaction is younger than all that were started before it.

The locks know the transactions as the roster has them (`Acquainted`): whoever is at work or waits
is on it with its timestamp, and a transaction that is not on it is unknown to the locks.
-/

namespace TxStore

/-- What never changes about a transaction. -/
structure Identity where
  /-- Its identifier. -/
  id : TransactionId
  /-- Its connection. -/
  connection : ConnectionId
  /-- When it started. -/
  timestamp : Timestamp
  /-- How it came about. -/
  origin : Origin
  deriving DecidableEq

/-- What never changes about this transaction. -/
def Transaction.identity (txn : Transaction) : Identity :=
  ⟨txn.id, txn.connection, txn.timestamp, txn.origin⟩

/-- A transaction stays who it is when an operation leaves it. -/
theorem Transaction.identity_deregister (txn : Transaction) :
    txn.deregister.1.identity = txn.identity := by
  unfold Transaction.deregister
  split <;> rfl

/-- It stays who it is when a call is parked with it. -/
theorem Transaction.identity_awaitIdle (txn : Transaction) (call : Nat) :
    (txn.awaitIdle call).1.identity = txn.identity := by
  unfold Transaction.awaitIdle
  split
  · rfl
  · split <;> rfl

namespace Directory

variable {d : Directory} {t : TransactionId} {txn old : Transaction}

/-- Who all the transactions are, in the order in which they were started. -/
def roster (d : Directory) : List Identity :=
  d.transactions.toList.map Transaction.identity

/-- Who a transaction is stands at its place of the roster. -/
theorem getElem?_roster (d : Directory) (t : TransactionId) :
    d.roster[t.number]? = (d.find? t).map Transaction.identity := by
  unfold roster find?
  rw [List.getElem?_map, Array.getElem?_toList]

/-- The roster has a line for every transaction. -/
theorem length_roster (d : Directory) : d.roster.length = d.transactions.size := by
  unfold roster
  rw [List.length_map, Array.length_toList]

/-- A transaction may change as long as it stays who it is. -/
theorem roster_set (hfound : d.find? t = some old) (hsame : txn.identity = old.identity) :
    (d.set t txn).roster = d.roster := by
  refine List.ext_getElem? fun n => ?_
  rw [getElem?_roster (d.set t txn) ⟨n⟩, getElem?_roster d ⟨n⟩, find?_set hfound]
  split
  · rename_i heq
    rw [← heq, hfound]
    exact congrArg some hsame
  · rfl

/-- It may be changed by a function that lets every transaction be who it is. -/
theorem roster_modify (d : Directory) (t : TransactionId) {f : Transaction → Transaction}
    (hsame : ∀ txn, (f txn).identity = txn.identity) : (d.modify t f).roster = d.roster := by
  unfold modify
  cases hfound : d.find? t with
  | none => rfl
  | some txn => exact roster_set hfound (hsame txn)

/-- A new transaction is entered at the end. -/
theorem roster_place (d : Directory) (c : ConnectionId) (ts : Timestamp) (origin : Origin) :
    (d.place c ts origin).2.roster = d.roster ++ [⟨⟨d.roster.length⟩, c, ts, origin⟩] := by
  rw [length_roster]
  unfold roster place
  rw [Array.toList_push, List.map_append]
  rfl

end Directory

namespace Database

variable {σ : Type} {db mid db' : Database σ} {i : TaskId} {op : Operation} {me : Lock.Holder}
  {t u : TransactionId} {txn : Transaction} {stand stand' : Stand} {writes : List WriteEntry}
  {c : ConnectionId} {clock : Clock}

/-- What can happen to the roster and the clock at once: nothing, or a transaction is started with
the next reading. -/
inductive Grows (db db' : Database σ) : Prop where
  /-- Nothing. -/
  | idle (roster : db'.directory.roster = db.directory.roster) (clock : db'.clock = db.clock)
  /-- A transaction is started. -/
  | started (c : ConnectionId) (origin : Origin)
      (roster : db'.directory.roster = db.directory.roster ++
        [⟨⟨db.directory.roster.length⟩, c, db.clock.read.1, origin⟩])
      (clock : db'.clock = db.clock.read.2)

/-- Nobody is struck from the roster. -/
theorem Grows.extends (h : db.Grows db') : db.directory.roster <+: db'.directory.roster := by
  cases h with
  | idle roster clock => exact roster ▸ List.prefix_refl _
  | started c origin roster clock => exact roster ▸ List.prefix_append _ _

/-- Starting a transaction makes the roster grow. -/
theorem grows_placed (db : Database σ) (c : ConnectionId) (origin : Origin) :
    db.Grows (db.placed c db.clock.read.1 db.clock.read.2 origin) :=
  .started c origin (db.directory.roster_place c db.clock.read.1 origin) rfl

/-- The transactions have the readings of the clock for their timestamps, one after the other. -/
structure Dated (clock : Clock) (db : Database σ) : Prop where
  /-- Each transaction was started with the reading of its turn. -/
  timestamp : ∀ n who, db.directory.roster[n]? = some who →
    who.timestamp = clock.reading (clock.taken + n)
  /-- No other reading has been taken. -/
  readings : db.clock = { clock with taken := clock.taken + db.directory.roster.length }

/-- The next transaction has the next reading. -/
theorem Dated.grows (h : db.Dated clock) (hgrows : db.Grows db') : db'.Dated clock := by
  cases hgrows with
  | idle roster same =>
    exact ⟨fun n who hwho => h.timestamp n who (roster ▸ hwho), by rw [same, roster, h.readings]⟩
  | started c origin roster read =>
    refine ⟨fun n who hwho => ?_, ?_⟩
    · rw [roster, List.getElem?_append] at hwho
      split at hwho
      · exact h.timestamp n who hwho
      · rename_i hn
        rw [List.getElem?_singleton] at hwho
        split at hwho
        · cases hwho
          have hn : n = db.directory.roster.length := by omega
          rw [hn, h.readings]
          rfl
        · cases hwho
    · rw [read, roster, List.length_append, h.readings]
      rfl

/-- If the readings increase, the next one is younger than all transactions. -/
theorem Dated.isBefore_read (h : db.Dated clock) (hfound : db.directory.find? t = some txn)
    (hincreasing :
      Timestamp.increasing (clock.readings (db.directory.transactions.size + 1))) :
    txn.timestamp.isBefore db.clock.read.1 := by
  have hplace := h.timestamp t.number txn.identity
    (by rw [db.directory.getElem?_roster t, hfound]; rfl)
  have hlt : t.number < db.directory.transactions.size := (Array.getElem?_eq_some_iff.mp hfound).1
  have hread : db.clock.read.1 = clock.reading (clock.taken + db.directory.transactions.size) := by
    rw [h.readings, db.directory.length_roster]
    rfl
  show txn.identity.timestamp.isBefore db.clock.read.1
  rw [hplace, hread]
  exact Clock.isBefore_of_increasing hincreasing hlt (Nat.lt_succ_self _)

/-! ## The locks -/

/-- Whether a transaction is on the roster as the locks know it. -/
def Names (db : Database σ) (h : Lock.Holder) : Prop :=
  ∃ who, db.directory.roster[h.txn.number]? = some who ∧ who.id = h.txn ∧
    who.timestamp = h.timestamp

/-- What stands in a list stands in every list that it begins. -/
theorem getElem?_of_isPrefix {α : Type} {xs ys : List α} {n : Nat} {x : α} (h : xs <+: ys)
    (hx : xs[n]? = some x) : ys[n]? = some x := by
  obtain ⟨hlt, rfl⟩ := List.getElem?_eq_some_iff.mp hx
  exact List.prefix_iff_getElem?.mp h n hlt

/-- Whoever is on the roster stays there. -/
theorem Names.mono {h : Lock.Holder} (hnames : db.Names h)
    (hmore : db.directory.roster <+: db'.directory.roster) : db'.Names h := by
  obtain ⟨who, hwho, hid⟩ := hnames
  exact ⟨who, getElem?_of_isPrefix hmore hwho, hid⟩

/-- The roster knows every transaction that is found. -/
theorem names_of_found (hnumbered : db.directory.Numbered)
    (hfound : db.directory.find? t = some txn) : db.Names txn.holder := by
  have hid : txn.id = t := hnumbered t txn hfound
  refine ⟨txn.identity, ?_, rfl, rfl⟩
  show db.directory.roster[txn.id.number]? = _
  rw [hid, db.directory.getElem?_roster t, hfound]
  rfl

/-- A transaction is known if it has its place on the roster. -/
theorem known_iff : db.Known t ↔ t.number < db.directory.roster.length := by
  rw [db.directory.length_roster]
  exact ⟨fun ⟨_, hfound⟩ => (Array.getElem?_eq_some_iff.mp hfound).1,
    fun hlt => ⟨_, Array.getElem?_eq_getElem hlt⟩⟩

/-- A transaction that is known stays known. -/
theorem Known.mono (h : db.Known t) (hmore : db.directory.roster <+: db'.directory.roster) :
    db'.Known t :=
  known_iff.mpr ((known_iff.mp h).trans_le hmore.length_le)

/-- Two holders of one name are the same. -/
theorem Names.eq {h h' : Lock.Holder} (hnames : db.Names h) (hnames' : db.Names h')
    (htxn : h.txn = h'.txn) : h = h' := by
  obtain ⟨who, hwho, -, htimestamp⟩ := hnames
  obtain ⟨who', hwho', -, htimestamp'⟩ := hnames'
  rw [htxn, hwho'] at hwho
  cases hwho
  cases h
  cases h'
  exact congrArg₂ Lock.Holder.mk htxn (htimestamp.symm.trans htimestamp')

/-- The locks know the transactions as the roster has them. -/
structure Acquainted (db : Database σ) : Prop where
  /-- The locks and their index agree. -/
  consistent : db.locks.Consistent
  /-- Whoever is at work is on the roster. -/
  named : ∀ i op me, db.Runs i op me → db.Names me
  /-- The locks are asked for only to write, by those who are on the roster. -/
  written : db.locks.Written db.Names
  /-- The locks do not know a transaction that was not started. -/
  absent : ∀ t, ¬ db.Known t → db.locks.Absent t

/-- The roster may grow as long as the locks stay, and those may be at work who are on it. -/
theorem Acquainted.mono (h : db.Acquainted)
    (hmore : db.directory.roster <+: db'.directory.roster) (hlocks : db'.locks = db.locks)
    (hnamed : ∀ i op me, db'.Runs i op me → db.Runs i op me ∨ db'.Names me) : db'.Acquainted where
  consistent := hlocks ▸ h.consistent
  named i op me hruns :=
    (hnamed i op me hruns).elim (fun hruns => (h.named i op me hruns).mono hmore) id
  written := hlocks ▸ fun k => (h.written k).mono fun _ hnames => hnames.mono hmore
  absent t hunknown := hlocks ▸ h.absent t fun hknown => hunknown (hknown.mono hmore)

/-- It may grow as long as the locks and the tasks stay. -/
theorem Acquainted.of_eq (h : db.Acquainted)
    (hmore : db.directory.roster <+: db'.directory.roster) (hlocks : db'.locks = db.locks)
    (htasks : db'.tasks = db.tasks) : db'.Acquainted :=
  h.mono hmore hlocks fun _ _ _ hruns => .inl ((runs_of_tasks htasks).mp hruns)

/-! ## Turns -/

/-- What a move of an operation does with the locks. -/
inductive Contends (op : Operation) (me : Lock.Holder) (db : Database σ) (stand : Stand) :
    Lock.Manager → Prop where
  /-- Nothing. -/
  | idle : Contends op me db stand db.locks
  /-- A statement asks for the lock of its row. -/
  | ask {s : Statement} {target : Target} (call : op.call = .statement s)
      (aims : op.Aims db.registry target) (begins : stand = .issued) :
      Contends op me db stand (db.locks.acquire db.now .write me ⟨target.id, s.key⟩).1
  /-- It looks for the answer. -/
  | look {target : Target} {w : Lock.Waiting} (waits : stand = .locking target w) :
      Contends op me db stand (db.locks.poll db.now w).1
  /-- The locks of its transaction are released. -/
  | release : Contends op me db stand (db.locks.release me.txn)
  /-- The release is forgotten. -/
  | forget (ends : db.Ends me.txn stand) : Contends op me db stand (db.locks.forget me.txn)

/-- Whatever an operation does with the locks, they stay consistent and know nobody new but its own
transaction. -/
theorem Contends.consistent {m : Lock.Manager} (hcontends : Contends op me db stand m)
    (h : db.locks.Consistent) :
    m.Consistent ∧ ∀ u, u ≠ me.txn → db.locks.Absent u → m.Absent u := by
  cases hcontends with
  | idle => exact ⟨h, fun _ _ => id⟩
  | ask call aims begins =>
    exact ⟨h.acquire .., fun u hne habsent => habsent.acquire h _ _ (Ne.symm hne) _⟩
  | look waits => exact ⟨h.poll .., fun u _ habsent => habsent.poll h ..⟩
  | release =>
    exact ⟨h.release (List.Perm.refl _), fun u hne habsent => habsent.release h (Ne.symm hne)⟩
  | forget ends => exact ⟨h.forget _, fun u _ habsent => habsent.forget _⟩

/-- And they are asked for nothing but to write. -/
theorem Contends.written {m : Lock.Manager} (hcontends : Contends op me db stand m)
    (h : db.Acquainted) (hme : db.Names me) : m.Written db.Names := by
  cases hcontends with
  | idle => exact h.written
  | ask call aims begins => exact h.written.acquire h.consistent _ hme _
  | look waits => exact h.written.poll h.consistent _ _
  | release => exact h.written.release h.consistent _
  | forget ends => exact h.written

section

variable [Backend σ]

/-- What a move does with the locks. -/
theorem Move.contends (hmove : Move i op me db stand writes db' stand') :
    Contends op me db stand db'.locks := by
  -- Two moves ask the locks, two release them and one forgets a release.
  cases hmove with
  | ask call aims asked =>
    obtain rfl := asked
    exact .ask call aims rfl
  | look call looked =>
    obtain rfl := looked
    exact .look rfl
  | read call working aims => exact .idle
  | fetch call working aims row => exact .idle
  | buffer call working target write => exact .idle
  | leave call working result =>
    unfold Database.leave
    split <;> exact .idle
  | tell idle result => exact .idle
  | close idle own attached turned result =>
    obtain ⟨txn, -, -, rfl⟩ := turnTo_ok turned
    exact .idle
  | discard idle attached turned restart result =>
    obtain ⟨txn, -, -, rfl⟩ := turnTo_ok turned
    exact .release
  | park found busy => exact .idle
  | snapshot found idle => exact .idle
  | apply errors => exact .idle
  | release => exact .release
  | forget ends => exact .forget ends
  | separate ends =>
    rw [separate_eq]
    exact .idle
  | replace ends =>
    rw [locks_replace]
    exact .idle
  | retire ends result => exact .idle

/-- What a move does to the roster and the clock. -/
theorem Move.grows (hmove : Move i op me db stand writes db' stand')
    (h : db.InTurn i op me stand) : db.Grows db' := by
  obtain ⟨txn, hfound, -⟩ := h.found
  cases hmove with
  | ask call aims asked => exact .idle rfl rfl
  | look call looked => exact .idle rfl rfl
  | read call working aims => exact .idle rfl rfl
  | fetch call working aims row => exact .idle rfl rfl
  | buffer call working target write =>
    exact .idle (Directory.roster_modify _ _ fun _ => rfl) rfl
  | leave call working result =>
    rw [leave_eq hfound]
    exact .idle (Directory.roster_set hfound txn.identity_deregister) rfl
  | tell idle result => exact .idle rfl rfl
  | close idle own attached turned result =>
    obtain ⟨txn, hfound, -, rfl⟩ := turnTo_ok turned
    exact .idle (Directory.roster_set hfound rfl) rfl
  | discard idle attached turned restart result =>
    obtain ⟨txn, hfound, -, rfl⟩ := turnTo_ok turned
    exact .idle (Directory.roster_set hfound rfl) rfl
  | park found busy =>
    rename_i parked _ _
    exact .idle (Directory.roster_set found (parked.identity_awaitIdle i)) rfl
  | snapshot found idle => exact .idle rfl rfl
  | apply errors => exact .idle rfl rfl
  | release => exact .idle rfl rfl
  | forget ends => exact .idle rfl rfl
  | separate ends =>
    rw [separate_eq]
    exact .idle rfl rfl
  -- Only a replacement starts a transaction, at the end of the roster and with a reading of the
  -- clock; it does so if the connection is attached still.
  | replace ends =>
    by_cases hattached : db.attached.get? op.connection = some me.txn
    · have hagree := h.lifecycle.attached op.connection
      rw [directory_setStand, attached_setStand, hattached] at hagree
      have hroster : (db.directory.set me.txn { txn with log := .empty }).roster = _ :=
        Directory.roster_set hfound rfl
      rw [replace_eq hattached hagree.symm hfound]
      refine .started op.connection txn.origin ?_ rfl
      refine (Directory.roster_place ..).trans ?_
      show (db.directory.set me.txn { txn with log := .empty }).roster ++
        [⟨⟨(db.directory.set me.txn { txn with log := .empty }).roster.length⟩, _, _, _⟩] = _
      rw [hroster]
    · have hsame : (db.replace op.connection me.txn).1 = db := by
        unfold Database.replace
        rw [if_neg hattached]
      rw [hsame]
      exact .idle rfl rfl
  | retire ends result => exact .idle (Directory.roster_modify _ _ fun _ => rfl) rfl

/-- Several moves do so one after the other. -/
theorem Moves.grows (hmoves : Moves i op me db stand writes db' stand')
    (h : db.InTurn i op me stand) : Relation.ReflTransGen Grows db db' :=
  hmoves.keeps (P := fun mid _ => Relation.ReflTransGen Grows db mid)
    (fun hmove hturn hmid => hmid.tail (hmove.grows hturn)) h .refl

/-- A turn does so. -/
theorem Leads.grows (hleads : Leads i op me db stand writes db') (h : db.InTurn i op me stand) :
    Relation.ReflTransGen Grows db db' := by
  obtain ⟨mid, stand', hmoves, -, rfl⟩ := hleads
  obtain ⟨ready, heq⟩ := mid.putDown_eq i stand'
  refine (hmoves.grows h).tail (.idle ?_ ?_)
  · rw [heq]
    exact congrArg Directory.roster (mid.directory_setStand i stand')
  · rw [heq, setStand_eq]

/-- A move keeps the locks acquainted with the transactions. -/
theorem Move.acquainted (hmove : Move i op me db stand writes db' stand')
    (hturn : db.InTurn i op me stand) (h : db.Acquainted) : db'.Acquainted := by
  have hmore := (hmove.grows hturn).extends
  have htasks := (hmove.effect hturn).tasks
  have hme : db.Names me := h.named i op me hturn.runs
  obtain ⟨hconsistent, habsent⟩ := hmove.contends.consistent h.consistent
  refine ⟨hconsistent, fun j op me hruns => ?_, fun k => ?_, fun t hunknown => ?_⟩
  · exact (h.named j op me ((runs_of_tasks htasks).mp hruns)).mono hmore
  · exact (hmove.contends.written h hme k).mono fun _ hnames => hnames.mono hmore
  · refine habsent t (fun heq => ?_) (h.absent t fun hknown => hunknown (hknown.mono hmore))
    obtain ⟨txn, hfound, -⟩ := hturn.found
    exact hunknown (heq ▸ Known.mono ⟨txn, hfound⟩ hmore)

/-- So does a turn. -/
theorem Leads.acquainted (hleads : Leads i op me db stand writes db')
    (hturn : db.InTurn i op me stand) (h : db.Acquainted) : db'.Acquainted := by
  obtain ⟨mid, stand', hmoves, -, rfl⟩ := hleads
  have hmid := hmoves.keeps (P := fun mid _ => mid.Acquainted)
    (fun hmove hturn hmid => hmove.acquainted hturn hmid) hturn h
  obtain ⟨ready, heq⟩ := mid.putDown_eq i stand'
  have hdown : (mid.setStand i stand').Acquainted := by
    refine hmid.mono ?_ ?_ fun j op me hruns => ?_
    · exact (congrArg Directory.roster (mid.directory_setStand i stand')) ▸ List.prefix_refl _
    · rw [setStand_eq]
    · rcases runs_setStand hruns with hruns | ⟨rfl, old, hruns, -⟩
      · exact .inl hruns
      · exact .inr ((hmid.named _ old me hruns).mono
          (mid.directory_setStand _ stand' ▸ List.prefix_refl _))
  rw [heq]
  exact hdown.of_eq (List.prefix_refl _) rfl rfl

omit [Backend σ] in
/-- Starting a transaction makes the roster grow, if the connection has none. -/
theorem grows_start (hcurrent : db.directory.current.get? c = none) (origin : Origin) :
    db.Grows (db.start c origin).2 := by
  rw [start_eq hcurrent origin]
  exact db.grows_placed c origin

omit [Backend σ] in
/-- So does attaching a connection. -/
theorem Lifecycle.grows_attach (h : db.Lifecycle) (c : ConnectionId) :
    db.Grows (db.attach c).2 := by
  unfold Database.attach
  cases hattached : db.attached.get? c with
  | some t => exact .idle rfl rfl
  | none =>
    dsimp only
    split
    · have hgrows := grows_start ((h.attached c).symm.trans hattached) .implicit
      split
      · rename_i heq
        rw [heq] at hgrows
        exact hgrows
      · rename_i heq
        rw [heq] at hgrows
        exact hgrows
    · exact .idle rfl rfl

omit [Backend σ] in
/-- So does issuing a statement. -/
theorem Lifecycle.grows_statement (h : db.Lifecycle) (c : ConnectionId) (s : Statement) :
    db.Grows (db.submit c (.statement s)) := by
  have hgrows := h.grows_attach c
  have hsame : (db.submit c (.statement s)).directory.roster = (db.attach c).2.directory.roster ∧
      (db.submit c (.statement s)).clock = (db.attach c).2.clock := by
    rcases db.submit_statement_cases c s with
      ⟨e, heq⟩ | ⟨t, opened, txn, -, hfound, -, heq⟩
    · rw [heq]
      exact ⟨rfl, rfl⟩
    · rw [heq]
      exact ⟨Directory.roster_set hfound rfl, rfl⟩
  cases hgrows with
  | idle roster clock => exact .idle (hsame.1.trans roster) (hsame.2.trans clock)
  | started d origin roster clock =>
    exact .started d origin (hsame.1.trans roster) (hsame.2.trans clock)

/-- Every action makes the roster and the clock go on step by step. -/
theorem Lifecycle.grows_perform (h : db.Lifecycle) (htwoPhase : db.TwoPhase)
    (action : Action σ) : Relation.ReflTransGen Grows db (db.perform action) := by
  cases action with
  | connect => exact .single (.idle rfl rfl)
  | createTable table =>
    obtain ⟨store, registry, heq⟩ := db.exists_createTable table
    show Relation.ReflTransGen Grows db (db.createTable table).2
    rw [heq]
    exact .single (.idle rfl rfl)
  | dropTable name =>
    obtain ⟨registry, heq⟩ := db.exists_dropTable name
    show Relation.ReflTransGen Grows db (db.dropTable name).2
    rw [heq]
    exact .single (.idle rfl rfl)
  | beginTransaction c =>
    show Relation.ReflTransGen Grows db (db.beginTransaction c).2
    unfold Database.beginTransaction Dict.contains
    cases hattached : db.attached.get? c with
    | some t => exact .refl
    | none => exact .single (grows_start ((h.attached c).symm.trans hattached) .explicit)
  | submit c call =>
    show Relation.ReflTransGen Grows db (db.submit c call)
    cases hcall : call.isStatement with
    | true =>
      obtain ⟨s, rfl⟩ := Call.exists_statement hcall
      exact .single (h.grows_statement c s)
    | false =>
      rcases h.submit_cases htwoPhase hcall c with ⟨-, result, heq⟩ | ⟨me, hholder, hknown, hleads⟩
      · rw [heq]
        exact .single (.idle rfl rfl)
      · have hturn := h.take ⟨c, call, some me, false, .issued⟩ rfl hknown (.ok none)
        have hissue := issue_eq hholder call
        -- The call is issued, and then it has its first turn.
        exact .head (b := db.issue c call) (.idle rfl rfl)
          ((hleads (.ok none)).grows (hissue ▸ hturn))
  | requestLock mode holder key => exact .single (.idle rfl rfl)
  -- A turn that does nothing only takes the task out of the line.
  | resume i =>
    show Relation.ReflTransGen Grows db (db.resume i)
    rcases db.resume_cases i with ⟨op, me, hruns⟩ | ⟨r, hr⟩ | ⟨-, heq⟩
    · rcases h.resume_cases hruns with ⟨heq, -⟩ | ⟨-, hleads⟩
      · rw [heq]
        exact .single (.idle rfl rfl)
      · exact .head (b := { db with ready := db.ready.erase i }) (.idle rfl rfl)
          (hleads.grows (h.inTurn hruns))
    · rw [resume_eq_of_request hr]
      exact .single (.idle rfl rfl)
    · rw [heq]
      exact .single (.idle rfl rfl)
  | reach instant => exact .single (.idle rfl rfl)

/-- So nobody is struck from the roster. -/
theorem Lifecycle.roster_perform (h : db.Lifecycle) (htwoPhase : db.TwoPhase)
    (action : Action σ) : db.directory.roster <+: (db.perform action).directory.roster := by
  generalize db.perform action = later, h.grows_perform htwoPhase action = hgrows
  induction hgrows with
  | refl => exact List.prefix_refl _
  | tail _ hgrows ih => exact ih.trans hgrows.extends

/-- The timestamps go on counting whatever is done. -/
theorem Dated.perform (h : db.Dated clock) (hlifecycle : db.Lifecycle) (htwoPhase : db.TwoPhase)
    (action : Action σ) : (db.perform action).Dated clock := by
  generalize db.perform action = later, hlifecycle.grows_perform htwoPhase action = hgrows
  induction hgrows with
  | refl => exact h
  | tail _ hgrows ih => exact ih.grows hgrows

omit [Backend σ] in
/-- Starting a transaction asks for no lock. -/
theorem locks_start (db : Database σ) (c : ConnectionId) (origin : Origin) :
    (db.start c origin).2.locks = db.locks := by
  unfold Database.start
  dsimp only
  split <;> rfl

omit [Backend σ] in
/-- Nor does attaching a connection. -/
theorem locks_attach (db : Database σ) (c : ConnectionId) : (db.attach c).2.locks = db.locks := by
  rcases db.attach_cases c with heq | heq
  · rw [heq]
  · rw [heq]
    exact db.locks_start c .implicit

omit [Backend σ] in
/-- An operation may be added whose transaction is on the roster. -/
theorem Acquainted.push (h : db.Acquainted) (op : Operation)
    (hnamed : ∀ me, op.holder = some me → db.Names me) : (db.push (.operation op)).Acquainted :=
  h.mono (List.prefix_refl _) rfl fun _ _ _ hruns =>
    (getElem?_push_cases hruns.1).elim
      (fun heq => .inr (hnamed _ (by cases heq; exact hruns.2))) fun hold => .inl ⟨hold, hruns.2⟩

omit [Backend σ] in
/-- A statement may be issued. -/
theorem Acquainted.statement (h : db.Acquainted) (hlifecycle : db.Lifecycle)
    (htwoPhase : db.TwoPhase) (c : ConnectionId) (s : Statement) :
    (db.submit c (.statement s)).Acquainted := by
  have hattached : (db.attach c).2.Acquainted :=
    h.of_eq (hlifecycle.grows_attach c).extends (db.locks_attach c) (db.tasks_attach c)
  rcases db.submit_statement_cases c s with
    ⟨e, heq⟩ | ⟨t, opened, txn, -, hfound, -, heq⟩
  · rw [heq]
    exact hattached.push _ nofun
  · have hroster : ((db.attach c).2.directory.set t
        { txn with inFlight := txn.inFlight + 1 }).roster = _ := Directory.roster_set hfound rfl
    have hentered : ((db.attach c).2.withDirectory ((db.attach c).2.directory.set t
        { txn with inFlight := txn.inFlight + 1 })).Acquainted :=
      hattached.of_eq (hroster ▸ List.prefix_refl _) rfl rfl
    rw [heq]
    refine (hentered.push _ fun me hme => ?_).of_eq (List.prefix_refl _) rfl rfl
    cases hme
    exact (names_of_found (htwoPhase.attach c).numbered hfound).mono
      (hroster ▸ List.prefix_refl _)

omit [Backend σ] in
/-- A call that finishes a transaction may be issued. -/
theorem Acquainted.issue (h : db.Acquainted) (htwoPhase : db.TwoPhase) (c : ConnectionId)
    (call : Call) : (db.issue c call).Acquainted := by
  refine h.push _ fun me hme => ?_
  obtain ⟨txn, hfound, rfl⟩ := Option.map_eq_some_iff.mp hme
  obtain ⟨t, -, hfound⟩ := Option.bind_eq_some_iff.mp hfound
  exact names_of_found htwoPhase.numbered hfound

/-- So does every action of clients who get their locks through their connections. -/
theorem Acquainted.perform {action : Action σ} (h : db.Acquainted) (hlifecycle : db.Lifecycle)
    (htwoPhase : db.TwoPhase) (htidy : db.Tidy) (hcoordinated : db.Coordinated action) :
    (db.perform action).Acquainted := by
  have hmore := hlifecycle.roster_perform htwoPhase action
  cases action with
  | connect => exact h.of_eq hmore rfl rfl
  | createTable table =>
    obtain ⟨store, registry, heq⟩ := db.exists_createTable table
    show (db.createTable table).2.Acquainted
    rw [heq]
    exact h.of_eq (List.prefix_refl _) rfl rfl
  | dropTable name =>
    obtain ⟨registry, heq⟩ := db.exists_dropTable name
    show (db.dropTable name).2.Acquainted
    rw [heq]
    exact h.of_eq (List.prefix_refl _) rfl rfl
  | beginTransaction c =>
    -- To begin a transaction is known to the directory only.
    have hsame : (db.perform (.beginTransaction c)).locks = db.locks ∧
        (db.perform (.beginTransaction c)).tasks = db.tasks := by
      show (db.beginTransaction c).2.locks = db.locks ∧ (db.beginTransaction c).2.tasks = db.tasks
      rcases db.beginTransaction_cases c with heq | heq
      · rw [heq]
        exact ⟨rfl, rfl⟩
      · rw [heq]
        exact ⟨db.locks_start c .explicit, db.tasks_start c .explicit⟩
    exact h.of_eq hmore hsame.1 hsame.2
  | submit c call =>
    show (db.submit c call).Acquainted
    -- A statement waits for its first turn; any other call has it at once.
    cases hcall : call.isStatement with
    | true =>
      obtain ⟨s, rfl⟩ := Call.exists_statement hcall
      exact h.statement hlifecycle htwoPhase c s
    | false =>
      rcases hlifecycle.submit_cases htwoPhase hcall c with
        ⟨-, result, heq⟩ | ⟨me, hholder, hknown, hleads⟩
      · rw [heq]
        exact h.push _ nofun
      · have hturn := hlifecycle.take ⟨c, call, some me, false, .issued⟩ rfl hknown (.ok none)
        have hissue := issue_eq hholder call
        exact (hleads (.ok none)).acquainted (hissue ▸ hturn) (h.issue htwoPhase c call)
  | requestLock mode holder key => cases hcoordinated
  | resume i =>
    show (db.resume i).Acquainted
    -- The task leaves the line, and then it may move.
    have hfirst : ({ db with ready := db.ready.erase i } : Database σ).Acquainted :=
      h.of_eq (List.prefix_refl _) rfl rfl
    rcases db.resume_cases i with ⟨op, me, hruns⟩ | ⟨r, hr⟩ | ⟨-, heq⟩
    · rcases hlifecycle.resume_cases hruns with ⟨heq, -⟩ | ⟨-, hleads⟩
      · rw [heq]
        exact hfirst
      · exact hleads.acquainted (hlifecycle.inTurn hruns) hfirst
    · exact absurd hr (htidy.coordinated i r)
    · rw [heq]
      exact hfirst
  | reach instant => exact h.of_eq hmore rfl rfl

omit [Backend σ] in
/-- In a new database the locks know nobody. -/
theorem acquainted_new (config : Config) (clock : Clock) (hasher : Hasher) :
    (new config clock hasher : Database σ).Acquainted where
  consistent := Lock.Manager.consistent_new config.lockTimeout
  named _ _ _ h := by cases h.1
  written := Lock.Manager.written_new config.lockTimeout
  absent _ _ := ⟨fun _ => Lock.KeyLock.not_involves_free _, rfl, List.not_mem_nil⟩

omit [Backend σ] in
/-- And no transaction has been started. -/
theorem dated_new (config : Config) (clock : Clock) (hasher : Hasher) :
    (new config clock hasher : Database σ).Dated clock where
  timestamp _ _ h := by cases h
  readings := rfl

/-! ## Regular runs -/

/-- What holds of a database between any two actions of clients who get their locks through their
connections, if the clock began with `clock`. -/
structure Regular (clock : Clock) (db : Database σ) : Prop where
  /-- The records of the transactions agree. -/
  lifecycle : db.Lifecycle
  /-- The locks cover the writes. -/
  twoPhase : db.TwoPhase
  /-- Nobody waits without being attended to. -/
  attended : db.Attended none
  /-- Finished transactions leave nothing behind. -/
  tidy : db.Tidy
  /-- The locks know the transactions. -/
  acquainted : db.Acquainted
  /-- The timestamps are the readings of the clock. -/
  dated : db.Dated clock

/-- Every such action keeps a database regular. -/
theorem Regular.perform {action : Action σ} (h : db.Regular clock)
    (hcoordinated : db.Coordinated action) : (db.perform action).Regular clock where
  lifecycle := h.lifecycle.perform h.twoPhase action
  twoPhase := h.twoPhase.perform action
  attended := h.attended.perform h.lifecycle h.twoPhase action
  tidy := h.tidy.perform h.lifecycle h.twoPhase hcoordinated
  acquainted := h.acquainted.perform h.lifecycle h.twoPhase h.tidy hcoordinated
  dated := h.dated.perform h.lifecycle h.twoPhase action

/-- So does a turn of a task. -/
theorem Regular.resume (h : db.Regular clock) (i : TaskId) : (db.resume i).Regular clock := by
  show (db.perform (.resume i)).Regular clock
  exact h.perform rfl

omit [Backend σ] in
/-- A new database is regular. -/
theorem regular_new (config : Config) (clock : Clock) (hasher : Hasher) :
    (new config clock hasher : Database σ).Regular clock where
  lifecycle := lifecycle_new config clock hasher
  twoPhase := twoPhase_new config clock hasher
  attended := attended_new config clock hasher
  tidy := tidy_new config clock hasher
  acquainted := acquainted_new config clock hasher
  dated := dated_new config clock hasher

/-- A database stays regular whatever such clients do. -/
theorem Run.regular {first : Database σ} (run : Run Coordinated first db)
    (hfirst : first.Regular clock) : db.Regular clock := by
  induction run with
  | start => exact hfirst
  | perform _ hcoordinated ih => exact ih.perform hcoordinated

end

end Database

end TxStore
