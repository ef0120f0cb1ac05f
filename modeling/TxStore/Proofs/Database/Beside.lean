import TxStore.Proofs.Database.Refusals
import TxStore.Proofs.Database.Operations

/-!
# What others leave to a connection

An action concerns a connection if it is a call on it or a turn of such a call. Any other action
leaves to the connection what it relies on (`Beside`): the transaction it is attached to, all
transactions that were started on it, where its calls stand, and the rows that its open transactions
have locked. So a connection can be followed through a run by looking at its own actions only.
-/

namespace TxStore.Database

variable {σ : Type} {db mid db' : Database σ} {i : TaskId} {op : Operation} {me : Lock.Holder}
  {t u : TransactionId} {txn : Transaction} {stand stand' : Stand} {writes : List WriteEntry}
  {c d : ConnectionId} {clock : Clock}

/-- Whether an action is a call on a connection, or a turn of a call on it that is not over. -/
def Concerns (db : Database σ) (c : ConnectionId) : Action σ → Prop
  | .beginTransaction d | .submit d _ => d = c
  | .resume i => ∃ op, db.tasks[i]? = some (.operation op) ∧ op.connection = c ∧ ¬ op.IsOver
  | .connect | .createTable _ | .dropTable _ | .requestLock _ _ _ | .reach _ => False

/-- A call on a connection is over and has its result. -/
def Told (db : Database σ) (c : ConnectionId) (i : TaskId) (r : Result) : Prop :=
  ∃ op, db.tasks[i]? = some (.operation op) ∧ op.connection = c ∧ op.stand = .finished r

/-- The result can be asked for. -/
theorem Told.result? {r : Result} (h : db.Told c i r) : db.result? i = some r := by
  obtain ⟨op, hop, -, hstand⟩ := h
  have hresult : (Task.operation op).result? = some r := by
    simp only [Task.result?, hstand]
  exact (congrArg (Option.bind · Task.result?) hop).trans hresult

/-- As long as a call is not over it has no result. -/
theorem result?_eq_none (hop : db.tasks[i]? = some (.operation op)) (hopen : ¬ op.IsOver) :
    db.result? i = none := by
  have hresult : (Task.operation op).result? = none := by
    cases hstand : op.stand with
    | finished r => exact absurd ⟨r, hstand⟩ hopen
    | issued | locking target w | reading target | fetched target row | draining purpose r
      | applying plan r | applied errors r => simp only [Task.result?, hstand]
  exact (congrArg (Option.bind · Task.result?) hop).trans hresult

/-- An operation that is over has told its result to its connection. -/
theorem Runs.told {r : Result} (h : db.Runs i { op with stand := .finished r } me) :
    db.Told op.connection i r :=
  ⟨_, h.1, rfl, rfl⟩

/-- What a change elsewhere leaves to a connection. -/
structure Beside (c : ConnectionId) (db db' : Database σ) : Prop where
  /-- It is attached as it was. -/
  attached : db'.attached.get? c = db.attached.get? c
  /-- Its transactions are the same. -/
  found : ∀ t txn, db.directory.find? t = some txn → txn.connection = c →
    db'.directory.find? t = some txn
  /-- Its calls stand where they stood, and no other is made. -/
  calls : ∀ (i : TaskId) (op : Operation), op.connection = c →
    (db'.tasks[i]? = some (.operation op) ↔ db.tasks[i]? = some (.operation op))
  /-- Its open transactions keep their locks. -/
  writes : ∀ t txn k, db.directory.find? t = some txn → txn.connection = c → txn.IsOpen →
    (db.locks.lockOf k).holders.writes t → (db'.locks.lockOf k).holders.writes t

namespace Beside

/-- Two such changes come to one. -/
theorem trans (h : Beside c db mid) (h' : Beside c mid db') : Beside c db db' where
  attached := h'.attached.trans h.attached
  found t txn hfound hc := h'.found t txn (h.found t txn hfound hc) hc
  calls i op hc := (h'.calls i op hc).trans (h.calls i op hc)
  writes t txn k hfound hc hopen hwrites :=
    h'.writes t txn k (h.found t txn hfound hc) hc hopen (h.writes t txn k hfound hc hopen hwrites)

/-- An operation on it stands where it stood. -/
theorem runs (h : Beside c db db') (hruns : db.Runs i op me) (hc : op.connection = c) :
    db'.Runs i op me :=
  ⟨(h.calls i op hc).mpr hruns.1, hruns.2⟩

/-- A call on it keeps its result. -/
theorem told {r : Result} (h : Beside c db db') (htold : db.Told c i r) : db'.Told c i r := by
  obtain ⟨op, hop, hc, hstand⟩ := htold
  exact ⟨op, (h.calls i op hc).mpr hop, hc, hstand⟩

/-- What happens to the tables, the clock, the line and the time concerns no connection. -/
theorem of_eq (hattached : db'.attached = db.attached) (hdirectory : db'.directory = db.directory)
    (htasks : db'.tasks = db.tasks) (hlocks : db'.locks = db.locks) : Beside c db db' where
  attached := congrArg (Dict.get? · c) hattached
  found _ _ hfound _ := hdirectory ▸ hfound
  calls _ _ _ := htasks ▸ Iff.rfl
  writes _ _ _ _ _ _ hwrites := hlocks ▸ hwrites

/-- A call on another connection may be added. -/
theorem push (db : Database σ) (hne : op.connection ≠ c) :
    Beside c db (db.push (.operation op)) where
  attached := rfl
  found _ _ hfound _ := hfound
  calls i op' hc := by
    show (db.tasks.push (.operation op))[i]? = _ ↔ _
    rw [Array.getElem?_push]
    split
    · rename_i hi
      refine ⟨fun heq => ?_, fun heq => ?_⟩
      · cases heq
        exact absurd hc hne
      · have hlt := (Array.getElem?_eq_some_iff.mp heq).1
        exact absurd (hi ▸ hlt) (Nat.lt_irrefl _)
    · exact Iff.rfl
  writes _ _ _ _ _ _ hwrites := hwrites

/-- A transaction of another connection may change. -/
theorem set {old : Transaction} (hfound : db.directory.find? t = some old)
    (hne : old.connection ≠ c) (txn : Transaction) :
    Beside c db (db.withDirectory (db.directory.set t txn)) where
  attached := rfl
  found u other hother hc := by
    refine (Directory.find?_set hfound txn u).trans ?_
    split
    · rename_i heq
      subst heq
      cases hfound.symm.trans hother
      exact absurd hc hne
    · exact hother
  calls _ _ _ := Iff.rfl
  writes _ _ _ _ _ _ hwrites := hwrites

/-- A transaction may be started on another connection. -/
theorem placed (db : Database σ) (hne : d ≠ c) (ts : Timestamp) (clock : Clock)
    (origin : Origin) : Beside c db (db.placed d ts clock origin) where
  attached := (Dict.get?_insert ..).trans (if_neg hne)
  found _ _ hfound _ := Directory.find?_place_of_some ts origin hfound
  calls _ _ _ := Iff.rfl
  writes _ _ _ _ _ _ hwrites := hwrites

end Beside

/-! ## Calls on other connections -/

/-- Starting a transaction concerns no other connection. -/
theorem Beside.start (db : Database σ) (hne : d ≠ c) (origin : Origin) :
    Beside c db (db.start d origin).2 := by
  rcases db.start_cases d origin with hcurrent | ⟨e, heq⟩
  · rw [start_eq hcurrent]
    exact .placed db hne _ _ origin
  · rw [heq]
    exact .of_eq rfl rfl rfl rfl

/-- Nor does attaching a connection. -/
theorem Beside.attach (db : Database σ) (hne : d ≠ c) : Beside c db (db.attach d).2 := by
  rcases db.attach_cases d with heq | heq
  · rw [heq]
    exact .of_eq rfl rfl rfl rfl
  · rw [heq]
    exact .start db hne .implicit

/-- Nor does issuing a statement. -/
theorem Tidy.beside_statement (h : db.Tidy) (hne : d ≠ c) (s : Statement) :
    Beside c db (db.submit d (.statement s)) := by
  have hattach := Beside.attach db hne
  rcases db.submit_statement_cases d s with
    ⟨e, heq⟩ | ⟨t, opened, txn, hattached, hfound, -, heq⟩
  · rw [heq]
    exact hattach.trans (.push _ hne)
  · -- The transaction that the statement registers with is one of its own connection.
    have howner := (h.attach d).eq_of_attached hfound (attached_attach hattached)
    have hset := Beside.set hfound (howner ▸ hne) { txn with inFlight := txn.inFlight + 1 }
    rw [heq]
    refine hattach.trans (hset.trans ((Beside.push _ ?_).trans (.of_eq rfl rfl rfl rfl)))
    exact hne

section

variable [Backend σ] {action : Action σ}

/-! ## Turns on other connections -/

omit [Backend σ] in
/-- Whatever an operation does with the locks, they go on for all who are not to lose theirs, if its
own transaction is not one of these. -/
theorem Contends.continues {m : Lock.Manager} {Shut : TransactionId → Prop}
    (hcontends : Contends op me db stand m) (h : db.locks.Orderly Shut) (hmine : Shut me.txn) :
    db.locks.Continues Shut m := by
  cases hcontends with
  | idle => exact h.refl
  | ask call aims begins => exact h.continues_acquire _ _ _ _
  | look waits => exact h.continues_poll _ _
  | release => exact h.release hmine
  | forget ends => exact h.forget _

/-- So do the locks in a whole turn. -/
theorem Leads.continues {Shut : TransactionId → Prop} (hleads : Leads i op me db stand writes db')
    (hturn : db.InTurn i op me stand) (h : db.locks.Orderly Shut) (hmine : Shut me.txn) :
    db.locks.Continues Shut db'.locks := by
  obtain ⟨mid, stand', hmoves, -, rfl⟩ := hleads
  rw [locks_putDown]
  exact hmoves.keeps (P := fun mid _ => db.locks.Continues Shut mid.locks)
    (fun move _ hmid => hmid.trans (move.contends.continues hmid.orderly hmine)) hturn h.refl

/-- Other open transactions keep their locks in a turn. -/
theorem Leads.writes_of_ne {k : Lock.Key} (hleads : Leads i op me db stand writes db')
    (hturn : db.InTurn i op me stand) (h : db.locks.Orderly db.Shut) (hne : u ≠ me.txn)
    (hopen : ¬ db.Shut u) (hwrites : (db.locks.lockOf k).holders.writes u) :
    (db'.locks.lockOf k).holders.writes u := by
  -- In the middle of a turn its own transaction may have released its locks before it is shut.
  have horderly : db.locks.Orderly fun v => db.Shut v ∨ v = me.txn := h.mono fun _ => .inl
  refine (hleads.continues hturn horderly (.inr rfl)).writes k u (fun hshut => ?_) hwrites
  rcases hshut with hshut | rfl
  · exact hopen hshut
  · exact hne rfl

/-- A turn of an operation on another connection leaves what this one relies on. -/
theorem Leads.beside (hleads : Leads i op me db stand writes db')
    (hturn : db.InTurn i op me stand) (horderly : db.locks.Orderly db.Shut)
    (hbelongs : db.Belongs me.txn op.connection) (hne : op.connection ≠ c) :
    Beside c db db' := by
  obtain ⟨own, hown, hconnection⟩ := hbelongs
  have hother : ∀ {u txn}, db.directory.find? u = some txn → txn.connection = c → u ≠ me.txn := by
    rintro u txn hfound hc rfl
    cases hown.symm.trans hfound
    exact hne (hconnection.symm.trans hc)
  refine ⟨hleads.attached_of_ne hturn hne, fun u txn hfound hc =>
    hleads.others hturn (hother hfound hc) hfound, fun j other hc => ?_,
    fun u txn k hfound hc hopen hwrites => ?_⟩
  · by_cases hj : i = j
    · -- The task in hand is a call on the other connection before and after.
      subst hj
      obtain ⟨stand', hruns⟩ := hleads.runs hturn
      refine ⟨fun heq => ?_, fun heq => ?_⟩
      · cases hruns.1.symm.trans heq
        exact absurd hc hne
      · cases hturn.runs.1.symm.trans heq
        exact absurd hc hne
    · rw [hleads.tasks hturn hj]
  · refine hleads.writes_of_ne hturn horderly (hother hfound hc) ?_ hwrites
    rintro ⟨txn', hfound', hshut⟩
    cases hfound.symm.trans hfound'
    exact hshut hopen

/-! ## Actions elsewhere -/

/-- A task that is given a turn only leaves the line, or it is an operation that is not over and
goes on with its transaction. -/
theorem Regular.resume_cases (h : db.Regular clock) (i : TaskId) :
    db.resume i = db.pop i ∨ ∃ op me, db.Runs i op me ∧ ¬ op.IsOver ∧
      (db.pop i).InTurn i op me op.stand ∧
      Leads i op me (db.pop i) op.stand (db.turnWrites op me) (db.resume i) := by
  rcases db.resume_cases i with ⟨op, me, hruns⟩ | ⟨r, hr⟩ | ⟨-, heq⟩
  · rcases h.lifecycle.resume_cases hruns with ⟨heq, -⟩ | ⟨hopen, hleads⟩
    · exact .inl heq
    · refine .inr ⟨op, me, hruns, ?_, h.lifecycle.inTurn hruns, hleads⟩
      rintro ⟨r, hr⟩
      exact hopen r hr
  · exact absurd hr (h.tidy.coordinated i r)
  · exact .inl heq

/-- A call that finishes a transaction is over at once if there is none, or it has its first turn
when it is made. -/
theorem Regular.submit_cases {call : Call} (h : db.Regular clock) (hcall : call.isStatement = false)
    (c : ConnectionId) :
    (∃ result, db.submit c call =
      db.push (.operation ⟨c, call, none, false, .finished result⟩)) ∨
    ∃ me, db.Belongs me.txn c ∧
      (db.push (.operation ⟨c, call, some me, false, .issued⟩)).TwoPhase ∧
      (db.push (.operation ⟨c, call, some me, false, .issued⟩)).InTurn db.tasks.size
        ⟨c, call, some me, false, .issued⟩ me (.finished (.ok none)) ∧
      Leads db.tasks.size ⟨c, call, some me, false, .issued⟩ me
        (db.push (.operation ⟨c, call, some me, false, .issued⟩)) (.finished (.ok none)) []
        (db.submit c call) := by
  rcases h.lifecycle.submit_cases h.twoPhase hcall c with
    ⟨-, result, heq⟩ | ⟨me, hholder, hknown, hleads⟩
  · exact .inl ⟨result, heq⟩
  · have hissue := issue_eq hholder call
    have hbelongs : db.Belongs me.txn c :=
      h.tidy.home c me.txn (h.twoPhase.txn_attachedHolder hholder).1
    exact .inr ⟨me, hbelongs, hissue ▸ h.twoPhase.issue c call,
      h.lifecycle.take _ rfl hknown _, hissue ▸ hleads (.ok none)⟩

/-- An action that does not concern a connection leaves what this relies on. -/
theorem Regular.beside (h : db.Regular clock) (hcoordinated : db.Coordinated action)
    (helse : ¬ db.Concerns c action) : Beside c db (db.perform action) := by
  -- By cases on the action: it is about no connection at all, or about another one, whose calls and
  -- transactions are others.
  cases action with
  | connect => exact .of_eq rfl rfl rfl rfl
  | createTable table =>
    obtain ⟨store, registry, heq⟩ := db.exists_createTable table
    show Beside c db (db.createTable table).2
    rw [heq]
    exact .of_eq rfl rfl rfl rfl
  | dropTable name =>
    obtain ⟨registry, heq⟩ := db.exists_dropTable name
    show Beside c db (db.dropTable name).2
    rw [heq]
    exact .of_eq rfl rfl rfl rfl
  | beginTransaction d =>
    show Beside c db (db.beginTransaction d).2
    rcases db.beginTransaction_cases d with heq | heq
    · rw [heq]
      exact .of_eq rfl rfl rfl rfl
    · rw [heq]
      exact .start db helse .explicit
  | submit d call =>
    cases hcall : call.isStatement with
    | true =>
      obtain ⟨s, rfl⟩ := Call.exists_statement hcall
      exact h.tidy.beside_statement helse s
    | false =>
      show Beside c db (db.submit d call)
      rcases h.submit_cases hcall d with ⟨result, heq⟩ | ⟨me, hbelongs, htwoPhase, hturn, hleads⟩
      · rw [heq]
        exact .push db helse
      · -- The call is issued, and then it has its first turn.
        have hpush : Beside c db (db.push (.operation ⟨d, call, some me, false, .issued⟩)) :=
          .push db helse
        exact hpush.trans (hleads.beside hturn htwoPhase.locks hbelongs helse)
  | requestLock mode holder key => cases hcoordinated
  | resume i =>
    show Beside c db (db.resume i)
    have hpop : Beside c db (db.pop i) := .of_eq rfl rfl rfl rfl
    rcases h.resume_cases i with heq | ⟨op, me, hruns, hopen, hturn, hleads⟩
    · rw [heq]
      exact hpop
    · have hne : op.connection ≠ c := fun hc => helse ⟨op, hruns.1, hc, hopen⟩
      exact hpop.trans (hleads.beside hturn h.twoPhase.locks (h.tidy.placed i op me hruns) hne)
  | reach instant => exact .of_eq rfl rfl rfl rfl

/-- A call that is over keeps its result whatever happens. -/
theorem Regular.told_perform {r : Result} (h : db.Regular clock)
    (hcoordinated : db.Coordinated action) (htold : db.Told c i r) :
    (db.perform action).Told c i r := by
  obtain ⟨op, hop, hc, hstand⟩ := htold
  suffices hkept : (db.perform action).tasks[i]? = some (.operation op) from ⟨op, hkept, hc, hstand⟩
  cases hholder : op.holder with
  | some me => exact (h.lifecycle.over_perform h.twoPhase ⟨hop, hholder⟩ hstand).1
  | none =>
    rcases h.perform_cases hcoordinated with hcalm | ⟨j, other, me, first, stand, writes, htakes, hleads⟩
    · exact hcalm.quiet.operations i op hop
    · -- The operation in its turn belongs to a transaction, so it is another one.
      have hne : j ≠ i := by
        rintro rfl
        cases htakes.begins with
        | resume runs =>
          cases hop.symm.trans runs.1
          cases hholder.symm.trans runs.2
        | submit new made finishes holder result =>
          rw [new, Array.getElem?_size] at hop
          cases hop
      have hfirst := htakes.begins.quiet.operations i op hop
      rw [tasks_setStand_of_ne hne] at hfirst
      exact (hleads.tasks htakes.inTurn hne).trans hfirst

/-! ## What no call changes -/

/-- A database with the same settings, the same registered tables and the same connections. -/
structure Alike (db db' : Database σ) : Prop where
  /-- The settings are the same. -/
  config : db'.config = db.config
  /-- The same tables are registered. -/
  registry : db'.registry = db.registry
  /-- The connections are the same. -/
  connections : db'.connections = db.connections

omit [Backend σ] in
/-- Two such changes come to one. -/
theorem Alike.trans (h : Alike db mid) (h' : Alike mid db') : Alike db db' :=
  ⟨h'.config.trans h.config, h'.registry.trans h.registry, h'.connections.trans h.connections⟩

omit [Backend σ] in
/-- Replacing a transaction is one. -/
theorem alike_replace (db : Database σ) (c : ConnectionId) (t : TransactionId) :
    Alike db (db.replace c t).1 := by
  unfold Database.replace
  split
  · split
    · exact ⟨rfl, rfl, rfl⟩
    · dsimp only
      split <;> exact ⟨rfl, rfl, rfl⟩
  · exact ⟨rfl, rfl, rfl⟩

/-- So is every move of an operation. -/
theorem Move.alike (hmove : Move i op me db stand writes db' stand') : Alike db db' := by
  cases hmove with
  | ask call aims asked => exact ⟨rfl, rfl, rfl⟩
  | look call looked => exact ⟨rfl, rfl, rfl⟩
  | read call working aims => exact ⟨rfl, rfl, rfl⟩
  | fetch call working aims row => exact ⟨rfl, rfl, rfl⟩
  | buffer call working target write => exact ⟨rfl, rfl, rfl⟩
  | leave call working result =>
    unfold Database.leave
    split <;> exact ⟨rfl, rfl, rfl⟩
  | tell idle result => exact ⟨rfl, rfl, rfl⟩
  | close idle own attached turned result =>
    obtain ⟨txn, -, -, rfl⟩ := turnTo_ok turned
    exact ⟨rfl, rfl, rfl⟩
  | discard idle attached turned restart result =>
    obtain ⟨txn, -, -, rfl⟩ := turnTo_ok turned
    exact ⟨rfl, rfl, rfl⟩
  | park found busy => exact ⟨rfl, rfl, rfl⟩
  | snapshot found idle => exact ⟨rfl, rfl, rfl⟩
  | apply errors => exact ⟨rfl, rfl, rfl⟩
  | release => exact ⟨rfl, rfl, rfl⟩
  | forget ends => exact ⟨rfl, rfl, rfl⟩
  | separate ends =>
    rw [separate_eq]
    exact ⟨rfl, rfl, rfl⟩
  | replace ends => exact alike_replace ..
  | retire ends result => exact ⟨rfl, rfl, rfl⟩

/-- So is a whole turn. -/
theorem Leads.alike (hleads : Leads i op me db stand writes db')
    (hturn : db.InTurn i op me stand) : Alike db db' := by
  obtain ⟨mid, stand', hmoves, -, rfl⟩ := hleads
  obtain ⟨ready, heq⟩ := mid.putDown_eq i stand'
  have hmid := hmoves.keeps (P := fun mid _ => Alike db mid)
    (fun move _ hmid => hmid.trans move.alike) hturn ⟨rfl, rfl, rfl⟩
  rw [heq, setStand_eq]
  exact ⟨hmid.config, hmid.registry, hmid.connections⟩

/-- A turn of a task is one, as long as there are no bare requests. -/
theorem Regular.alike_resume (h : db.Regular clock) (i : TaskId) : Alike db (db.resume i) := by
  rcases h.resume_cases i with heq | ⟨op, me, -, -, hturn, hleads⟩
  · rw [heq]
    exact ⟨rfl, rfl, rfl⟩
  · have hpop : Alike (db.pop i) (db.resume i) := hleads.alike hturn
    exact ⟨hpop.config, hpop.registry, hpop.connections⟩

omit [Backend σ] in
/-- So is starting a transaction. -/
theorem alike_start (db : Database σ) (c : ConnectionId) (origin : Origin) :
    Alike db (db.start c origin).2 := by
  unfold Database.start
  dsimp only
  split <;> exact ⟨rfl, rfl, rfl⟩

omit [Backend σ] in
/-- So is issuing a statement. -/
theorem alike_statement (db : Database σ) (c : ConnectionId) (s : Statement) :
    Alike db (db.submit c (.statement s)) := by
  have hattach : Alike db (db.attach c).2 := by
    rcases db.attach_cases c with heq | heq
    · rw [heq]
      exact ⟨rfl, rfl, rfl⟩
    · rw [heq]
      exact alike_start db c .implicit
  rcases db.submit_statement_cases c s with ⟨e, heq⟩ | ⟨t, opened, txn, -, -, -, heq⟩
  · rw [heq]
    exact ⟨hattach.config, hattach.registry, hattach.connections⟩
  · rw [heq]
    exact ⟨hattach.config, hattach.registry, hattach.connections⟩

/-- So is making a call. -/
theorem Regular.alike_submit (h : db.Regular clock) (c : ConnectionId) (call : Call) :
    Alike db (db.submit c call) := by
  cases hcall : call.isStatement with
  | true =>
    obtain ⟨s, rfl⟩ := Call.exists_statement hcall
    exact alike_statement db c s
  | false =>
    rcases h.submit_cases hcall c with ⟨result, heq⟩ | ⟨me, -, -, hturn, hleads⟩
    · rw [heq]
      exact ⟨rfl, rfl, rfl⟩
    · have hissued := hleads.alike hturn
      exact ⟨hissued.config, hissued.registry, hissued.connections⟩

end

end TxStore.Database
