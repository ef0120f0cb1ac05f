import TxStore.Proofs.Workload.Worker

/-!
# A statement on the row that is run by itself

The row is set before the workers begin and read after they have ended, each time by a statement on
a connection without a transaction, and nothing else is under way. The statement commits the
transaction that was made for it (`Single`). If it yields a value at all, a write has set the row
and a read tells what the row holds (`called_of_single`).
-/

namespace TxStore.CounterPlan

open Database

variable {p : CounterPlan} {target : Target} {t : MemoryTable} {first db db' : Database Table}
  {c : ConnectionId} {i : TaskId} {s : Statement} {clock : Clock}

/-- What holds when a call with a value is over: its connection has no transaction, and it has set
the row or read it. -/
structure Settles (p : CounterPlan) (target : Target) (t : MemoryTable) (db : Database Table)
    (c : ConnectionId) (s : Statement) (value : Option Value) : Prop where
  /-- The connection has no transaction. -/
  detached : db.attached.get? c = none
  /-- The table is the one of the plan. -/
  finds : p.Finds target t db
  /-- It takes numbers. -/
  fits : p.Fits t
  /-- A read tells what the row holds. -/
  read : s = p.read → value = p.rowIn t
  /-- A write has set the row. -/
  write : ∀ n, s = p.write n → p.rowIn t = some (.integer n)

/-- How far a statement on the row is that has a transaction of its own. -/
inductive Single (p : CounterPlan) (target : Target) (t : MemoryTable) (db : Database Table)
    (c : ConnectionId) (i : TaskId) (s : Statement) : Prop where
  /-- It has not ended. -/
  | serves {op : Operation} {me : Lock.Holder} {txn : Transaction}
      (serves : p.Serves target t db i op me txn s) (own : op.connection = c)
      (opened : op.opened = true) (finds : p.Finds target t db) (fits : p.Fits t)
  /-- It will fail in its next turn. -/
  | fails {op : Operation} {me : Lock.Holder} {txn : Transaction} {e : Error}
      (runs : db.Runs i op me) (call : op.call = .statement s) (working : op.stand.isWorking)
      (holds : db.Holds op.connection me.txn txn 1) (empty : txn.log = .empty)
      (own : op.connection = c) (opened : op.opened = true)
      (ending : db.bodyEnding? op me = some (.failed e))
  /-- It has written, and its number is about to be applied. -/
  | applies {op : Operation} {me : Lock.Holder} {txn : Transaction} {n : Int64}
      (applies : Applies i op me txn (.ok none) db) (own : op.connection = c)
      (writes : s = p.write n)
      (log : txn.log.entries = [⟨target.id, .integer p.key, .put (.integer n)⟩])
      (finds : p.Finds target t db) (fits : p.Fits t)
  /-- Its number has been applied. -/
  | applied {op : Operation} {me : Lock.Holder} {n : Int64}
      (runs : db.Runs i { op with stand := .applied [] (.ok none) } me)
      (attached : db.attached.get? op.connection = some me.txn) (own : op.connection = c)
      (writes : s = p.write n) (row : p.rowIn t = some (.integer n)) (finds : p.Finds target t db)
      (fits : p.Fits t)
  /-- It is over. -/
  | ends {r : Result} (told : db.Told c i r)
      (settles : ∀ value, r = .ok value → p.Settles target t db c s value)

/-- What holds of a database as long as call `i` on a connection is the only one under way. -/
structure Lone (clock : Clock) (c : ConnectionId) (i : TaskId) (first db : Database Table) :
    Prop where
  /-- The database is regular. -/
  regular : db.Regular clock
  /-- Other connections are attached as they were. -/
  others : ∀ d, c ≠ d → db.attached.get? d = first.attached.get? d
  /-- No connection is opened. -/
  connections : db.connections = first.connections
  /-- All other calls are over. -/
  alone : ∀ (j : TaskId) (op : Operation), db.tasks[j]? = some (.operation op) → ¬ op.IsOver →
    j = i ∧ op.connection = c

/-! ## Turns of the call -/

/-- A statement that has not ended may have its turn. -/
theorem Serves.single {op : Operation} {me : Lock.Holder} {txn : Transaction}
    (h : p.Serves target t db i op me txn s) (hregular : db.Regular clock)
    (hown : op.connection = c) (hopened : op.opened = true) (hfinds : p.Finds target t db)
    (hfits : p.Fits t) (hrow : s = p.read → ∃ v, p.rowIn t = some v) :
    p.Single target t (db.resume i) c i s := by
  rcases h.bodyEnding?_cases hfinds hfits with
    hnone | ⟨why, hrefused⟩ | ⟨rfl, v, hv, -, hdone⟩ | ⟨n, rfl, hdone⟩
  · obtain ⟨stand, hserves, hstable, -⟩ := h.resume hfinds hfits hrow hnone
    exact .serves hserves hown hopened (hfinds.of_stable hstable) hfits
  · obtain ⟨⟨e, htold⟩, -, -⟩ := h.refused hregular hrefused
    rw [hown] at htold
    exact .ends htold nofun
  · -- A read has written nothing, and its transaction is released in the same turn.
    obtain ⟨mid, hlabors, heq⟩ := h.ends hfinds hdone
    have hresult : (Ending.done (some v)).result? = some (.ok (some v)) := rfl
    have hentries : (txn.log.appendAll []).entries = [] := by
      rw [h.empty]
      rfl
    have hended := hlabors.released h.runs hresult hopened hentries
    rw [← heq] at hended
    refine .ends (hown ▸ hended.runs.told) fun value hvalue => ?_
    cases hvalue
    exact ⟨hown ▸ hended.attached, hfinds.of_stable hended.stable, hfits, fun _ => hv.symm, nofun⟩
  · -- A write leaves one entry in the buffer, which has yet to be applied.
    obtain ⟨mid, hlabors, heq⟩ := h.ends hfinds hdone
    have hresult : (Ending.done none).result? = some (.ok none) := rfl
    have hentries : (txn.log.appendAll (entriesAt target.id (p.write n) (some (.done none)))).entries =
        [⟨target.id, .integer p.key, .put (.integer n)⟩] := by
      rw [h.empty]
      rfl
    obtain ⟨happlies, hstable⟩ := hlabors.applies h.runs hresult hopened
      (hentries ▸ List.cons_ne_nil _ _)
    rw [← heq] at happlies hstable
    exact .applies happlies hown rfl hentries (hfinds.of_stable hstable) hfits

/-- A statement that will fail is over after its turn, with an error. -/
theorem single_of_fails {op : Operation} {me : Lock.Holder} {txn : Transaction} {e : Error}
    (hruns : db.Runs i op me) (hcall : op.call = .statement s) (hworking : op.stand.isWorking)
    (hholds : db.Holds op.connection me.txn txn 1) (hempty : txn.log = .empty)
    (hown : op.connection = c) (hopened : op.opened = true)
    (hending : db.bodyEnding? op me = some (.failed e)) :
    p.Single target t (db.resume i) c i s := by
  obtain ⟨mid, hlabors, heq⟩ := hholds.body_ends hruns hcall hworking hending
  have hresult : (Ending.failed e).result? = some (.error e) := rfl
  have hentries : (txn.log.appendAll []).entries = [] := by
    rw [hempty]
    rfl
  have hended := hlabors.released hruns hresult hopened hentries
  rw [← heq] at hended
  have htold := hended.runs.told
  rw [hown] at htold
  exact .ends htold nofun

/-- The number of a write may be applied. -/
theorem single_of_applies {op : Operation} {me : Lock.Holder} {txn : Transaction} {n : Int64}
    (h : Applies i op me txn (.ok none) db) (hown : op.connection = c)
    (hlog : txn.log.entries = [⟨target.id, .integer p.key, .put (.integer n)⟩])
    (hfinds : p.Finds target t db) (hfits : p.Fits t) :
    ∃ t', p.Single target t' (db.resume i) c i (p.write n) := by
  obtain ⟨t', store, hplan, htable, hfits', hrow'⟩ := hfinds.applyPlan_eq hfits n
  obtain ⟨errors, herrors, hruns, hattached, -, hstore, hregistry, -⟩ := h.resume
  rw [hlog, hplan] at herrors hstore
  subst herrors
  refine ⟨t', .applied hruns hattached hown rfl hrow' ⟨hregistry ▸ hfinds.looked, ?_⟩ hfits'⟩
  rw [hstore]
  exact htable

/-- A write whose number has been applied is over after its turn. -/
theorem single_of_applied {op : Operation} {me : Lock.Holder} {n : Int64}
    (hruns : db.Runs i { op with stand := .applied [] (.ok none) } me)
    (hattached : db.attached.get? op.connection = some me.txn) (hown : op.connection = c)
    (hrow : p.rowIn t = some (.integer n)) (hfinds : p.Finds target t db) (hfits : p.Fits t) :
    p.Single target t (db.resume i) c i (p.write n) := by
  have hended := released_resume hruns hattached
  refine .ends (hown ▸ hended.runs.told) fun value hvalue => ?_
  refine ⟨hown ▸ hended.attached, hfinds.of_stable hended.stable, hfits, nofun, fun m hm => ?_⟩
  cases hm
  exact hrow

/-- A call that is not over may have its turn. A read leaves the row as it is. -/
theorem Single.resume (h : p.Single target t db c i s) (hregular : db.Regular clock)
    (hrow : s = p.read → ∃ v, p.rowIn t = some v) {op : Operation}
    (hop : db.tasks[i]? = some (.operation op)) (hopen : ¬ op.IsOver) :
    ∃ t', (s = p.read → t' = t) ∧ p.Single target t' (db.resume i) c i s := by
  cases h with
  | serves serves own opened finds fits =>
    exact ⟨t, fun _ => rfl, serves.single hregular own opened finds fits hrow⟩
  | fails runs call working holds empty own opened ending =>
    exact ⟨t, fun _ => rfl, single_of_fails runs call working holds empty own opened ending⟩
  | applies applies own writes log finds fits =>
    subst writes
    obtain ⟨t', hsingle⟩ := single_of_applies applies own log finds fits
    exact ⟨t', nofun, hsingle⟩
  | applied runs attached own writes row finds fits =>
    subst writes
    exact ⟨t, nofun, single_of_applied runs attached own row finds fits⟩
  | ends told settles =>
    obtain ⟨op', hop', -, hover⟩ := told
    cases hop.symm.trans hop'
    exact absurd ⟨_, hover⟩ hopen

/-- A task that leaves the line changes nothing for the call. -/
theorem Single.pop (h : p.Single target t db c i s) (j : TaskId) :
    p.Single target t (db.pop j) c i s := by
  cases h with
  | serves serves own opened finds fits =>
    exact .serves ⟨serves.runs, serves.call, serves.onRow, serves.holds.of_eq rfl rfl, serves.empty,
      serves.stands⟩ own opened ⟨finds.looked, finds.table⟩ fits
  | fails runs call working holds empty own opened ending =>
    exact .fails runs call working (holds.of_eq rfl rfl) empty own opened ending
  | applies applies own writes log finds fits =>
    exact .applies ⟨applies.runs, applies.attached, applies.found, applies.phase⟩ own writes log
      ⟨finds.looked, finds.table⟩ fits
  | applied runs attached own writes row finds fits =>
    exact .applied runs attached own writes row ⟨finds.looked, finds.table⟩ fits
  | ends told settles =>
    refine .ends told fun value hvalue => ?_
    have hsettles := settles value hvalue
    exact ⟨hsettles.detached, ⟨hsettles.finds.looked, hsettles.finds.table⟩, hsettles.fits,
      hsettles.read, hsettles.write⟩

/-! ## The whole call -/

/-- Every turn leaves the call the only one under way. -/
theorem Lone.resume (h : Lone clock c i first db) (j : TaskId) :
    Lone clock c i first (db.resume j) := by
  have halike := h.regular.alike_resume j
  refine ⟨h.regular.resume j, fun d hne => ?_, halike.connections.trans h.connections,
    fun k op hop hopen => ?_⟩
  · have hperform : Beside d db (db.perform (.resume j)) := by
      refine h.regular.beside rfl ?_
      rintro ⟨op, hop, hd, hopen⟩
      exact hne ((h.alone j op hop hopen).2.symm.trans hd)
    exact hperform.attached.trans (h.others d hne)
  · have hcomes : db.Comes (.resume j) k op :=
      h.regular.tidy.comes h.regular.lifecycle h.regular.twoPhase hop
    cases hcomes with
    | same before => exact h.alone k op before hopen
    | moved turn before unfinished now =>
      obtain ⟨hk, hc⟩ := h.alone k _ before unfinished
      exact ⟨hk, now ▸ hc⟩
    | made submitted => cases submitted

/-- What holds before the line is run and is kept by every turn holds after it. -/
theorem settle_keeps {P : Database Table → Prop} (hturn : ∀ db j, P db → P (db.resume j))
    (h : P db) : P db.settle := by
  have run : Run (fun _ action => ∃ j, action = .resume j) db db.settle :=
    Run.start.settle fun _ j => ⟨j, rfl⟩
  generalize db.settle = last at run ⊢
  induction run with
  | start => exact h
  | perform run permitted ih =>
    obtain ⟨j, rfl⟩ := permitted
    exact hturn _ j ih

/-- The line may be run while a call is the only one under way. -/
theorem Single.settle (h : p.Single target t db c i s) (hlone : Lone clock c i first db)
    (hrow : s = p.read → ∃ v, p.rowIn t = some v) :
    Lone clock c i first db.settle ∧
      ∃ t', (s = p.read → t' = t) ∧ p.Single target t' db.settle c i s := by
  refine settle_keeps (P := fun db => Lone clock c i first db ∧
    ∃ t', (s = p.read → t' = t) ∧ p.Single target t' db c i s) ?_ ⟨hlone, t, fun _ => rfl, h⟩
  rintro db j ⟨hlone, t', hsame, hsingle⟩
  refine ⟨hlone.resume j, ?_⟩
  rcases hlone.regular.resume_cases j with heq | ⟨op, me, hruns, hopen, -⟩
  · rw [heq]
    exact ⟨t', hsame, hsingle.pop j⟩
  · obtain ⟨rfl, -⟩ := hlone.alone j op hruns.1 hopen
    have hrow' : s = p.read → ∃ v, p.rowIn t' = some v := fun hread => hsame hread ▸ hrow hread
    obtain ⟨t'', hsame', hsingle'⟩ := hsingle.resume hlone.regular hrow' hruns.1 hopen
    exact ⟨t'', fun hread => (hsame' hread).trans (hsame hread), hsingle'⟩

/-- A call on a connection without a transaction is the only one under way when all others are over.
-/
theorem lone_submit (h : db.Regular clock) (c : ConnectionId) (s : Statement)
    (hover : ∀ (i : TaskId) (op : Operation), db.tasks[i]? = some (.operation op) → op.IsOver) :
    Lone clock c db.tasks.size db (db.submit c (.statement s)) := by
  have hperform : (db.perform (.submit c (.statement s))).Regular clock := h.perform rfl
  refine ⟨hperform, fun d hne => ?_, (h.alike_submit c _).connections, fun j op hop hopen => ?_⟩
  · have hbeside : Beside d db (db.perform (.submit c (.statement s))) := h.beside rfl hne
    exact hbeside.attached
  · have hcomes : db.Comes (.submit c (.statement s)) j op :=
      h.tidy.comes h.lifecycle h.twoPhase hop
    cases hcomes with
    | same before => exact absurd (hover j op before) hopen
    | moved turn => cases turn
    | made submitted last opened =>
      injection submitted with hc hcall
      exact ⟨last, hc.symm⟩

/-- Where no transaction is made for a statement, it is over at once, with an error. -/
theorem single_of_explicit (hdetached : db.attached.get? c = none)
    (hexplicit : db.config.implicitTransactions = false) (p : CounterPlan) (target : Target)
    (t : MemoryTable) (s : Statement) :
    p.Single target t (db.submit c (.statement s)) c db.tasks.size s := by
  have hattach : db.attach c = (.error .notInTransaction, db) := by
    unfold Database.attach
    rw [hdetached]
    dsimp only
    rw [if_neg (by rw [hexplicit]; exact Bool.false_ne_true)]
  rcases db.submit_statement_cases c s with ⟨e, heq⟩ | ⟨u, opened, txn, hattached, -⟩
  · rw [heq, hattach]
    exact .ends (told_push ..) nofun
  · rw [hattach] at hattached
    cases hattached

/-- A statement on the row may be issued by itself. -/
theorem single_submit (h : db.Regular clock) (hdetached : db.attached.get? c = none)
    (honRow : p.OnRow s) (hfinds : p.Finds target t db) (hfits : p.Fits t) :
    p.Single target t (db.submit c (.statement s)) c db.tasks.size s := by
  cases himplicit : db.config.implicitTransactions with
  | false => exact single_of_explicit hdetached himplicit p target t s
  | true =>
    obtain ⟨u, ts, hruns, hholds, hstable⟩ := h.tidy.submit_implicit hdetached himplicit s
    exact .serves ⟨hruns, rfl, honRow, hholds, rfl, .issued⟩ rfl rfl (hfinds.of_stable hstable) hfits

/-- Whether a table that a statement names is missing, or does not take its row. -/
def Refuses (db : Database Table) (s : Statement) : Prop :=
  (∃ e, db.registry.lookUp s.table = .error e) ∨ ∃ id entry table e,
    db.registry.lookUp s.table = .ok (id, entry) ∧ db.store[entry.table]? = some table ∧
      Backend.validate table s.key s.value? = .failed e

/-- Such a statement may be issued by itself, and will fail. -/
theorem single_submit_of_refuses (h : db.Regular clock) (hdetached : db.attached.get? c = none)
    (hrefuses : Refuses db s) (p : CounterPlan) (target : Target) (t : MemoryTable) :
    p.Single target t (db.submit c (.statement s)) c db.tasks.size s := by
  cases himplicit : db.config.implicitTransactions with
  | false => exact single_of_explicit hdetached himplicit p target t s
  | true =>
    obtain ⟨u, ts, hruns, hholds, hstable⟩ := h.tidy.submit_implicit hdetached himplicit s
    -- The first turn fails, at the look up or at the check.
    have hending : ∃ e, (db.submit c (.statement s)).bodyEnding?
        ⟨c, .statement s, some ⟨u, ts⟩, true, .issued⟩ ⟨u, ts⟩ = some (.failed e) := by
      unfold bodyEnding?
      dsimp only
      rw [hstable.registry, hstable.store]
      rcases hrefuses with ⟨e, hlook⟩ | ⟨id, entry, table, e, hlook, htable, hvalid⟩
      · rw [hlook]
        exact ⟨_, rfl⟩
      · rw [hlook]
        dsimp only
        rw [htable]
        dsimp only
        rw [hvalid]
        exact ⟨_, rfl⟩
    obtain ⟨e, hfails⟩ := hending
    exact .fails hruns rfl rfl hholds rfl rfl rfl hfails

/-- A table that does not take zero in the row refuses it. -/
theorem refuses_of_not_fits (hfinds : p.Finds target t db) (hfits : ¬ p.Fits t) :
    Refuses db (p.write 0) := by
  obtain ⟨entry, hlook, href⟩ := hfinds.looked
  have htable : db.store[entry.table]? = some (.memory t) := href ▸ hfinds.table
  have hcheck : ∃ e, t.check (.integer p.key) (some (.integer 0)) = .error e := by
    unfold MemoryTable.check
    by_cases hkey : t.keyKind.accepts (.integer p.key)
    · have hvalue : ¬ t.valueKind.accepts (.integer 0) = true := fun hvalue => hfits ⟨hkey, hvalue⟩
      rw [if_pos hkey]
      dsimp only
      rw [if_neg hvalue]
      exact ⟨_, rfl⟩
    · rw [if_neg hkey]
      exact ⟨_, rfl⟩
  obtain ⟨e, herror⟩ := hcheck
  refine .inr ⟨target.id, entry, .memory t, e, hlook, htable, ?_⟩
  show Outcome.ofExcept (t.check (.integer p.key) (some (.integer 0))) = _
  rw [herror]
  rfl

/-- What a call by itself that yields a value comes to. -/
structure Called (p : CounterPlan) (target : Target) (t : MemoryTable) (clock : Clock)
    (c : ConnectionId) (s : Statement) (value : Option Value) (db db' : Database Table) : Prop where
  /-- The database is regular. -/
  regular : db'.Regular clock
  /-- Other connections are attached as they were. -/
  others : ∀ d, c ≠ d → db'.attached.get? d = db.attached.get? d
  /-- No connection is opened. -/
  connections : db'.connections = db.connections
  /-- All calls are over. -/
  finished : ∀ (i : TaskId) (op : Operation), db'.tasks[i]? = some (.operation op) → op.IsOver
  /-- The row is set or read. -/
  settles : p.Settles target t db' c s value

/-- A statement on the row that is called by itself and yields a value has set the row or read it.
-/
theorem called_of_single {value : Option Value} (h : db.Regular clock)
    (hsingle : p.Single target t (db.submit c (.statement s)) c db.tasks.size s)
    (hrow : s = p.read → ∃ v, p.rowIn t = some v)
    (hover : ∀ (i : TaskId) (op : Operation), db.tasks[i]? = some (.operation op) → op.IsOver)
    (hanswer : (db.call c (.statement s)).1 = some (.ok value)) :
    ∃ t', (s = p.read → t' = t) ∧
      p.Called target t' clock c s value db (db.call c (.statement s)).2 := by
  obtain ⟨hlone, t', hsame, hsettled⟩ := hsingle.settle (lone_submit h c s hover) hrow
  have hresult : (db.submit c (.statement s)).settle.result? db.tasks.size = some (.ok value) :=
    hanswer
  have hend : (db.call c (.statement s)).2 = (db.submit c (.statement s)).settle := rfl
  rw [hend]
  -- The call has an answer, and so its operation is over.
  have hopen : ∀ {op : Operation}, (db.submit c (.statement s)).settle.tasks[db.tasks.size]? =
      some (.operation op) → op.IsOver := by
    intro op hop
    by_contra hopen
    cases (result?_eq_none hop hopen).symm.trans hresult
  refine ⟨t', hsame, hlone.regular, hlone.others, hlone.connections, fun i op hop => ?_, ?_⟩
  · by_contra hunfinished
    obtain ⟨rfl, -⟩ := hlone.alone i op hop hunfinished
    exact hunfinished (hopen hop)
  · -- Of the places where a call may rest, only the last is one of an operation that is over.
    cases hsettled with
    | serves serves own opened finds fits =>
      exact absurd (hopen serves.runs.1) (Operation.not_over_of_working serves.stands.working)
    | fails runs call working holds empty own opened ending =>
      exact absurd (hopen runs.1) (Operation.not_over_of_working working)
    | applies applies own writes log finds fits =>
      exact absurd (hopen applies.runs.1) (Operation.not_over_of_closing rfl)
    | applied runs attached own writes row finds fits =>
      exact absurd (hopen runs.1) (Operation.not_over_of_closing rfl)
    | ends told settles =>
      cases told.result?.symm.trans hresult
      exact settles value rfl

end TxStore.CounterPlan
