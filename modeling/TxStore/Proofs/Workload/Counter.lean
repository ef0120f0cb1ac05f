import TxStore.Proofs.Workload.Count
import TxStore.Proofs.Workload.Single

/-!
# The workload counts exactly

Before the workers begin, the row is set to zero on a connection of its own (`prepare_ok`), and
after all have ended it is read there (`conclude_ok`). In between the row holds the sum of what the
workers have made (`Crew.Sound`), and a workload in which a worker has given up has no report
(`Crew.Doomed.total`). So a report tells the number of increments that the plan has, twice: as the
sum of what the workers say, and as the number that is in the row (`CounterPlan.counts_exactly`).
-/

namespace TxStore

open Database CounterPlan

/-- A table that was registered is found by its name. -/
theorem Registry.lookUp_of_create {r r' : Registry TableRef} {name : String} {ref : TableRef}
    {id : TableId} (h : r.create name ref = .ok (id, r')) :
    r'.lookUp name = .ok (id, ⟨name, ref⟩) := by
  have hget := Registry.get?_of_create h id
  unfold Registry.create at h
  split at h
  · cases h
  · split at h
    · cases h
    · cases h
      rw [if_pos rfl] at hget
      unfold Registry.lookUp
      have hid : Registry.tableId { r with tables := r.tables.insert (r.tableId name) ⟨name, ref⟩ }
          name = r.tableId name := rfl
      rw [hid, hget]

/-- Nobody else uses a database: every call on it is over, and a connection that is not open yet has
no transaction. -/
structure Database.Vacant (db : Database Table) : Prop where
  /-- Every call is over. -/
  finished : ∀ (i : TaskId) (op : Operation), db.tasks[i]? = some (.operation op) → op.IsOver
  /-- A connection that is not open yet has no transaction. -/
  detached : ∀ c, db.connections ≤ c → db.attached.get? c = none

/-- Nobody uses a new database. -/
theorem Database.vacant_new (config : Config) (clock : Clock) (hasher : Hasher) :
    (Database.new config clock hasher).Vacant where
  finished _ _ hop := nomatch hop
  detached _ _ := rfl

namespace CounterPlan

variable {p : CounterPlan} {target : Target} {t : MemoryTable} {clock : Clock}
  {db db' last : Database Table} {setup : ConnectionId} {report : CounterReport} {n : Nat} {crew : Crew}

/-- The reports that a plan may come to: the row is set to zero, the workers and the tasks of the
database take turns in any order until all workers have ended, and then their total is taken and the
row is read. -/
inductive Reports (p : CounterPlan) (db : Database Table) : CounterReport → Prop where
  /-- There is a report. -/
  | intro {setup : ConnectionId} {db' : Database Table} {crew : Crew} {n : Nat}
      {report : CounterReport} (prepared : p.prepare db = .ok (setup, db'))
      (works : Crew.Works (Crew.launch p db') crew)
      (ended : ∀ (m : Nat) (w : Worker), crew.workers[m]? = some w → w.stand = .ended)
      (total : Crew.total crew.ends = .ok n) (concluded : p.conclude setup n crew.db = .ok report) :
      Reports p db report

/-! ## Before the workers begin -/

/-- A call that has yielded a value has it as its result. -/
theorem yielded_ok {answer : Option Result} {value : Option Value}
    (h : yielded answer = .ok value) : answer = some (.ok value) := by
  cases answer with
  | none => cases h
  | some r => exact congrArg some h

/-- The table of the plan was there, or it has been made. -/
theorem makeTable_ok (h : p.makeTable db = .ok db') :
    db' = db ∧ p.table ∈ db.registry.names ∨
      ∃ t id, MemoryTable.new p.table .integer .integer = .ok t ∧
        db.createTable (.memory t) = (.ok id, db') := by
  unfold makeTable at h
  split at h
  · rename_i hname
    exact .inl ⟨(Except.ok.inj h).symm, hname⟩
  · split at h
    · cases h
    · rename_i t hnew
      split at h
      · cases h
      · rename_i id made hcreate
        cases h
        exact .inr ⟨t, id, hnew, hcreate⟩

/-- A table that was made for the plan is found, and takes numbers. -/
theorem finds_of_createTable {id : TableId} (hnew : MemoryTable.new p.table .integer .integer = .ok t)
    (hcreate : db.createTable (.memory t) = (.ok id, db')) :
    p.Finds ⟨id, db.store.size⟩ t db' ∧ p.Fits t := by
  have htable : t = ⟨p.table, .integer, .integer, .empty⟩ := by
    unfold MemoryTable.new at hnew
    split at hnew
    · cases hnew
    · exact (Except.ok.inj hnew).symm
  subst htable
  unfold Database.createTable at hcreate
  dsimp only at hcreate
  split at hcreate
  · cases hcreate
  · rename_i made r hmade
    cases hcreate
    have hlook : r.lookUp p.table = .ok (id, ⟨p.table, db.store.size⟩) :=
      Registry.lookUp_of_create hmade
    exact ⟨⟨⟨_, hlook, rfl⟩, Array.getElem?_push_size⟩, rfl, rfl⟩

/-- Making the table touches neither connections nor calls. -/
theorem makeTable_vacant (h : p.makeTable db = .ok db') (hvacant : db.Vacant) :
    db'.Vacant ∧ db'.connections = db.connections ∧ db'.attached = db.attached := by
  rcases makeTable_ok h with ⟨rfl, -⟩ | ⟨t, id, -, hcreate⟩
  · exact ⟨hvacant, rfl, rfl⟩
  · have hsame : db'.tasks = db.tasks ∧ db'.connections = db.connections ∧
        db'.attached = db.attached := by
      unfold Database.createTable at hcreate
      dsimp only at hcreate
      split at hcreate
      · cases hcreate
      · cases hcreate
        exact ⟨rfl, rfl, rfl⟩
    obtain ⟨htasks, hconnections, hattached⟩ := hsame
    refine ⟨⟨?_, ?_⟩, hconnections, hattached⟩
    · rw [htasks]
      exact hvacant.finished
    · rw [hconnections, hattached]
      exact hvacant.detached

/-- Making the table keeps the database regular. -/
theorem makeTable_regular (h : p.makeTable db = .ok db') (hregular : db.Regular clock) :
    db'.Regular clock := by
  rcases makeTable_ok h with ⟨rfl, -⟩ | ⟨t, id, -, hcreate⟩
  · exact hregular
  · have hperform : (db.perform (.createTable (.memory t))).Regular clock := hregular.perform rfl
    have heq : db.perform (.createTable (.memory t)) = db' := congrArg Prod.snd hcreate
    exact heq ▸ hperform

/-- Whether the table of the plan is missing or kept in memory. -/
def Suits (p : CounterPlan) (db : Database Table) : Prop :=
  p.table ∈ db.registry.names → ∀ id entry, db.registry.lookUp p.table = .ok (id, entry) →
    ∃ t, db.store[entry.table]? = some (.memory t)

/-- Zero may be written to the row by itself. -/
theorem single_of_makeTable {c : ConnectionId} (h : p.makeTable db = .ok db') (hsuits : p.Suits db)
    (hregular : db'.Regular clock) (hdetached : db'.attached.get? c = none) :
    ∃ target t, p.Single target t (db'.submit c (.statement (p.write 0))) c db'.tasks.size
      (p.write 0) := by
  have honRow : p.OnRow (p.write 0) := .inr ⟨0, rfl⟩
  rcases makeTable_ok h with ⟨rfl, hname⟩ | ⟨t, id, hnew, hcreate⟩
  · cases hlook : db'.registry.lookUp p.table with
    | error e =>
      have hrefuses : Refuses db' (p.write 0) := .inl ⟨e, hlook⟩
      exact ⟨⟨⟨0⟩, 0⟩, ⟨p.table, .integer, .integer, .empty⟩,
        single_submit_of_refuses hregular hdetached hrefuses ..⟩
    | ok found =>
      obtain ⟨t, htable⟩ := hsuits hname found.1 found.2 hlook
      have hfinds : p.Finds ⟨found.1, found.2.table⟩ t db' := ⟨⟨found.2, hlook, rfl⟩, htable⟩
      refine ⟨⟨found.1, found.2.table⟩, t, ?_⟩
      by_cases hfits : p.Fits t
      · exact single_submit hregular hdetached honRow hfinds hfits
      · exact single_submit_of_refuses hregular hdetached (refuses_of_not_fits hfinds hfits) ..
  · obtain ⟨hfinds, hfits⟩ := finds_of_createTable hnew hcreate
    exact ⟨_, t, single_submit hregular hdetached honRow hfinds hfits⟩

/-- What holds when the row has been set to zero, on connection `setup`. -/
structure Prepared (p : CounterPlan) (target : Target) (t : MemoryTable) (clock : Clock)
    (setup : ConnectionId) (db : Database Table) : Prop where
  /-- The database is regular. -/
  regular : db.Regular clock
  /-- Nobody uses it. -/
  vacant : db.Vacant
  /-- The connection is open. -/
  opened : setup < db.connections
  /-- It has no transaction. -/
  detached : db.attached.get? setup = none
  /-- The table is the one of the plan. -/
  finds : p.Finds target t db
  /-- It takes numbers. -/
  fits : p.Fits t
  /-- The row holds zero. -/
  row : p.rowIn t = some (.integer 0)

/-- If the row can be set to zero, it is. -/
theorem prepare_ok (h : p.prepare db = .ok (setup, db')) (hregular : db.Regular clock)
    (hvacant : db.Vacant) (hsuits : p.Suits db) :
    ∃ target t, p.Prepared target t clock setup db' := by
  unfold prepare at h
  simp only [bind, Except.bind, pure, Except.pure] at h
  split at h
  · cases h
  rename_i made hmade
  split at h
  · cases h
  rename_i value hvalue
  cases h
  -- The steps in their order: a connection is opened, the table is made or found, zero is written.
  have hopened : db.connect.2.Vacant :=
    ⟨hvacant.finished, fun c hc => hvacant.detached c (Nat.le_of_succ_le hc)⟩
  have hconnect : (db.perform .connect).Regular clock := hregular.perform rfl
  have hmadeRegular : made.Regular clock := makeTable_regular hmade hconnect
  obtain ⟨hmadeVacant, hconnections, hattached⟩ := makeTable_vacant hmade hopened
  have hdetached : made.attached.get? db.connections = none := by
    rw [hattached]
    exact hvacant.detached _ le_rfl
  obtain ⟨target, t, hsingle⟩ := single_of_makeTable hmade hsuits hmadeRegular hdetached
  obtain ⟨t', -, hcalled⟩ := called_of_single hmadeRegular hsingle nofun hmadeVacant.finished
    (yielded_ok hvalue)
  have hsize : (made.call db.connections (.statement (p.write 0))).2.connections =
      db.connections + 1 := hcalled.connections.trans hconnections
  -- The write has settled on its own connection; the others are as they were.
  have hrest : ∀ c, db.connections + 1 ≤ c →
      (made.call db.connections (.statement (p.write 0))).2.attached.get? c = none := by
    intro c hc
    have hne : db.connections ≠ c := by omega
    exact (hcalled.others c hne).trans (hmadeVacant.detached c (hconnections ▸ hc))
  exact ⟨target, t', {
    regular := hcalled.regular
    vacant := ⟨hcalled.finished, fun c hc => hrest c (le_of_eq_of_le hsize.symm hc)⟩
    opened := (Nat.lt_succ_self _).trans_eq hsize.symm
    detached := hcalled.settles.detached
    finds := hcalled.settles.finds
    fits := hcalled.settles.fits
    row := hcalled.settles.write 0 rfl }⟩

end CounterPlan

/-! ## The workers -/

/-- A database on which more connections are opened. -/
def Database.connectAll (db : Database Table) (k : Nat) : Database Table :=
  { db with connections := db.connections + k }

namespace Crew

variable {p : CounterPlan} {target : Target} {t : MemoryTable} {clock : Clock}
  {db : Database Table} {setup : ConnectionId} {crew : Crew} {done : Nat → Nat} {n : Nat} {w : Worker}

/-- Opening connections keeps a database regular. -/
theorem regular_connectAll (h : db.Regular clock) (k : Nat) : (db.connectAll k).Regular clock := by
  induction k with
  | zero => exact h
  | succ k ih =>
    have hconnect : ((db.connectAll k).perform .connect).Regular clock := ih.perform rfl
    exact hconnect

/-- Every worker begins with a connection of its own. -/
theorem launch_eq (p : CounterPlan) (db : Database Table) :
    launch p db = ⟨p, db.connectAll p.workers,
      ((List.range p.workers).map fun m => ⟨db.connections + m, p.iterations, 0, .idle⟩).toArray,
      [], (List.range p.workers).map .worker⟩ := by
  -- The induction is on how many workers have begun, while the plan stays as it is.
  have hstarts : ∀ k, (List.range k).foldl (fun (c : Crew) m => { c with
        db := c.db.connect.2
        workers := c.workers.push ⟨c.db.connections, p.iterations, 0, .idle⟩
        line := c.line ++ [.worker m] }) ⟨p, db, #[], [], []⟩ =
      ⟨p, db.connectAll k,
        ((List.range k).map fun m => ⟨db.connections + m, p.iterations, 0, .idle⟩).toArray, [],
        (List.range k).map .worker⟩ := by
    intro k
    induction k with
    | zero => rfl
    | succ k ih =>
      rw [List.range_succ, List.foldl_append, ih, List.map_append, List.map_append]
      simp only [List.foldl_cons, List.foldl_nil, List.map_cons, List.map_nil, ← List.push_toArray]
      rfl
  exact hstarts p.workers

/-- Workers that are there at the beginning have not begun. -/
theorem eq_of_launch (hw : (launch p db).workers[n]? = some w) :
    n < p.workers ∧ w = ⟨db.connections + n, p.iterations, 0, .idle⟩ := by
  rw [launch_eq, List.getElem?_toArray, List.getElem?_map, Option.map_eq_some_iff] at hw
  obtain ⟨m, hm, rfl⟩ := hw
  obtain ⟨hlt, rfl⟩ := List.getElem?_eq_some_iff.mp hm
  rw [List.getElem_range]
  rw [List.length_range] at hlt
  exact ⟨hlt, rfl⟩

/-- At the beginning nobody has ended. -/
theorem endings_launch (p : CounterPlan) (db : Database Table) (size : Nat) :
    (launch p db).endings size = 0 := by
  refine Finset.sum_eq_zero fun n _ => ?_
  cases hw : (launch p db).workers[n]? with
  | none => rfl
  | some w =>
    obtain ⟨-, rfl⟩ := eq_of_launch hw
    rfl

/-- When the row has been set to zero the workers may begin. -/
theorem sound_launch (h : p.Prepared target t clock setup db) :
    (launch p db).Sound p target clock setup (fun _ => 0) t := by
  have hdb : (launch p db).db = db.connectAll p.workers := by rw [launch_eq]
  have hsame : Stable db (launch p db).db := by
    rw [hdb]
    exact ⟨rfl, rfl⟩
  -- The connections of the workers were not open before, and so have no transaction.
  have hidle : ∀ (n : Nat) (w : Worker), (launch p db).workers[n]? = some w →
      p.Follows target t (launch p db).db w 0 := by
    intro n w hw
    obtain ⟨-, rfl⟩ := eq_of_launch hw
    refine .idle rfl (.inl ?_)
    rw [hdb]
    exact h.vacant.detached _ (Nat.le_add_right _ n)
  -- Beginning changes nothing but the number of open connections.
  constructor
  case plan => rw [launch_eq]
  case regular => exact hdb ▸ regular_connectAll h.regular _
  case size => rw [launch_eq, List.size_toArray, List.length_map, List.length_range]
  case apart =>
    intro n m w v hw hv heq
    obtain ⟨-, rfl⟩ := eq_of_launch hw
    obtain ⟨-, rfl⟩ := eq_of_launch hv
    exact Nat.add_left_cancel heq
  case rest =>
    refine ⟨hdb ▸ h.detached, fun n w hw => ?_⟩
    obtain ⟨-, rfl⟩ := eq_of_launch hw
    exact (Nat.lt_of_lt_of_le h.opened (Nat.le_add_right _ n)).ne'
  case awaited =>
    intro i op hop hopen
    rw [hdb] at hop
    exact absurd (h.vacant.finished i op hop) hopen
  case ends =>
    rw [endings_launch, launch_eq]
    rfl
  case finds => exact h.finds.of_stable hsame
  case fits => exact h.fits
  case row =>
    rw [Finset.sum_const_zero]
    exact h.row
  case workers =>
    intro n w hw
    obtain ⟨-, rfl⟩ := eq_of_launch hw
    exact ⟨trivial, 0, hidle n _ hw, Nat.zero_add _⟩

/-- When all workers have ended and none has given up, all have made their increments. -/
theorem Sound.done_of_ended (h : Sound p target clock setup crew done t)
    (hended : ∀ (n : Nat) (w : Worker), crew.workers[n]? = some w → w.stand = .ended) :
    ∀ n < p.workers, done n = p.iterations := by
  intro n hn
  obtain ⟨w, hw⟩ : ∃ w, crew.workers[n]? = some w :=
    ⟨_, Array.getElem?_eq_getElem (h.size ▸ hn)⟩
  obtain ⟨hdue, k, hfollows, hcount⟩ := h.workers n w hw
  have hstand := hended n w hw
  have hleft : w.left = 0 := by
    unfold Worker.Due at hdue
    rw [hstand] at hdue
    exact hdue
  have hk : k = 0 := by
    cases hfollows with
    | ended => rfl
    | _ => simp_all
  omega

/-- Then the total is known, every call is over, and so is the row. -/
theorem Sound.total_of_ended (h : Sound p target clock setup crew done t)
    (hended : ∀ (n : Nat) (w : Worker), crew.workers[n]? = some w → w.stand = .ended) :
    Crew.total crew.ends = .ok p.expected ∧
      p.rowIn t = some (.integer (.ofNat p.expected)) ∧
      ∀ (i : TaskId) (op : Operation), crew.db.tasks[i]? = some (.operation op) → op.IsOver := by
  have hdone : ∑ n ∈ Finset.range p.workers, done n = p.expected := by
    rw [Finset.sum_const_nat fun n hn => h.done_of_ended hended n (Finset.mem_range.mp hn),
      Finset.card_range]
    rfl
  have hone : ∀ n ∈ Finset.range p.workers, (crew.workers[n]?).elim 0 Worker.endings = 1 := by
    intro n hn
    have hw : crew.workers[n]? = some _ :=
      Array.getElem?_eq_getElem (h.size ▸ Finset.mem_range.mp hn)
    have hstand := hended n _ hw
    rw [hw]
    show Worker.endings _ = 1
    unfold Worker.endings
    rw [hstand]
  have hendings : crew.endings p.workers = p.workers := by
    unfold endings
    rw [Finset.sum_const_nat hone, Finset.card_range, Nat.mul_one]
  refine ⟨?_, ?_, fun i op hop => ?_⟩
  · rw [h.ends, hendings, total_replicate]
    rfl
  · rw [h.row, hdone]
  · by_contra hopen
    obtain ⟨n, w, hw, -, hawaits⟩ := h.awaited i op hop hopen
    unfold Worker.awaits at hawaits
    rw [hended n w hw] at hawaits
    cases hawaits

end Crew

/-! ## After all workers have ended -/

namespace CounterPlan

variable {p : CounterPlan} {target : Target} {t : MemoryTable} {clock : Clock}
  {db : Database Table} {setup : ConnectionId} {report : CounterReport} {n : Nat} {v : Value}

/-- The report tells the total, and what is in the row at the end. -/
theorem conclude_ok (h : p.conclude setup n db = .ok report) (hregular : db.Regular clock)
    (hdetached : db.attached.get? setup = none) (hfinds : p.Finds target t db) (hfits : p.Fits t)
    (hrow : p.rowIn t = some v)
    (hover : ∀ (i : TaskId) (op : Operation), db.tasks[i]? = some (.operation op) → op.IsOver) :
    report.committed = n ∧ report.final = v.integer?.getD 0 := by
  unfold conclude at h
  simp only [bind, Except.bind, pure, Except.pure] at h
  split at h
  · cases h
  rename_i read hread
  split at h
  · cases h
  cases h
  have hsingle : p.Single target t (db.submit setup (.statement p.read)) setup db.tasks.size p.read :=
    single_submit hregular hdetached (.inl rfl) hfinds hfits
  obtain ⟨t', hsame, hcalled⟩ := called_of_single hregular hsingle (fun _ => ⟨v, hrow⟩) hover
    (yielded_ok hread)
  have hvalue : read = some v := by
    rw [hcalled.settles.read rfl, hsame rfl, hrow]
  rw [hvalue]
  exact ⟨rfl, rfl⟩

/-- Whether all workers have ended when the workload has been run in the order of its line. -/
def finishes (p : CounterPlan) (db : Database Table) : Bool :=
  match p.prepare db with
  | .error _ => false
  | .ok (_, made) =>
    (Crew.work p.turns (Crew.launch p made).queueUp).workers.all fun w => w.endings = 1

/-- What is reported then is one of the reports that the plan may come to. -/
theorem reports_of_run (h : p.run db = .ok report) (hfinishes : p.finishes db = true) :
    p.Reports db report := by
  unfold finishes at hfinishes
  unfold CounterPlan.run at h
  simp only [bind, Except.bind] at h
  split at h
  · cases h
  rename_i prepared hprepared
  rw [hprepared] at hfinishes
  dsimp only at hfinishes h
  split at h
  · cases h
  rename_i n htotal
  have hworks : Crew.Works (Crew.launch p prepared.2)
      (Crew.work p.turns (Crew.launch p prepared.2).queueUp) :=
    (Crew.Works.start.line _).work p.turns
  refine .intro hprepared hworks (fun m w hw => ?_) htotal h
  obtain ⟨hm, rfl⟩ := Array.getElem?_eq_some_iff.mp hw
  have hone := of_decide_eq_true (Array.all_eq_true.mp hfinishes m hm)
  unfold Worker.endings at hone
  split at hone
  · assumption
  all_goals cases hone

/-- A counting workload on a database that nobody else uses, whatever has happened to it before: if
there is a report, each of its numbers is the number of increments that the plan has. -/
theorem counts_exactly {config : Config} {hasher : Hasher}
    (run : Run Coordinated (Database.new config clock hasher) db) (hvacant : db.Vacant)
    (hsuits : p.Suits db) (hsmall : p.expected < 2 ^ 63) (hreports : p.Reports db report) :
    report.committed = p.expected ∧ report.final.toInt = p.expected := by
  obtain ⟨hprepared, hworks, hended, htotal, hconcluded⟩ := hreports
  obtain ⟨target, t, hprep⟩ := prepare_ok hprepared (run.regular (regular_new ..)) hvacant hsuits
  rcases (Crew.sound_launch hprep).works hworks with ⟨done, t', hsound⟩ | hdoomed
  · obtain ⟨hsum, hrow, hover⟩ := hsound.total_of_ended hended
    cases htotal.symm.trans hsum
    obtain ⟨hcommitted, hfinal⟩ := conclude_ok hconcluded hsound.regular hsound.rest.1 hsound.finds
      hsound.fits hrow hover
    refine ⟨hcommitted, ?_⟩
    rw [hfinal]
    exact Int64.toInt_ofNat_of_lt hsmall
  · obtain ⟨e, herror⟩ := hdoomed.total hended
    cases htotal.symm.trans herror

/-- For example two workers that count on a new database, each in its turn. -/
theorem counts_exactly_two_workers :
    let p : CounterPlan := ⟨2, 1, "counter", 1, 3⟩
    let db : Database Table := .new .standard default ⟨"Constant", fun _ => ⟨7⟩⟩
    db.Vacant ∧ p.Suits db ∧ p.expected < 2 ^ 63 ∧ p.Reports db ⟨2, 2⟩ ∧ (2 : Nat) = p.expected ∧
      (2 : Int64).toInt = p.expected := by
  intro p db
  have hvacant : db.Vacant := vacant_new ..
  have hname : p.table ∉ db.registry.names := by decide +kernel
  have hsuits : p.Suits db := fun hmem => absurd hmem hname
  have hsmall : p.expected < 2 ^ 63 := by decide
  have hrun : p.run db = .ok ⟨2, 2⟩ := by
    have hreport : (p.run db).toOption = some ⟨2, 2⟩ := by decide +kernel
    cases h : p.run db with
    | error e => rw [h] at hreport; cases hreport
    | ok report => rw [h] at hreport; cases hreport; rfl
  have hreports : p.Reports db ⟨2, 2⟩ := reports_of_run hrun (by decide +kernel)
  exact ⟨hvacant, hsuits, hsmall, hreports, counts_exactly .start hvacant hsuits hsmall hreports⟩

end CounterPlan

end TxStore
