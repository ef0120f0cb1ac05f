import TxStore.Proofs.Database.Beside
import TxStore.Proofs.Database.Calls
import TxStore.Proofs.Database.Implicit
import TxStore.Proofs.Database.Snapshots
import TxStore.Proofs.Database.Solo
import TxStore.Proofs.Lock.Seclusion

/-!
# Rows that are a connection's own

If only one connection names the rows in `K`, and it makes one call at a time (`Separate`), then
only its transactions are ever involved with these keys, and nobody waits for them. The transactions
before its last one are over and have given up their locks, so the last one gets every lock that it
asks for.

An action can bring in a new lock or a new request for the key that the operation at turn asks for,
and for no other (`Regular.secludes`), which is what makes `Secluded` hold throughout a run. From it
follows that the rows change only when the connection itself commits (`Secluded.frame`).
-/

namespace TxStore

namespace Database

/-! ## Who asks for a lock -/

section

variable {σ : Type} [Backend σ] {db db' : Database σ} {i : TaskId} {op : Operation}
  {me : Lock.Holder} {t : TransactionId} {stand stand' : Stand} {writes : List WriteEntry}
  {k : Lock.Key} {clock : Clock} {hasher : Hasher} {past : List Success} {action : Action σ}

omit [Backend σ] in
/-- A transaction belongs to one connection only. -/
theorem Belongs.eq {c d : ConnectionId} (h : db.Belongs t c) (h' : db.Belongs t d) : c = d := by
  obtain ⟨txn, hfound, hc⟩ := h
  obtain ⟨txn', hfound', hd⟩ := h'
  cases hfound.symm.trans hfound'
  exact hc.symm.trans hd

omit [Backend σ] in
/-- Whether an operation asks for a key in its next turn. -/
def Asks (db : Database σ) (op : Operation) (stand : Stand) (k : Lock.Key) : Prop :=
  stand = .issued ∧ ∃ s, op.call = .statement s ∧ s.place db.registry = k

/-- An operation that has begun does not begin again. -/
theorem Move.issued (hmove : Move i op me db stand writes db' stand') (h : stand' = .issued) :
    stand = .issued := by
  cases hmove with
  | ask call aims asked => rfl
  | look call looked =>
    unfold Lock.Acquisition.standAt at h
    split at h <;> cases h
  | buffer call working target write => exact h
  | forget ends => exact h
  | separate ends => exact h
  | _ => cases h

/-- A move involves with a key nobody but the operation's own transaction, and only if it asks for
the key. Where nobody waits for a key nobody does afterwards, if the transaction that asks for it is
the only one that is involved with it. -/
theorem Move.secludes (hmove : Move i op me db stand writes db' stand')
    (h : db.locks.Consistent) (haimed : Aimed db.registry op op.stand) :
    (∀ t, (db'.locks.lockOf k).Involves t →
      (db.locks.lockOf k).Involves t ∨ t = me.txn ∧ db.Asks op stand k) ∧
    ((db.locks.lockOf k).queue = [] →
      (db.Asks op stand k → ∀ t, (db.locks.lockOf k).Involves t → t = me.txn) →
      (db'.locks.lockOf k).queue = []) := by
  have hcontends := hmove.contends
  generalize db'.locks = m at hcontends ⊢
  cases hcontends with
  | idle => exact ⟨fun t ht => .inl ht, fun hfree _ => hfree⟩
  | @ask s target call aims begins =>
    have hplace : s.place db.registry = ⟨target.id, s.key⟩ := by
      rw [haimed.target aims call]
      rfl
    constructor
    · intro t ht
      rcases h.involves_acquire ht with hbefore | ⟨rfl, rfl⟩
      · exact .inl hbefore
      · exact .inr ⟨rfl, begins, s, call, hplace⟩
    · intro hfree hsole
      by_cases hk : (⟨target.id, s.key⟩ : Lock.Key) = k
      · subst hk
        exact Lock.Manager.queue_acquire_of_sole hfree (hsole ⟨begins, s, call, hplace⟩)
      · exact h.queue_acquire_of_ne hfree hk
  | look waits =>
    exact ⟨fun t ht => .inl (h.involves_poll ht), fun hfree _ => h.queue_poll hfree _ _⟩
  | release =>
    exact ⟨fun t ht => .inl (h.involves_release ht), fun hfree _ => h.queue_release hfree _⟩
  | forget ends => exact ⟨fun t ht => .inl ht, fun hfree _ => hfree⟩

/-- So it is with a whole turn. -/
theorem Leads.secludes (hleads : Leads i op me db stand writes db')
    (hturn : db.InTurn i op me stand) (h : db.locks.Consistent)
    (haimed : Aimed db.registry op op.stand) :
    (∀ t, (db'.locks.lockOf k).Involves t →
      (db.locks.lockOf k).Involves t ∨ t = me.txn ∧ db.Asks op stand k) ∧
    ((db.locks.lockOf k).queue = [] →
      (db.Asks op stand k → ∀ t, (db.locks.lockOf k).Involves t → t = me.txn) →
      (db'.locks.lockOf k).queue = []) := by
  obtain ⟨mid, last, hmoves, -, rfl⟩ := hleads
  rw [locks_putDown]
  -- In the middle of the turn an operation that is about to ask is one that was at the beginning.
  have hmid := hmoves.keeps (P := fun mid now => mid.locks.Consistent ∧ mid.registry = db.registry ∧
    (now = .issued → stand = .issued) ∧
    (∀ t, (mid.locks.lockOf k).Involves t →
      (db.locks.lockOf k).Involves t ∨ t = me.txn ∧ db.Asks op stand k) ∧
    ((db.locks.lockOf k).queue = [] →
      (db.Asks op stand k → ∀ t, (db.locks.lockOf k).Involves t → t = me.txn) →
      (mid.locks.lockOf k).queue = [])) ?_ hturn
    ⟨h, rfl, id, fun t ht => .inl ht, fun hfree _ => hfree⟩
  · exact hmid.2.2.2
  · rintro mid now _ mid' now' move - ⟨hconsistent, hregistry, hissued, hinvolves, hqueue⟩
    have hasks : mid.Asks op now k → db.Asks op stand k := by
      rintro ⟨hnow, s, hcall, hplace⟩
      rw [hregistry] at hplace
      exact ⟨hissued hnow, s, hcall, hplace⟩
    obtain ⟨hinvolves', hqueue'⟩ := move.secludes (k := k) hconsistent (hregistry ▸ haimed)
    refine ⟨(move.contends.consistent hconsistent).1, move.alike.registry.trans hregistry,
      fun hnow => hissued (move.issued hnow), fun t ht => ?_, fun hfree hsole => ?_⟩
    · rcases hinvolves' t ht with hbefore | ⟨rfl, hnow⟩
      · exact hinvolves t hbefore
      · exact .inr ⟨rfl, hasks hnow⟩
    · refine hqueue' (hqueue hfree hsole) fun hnow t ht => ?_
      rcases hinvolves t ht with hbefore | ⟨rfl, -⟩
      · exact hsole (hasks hnow) t hbefore
      · rfl

/-- So it is with every action: only an operation in its turn asks for a key. -/
theorem Regular.secludes (h : db.Regular clock) (hlogged : db.Logged hasher past)
    (hcoordinated : db.Coordinated action) :
    (∀ t, ((db.perform action).locks.lockOf k).Involves t → (db.locks.lockOf k).Involves t ∨
      ∃ i op me, db.Runs i op me ∧ t = me.txn ∧ db.Asks op op.stand k) ∧
    ((db.locks.lockOf k).queue = [] →
      (∀ i op me, db.Runs i op me → db.Asks op op.stand k →
        ∀ t, (db.locks.lockOf k).Involves t → t = me.txn) →
      ((db.perform action).locks.lockOf k).queue = []) := by
  rcases h.perform_cases hcoordinated with hcalm | ⟨i, op, me, first, stand, writes, htakes, hleads⟩
  · rw [hcalm.locks]
    exact ⟨fun t ht => .inl ht, fun hfree _ => hfree⟩
  · have hregistry : first.registry = db.registry := htakes.begins.tables.2
    have haimed : Aimed first.registry op op.stand := hregistry ▸ htakes.begins.aimed hlogged
    obtain ⟨hlocks, -⟩ := htakes.same
    obtain ⟨hinvolves, hqueue⟩ := hleads.secludes (k := k) htakes.inTurn
      (hlocks ▸ h.tidy.consistent) haimed
    rw [hlocks] at hinvolves hqueue
    -- A call that finishes a transaction asks for nothing in its first turn.
    have hasks : first.Asks op stand k → db.Runs i op me ∧ db.Asks op op.stand k := by
      rintro ⟨hstand, s, hcall, hplace⟩
      rw [hregistry] at hplace
      cases htakes.begins with
      | resume runs => exact ⟨runs, hstand, s, hcall, hplace⟩
      | submit new made finishes holder result => cases hstand
    refine ⟨fun t ht => ?_, fun hfree hsole => hqueue hfree fun hfirst => ?_⟩
    · rcases hinvolves t ht with hbefore | ⟨rfl, hfirst⟩
      · exact .inl hbefore
      · exact .inr ⟨i, op, me, (hasks hfirst).1, rfl, (hasks hfirst).2⟩
    · exact hsole i op me (hasks hfirst).1 (hasks hfirst).2

end

variable {db db' : Database MemoryTable} {registry : Registry TableRef} {store : Array MemoryTable}
  {tables : List MemoryTable} {entries : List WriteEntry} {plan : List PlannedWrite}
  {table : MemoryTable} {k : Lock.Key} {s : Statement}

/-! ## What commits leave alone -/

/-- A write changes no row but its own, and no kind. -/
theorem afterWrite_frame (table : MemoryTable) (e : WriteEntry) :
    (afterWrite table e).keyKind = table.keyKind ∧
      (afterWrite table e).valueKind = table.valueKind ∧
      ∀ j, e.key ≠ j → (afterWrite table e).rows.get? j = table.rows.get? j := by
  unfold afterWrite
  cases hwrite : applyWrite table e with
  | failed e' => exact ⟨rfl, rfl, fun _ _ => rfl⟩
  | broken text => exact ⟨rfl, rfl, fun _ _ => rfl⟩
  | done table' =>
    -- A write that is carried out has passed its check.
    have hcheck : table.check e.key e.write.value? = .ok () := by
      unfold applyWrite at hwrite
      cases hkind : e.write with
      | put v =>
        rw [hkind] at hwrite
        have hput : Outcome.ofExcept (table.put e.key v) = .done table' := hwrite
        unfold MemoryTable.put at hput
        cases hcheck : table.check e.key (some v) with
        | ok _ => exact hcheck
        | error cause =>
          rw [hcheck] at hput
          cases hput
      | delete =>
        rw [hkind] at hwrite
        have hdelete : Outcome.ofExcept (table.delete e.key) = .done table' := hwrite
        unfold MemoryTable.delete at hdelete
        cases hcheck : table.check e.key none with
        | ok _ => exact hcheck
        | error cause =>
          rw [hcheck] at hdelete
          cases hdelete
    have hthere : ¬ (e.write = .delete ∧ table.rows.get? e.key = none) := by
      rintro ⟨hkind, hnone⟩
      unfold applyWrite at hwrite
      rw [hkind] at hwrite hcheck
      have hdelete : Outcome.ofExcept (table.delete e.key) = .done table' := hwrite
      rw [MemoryTable.delete_eq hcheck, hnone] at hdelete
      cases hdelete
    obtain ⟨rows, hdone, hrows⟩ := applyWrite_checked hcheck hthere
    cases hwrite.symm.trans hdone
    exact ⟨rfl, rfl, fun j hne => (hrows j).trans (if_neg hne)⟩

/-- So do several writes. -/
theorem replayed_frame (table : MemoryTable) (entries : List WriteEntry) :
    (replayed table entries).keyKind = table.keyKind ∧
      (replayed table entries).valueKind = table.valueKind ∧
      ∀ j, (∀ e ∈ entries, e.key ≠ j) →
        (replayed table entries).rows.get? j = table.rows.get? j := by
  induction entries generalizing table with
  | nil => exact ⟨rfl, rfl, fun _ _ => rfl⟩
  | cons e rest ih =>
    obtain ⟨hkey, hvalue, hrows⟩ := afterWrite_frame table e
    obtain ⟨hkey', hvalue', hrows'⟩ := ih (afterWrite table e)
    refine ⟨hkey'.trans hkey, hvalue'.trans hvalue, fun j hne => ?_⟩
    have hrest : ∀ f ∈ rest, f.key ≠ j := fun f hf => hne f (List.mem_cons_of_mem _ hf)
    exact (hrows' j hrest).trans (hrows j (hne e List.mem_cons_self))

/-- Tables whose rows have changed check statements as before. -/
theorem locate_of_kinds {store' : Array MemoryTable} {f : TableRef → MemoryTable → MemoryTable}
    (hstore : ∀ ref : TableRef, store'[ref]? = store[ref]?.map (f ref))
    (hkinds : ∀ ref table, (f ref table).keyKind = table.keyKind ∧
      (f ref table).valueKind = table.valueKind) :
    Serial.locate registry store' = Serial.locate registry store := by
  funext s
  unfold Serial.locate
  cases registry.lookUp s.table with
  | error cause => rfl
  | ok found =>
    obtain ⟨id, entry⟩ := found
    dsimp only
    rw [hstore entry.table]
    cases store[entry.table]? with
    | none => rfl
    | some table =>
      obtain ⟨hkey, hvalue⟩ := hkinds entry.table table
      have hcheck : (f entry.table table).check s.key s.value? = table.check s.key s.value? := by
        unfold MemoryTable.check
        rw [hkey, hvalue]
      dsimp only [Option.map_some]
      rw [hcheck]

/-- What the tables hold after more commits are their writes, replayed on what they held before. -/
theorem Stored.later {more : List Commit} (h : db.Stored tables) (h' : db'.Stored tables)
    (hcommits : db'.commits = db.commits ++ more) (ref : TableRef) :
    db'.store[ref]? = db.store[ref]?.map fun table =>
      replayed table (more.flatMap fun commit => writesTo ref commit.plan) := by
  rw [h'.contents ref, h.contents ref, Option.map_map]
  congr 1
  funext table
  unfold written replayed
  rw [hcommits, List.flatMap_append, List.foldl_append]
  rfl

/-- Statements are checked as before. -/
theorem Stored.locate_eq (h : db.Stored tables) (h' : db'.Stored tables)
    (hcommits : db.commits <+: db'.commits) (hregistry : db'.registry = db.registry) :
    db'.locate = db.locate := by
  obtain ⟨more, hmore⟩ := hcommits
  unfold Database.locate
  rw [hregistry]
  refine locate_of_kinds (h.later h' hmore.symm) fun ref table => ?_
  obtain ⟨hkey, hvalue, -⟩ := replayed_frame table
    (more.flatMap fun commit => writesTo ref commit.plan)
  exact ⟨hkey, hvalue⟩

/-- A row that none of the commits has written to is as before. -/
theorem Stored.contents_eq {more : List Commit} (h : db.Stored tables) (h' : db'.Stored tables)
    (hcommits : db'.commits = db.commits ++ more) (hregistry : db'.registry = db.registry)
    (hapart : db.registry.Apart)
    (hplanned : ∀ commit ∈ more, commit.plan = db.plan (commit.plan.map PlannedWrite.entry))
    (hwrites : ∀ commit ∈ more, ∀ w ∈ commit.plan, w.entry.place ≠ k) :
    db'.contents k = db.contents k := by
  unfold Database.contents Contents.of
  rw [hregistry]
  cases hentry : db.registry.get? k.table with
  | none => rfl
  | some entry =>
    rw [Option.bind_some, Option.bind_some, h.later h' hcommits]
    cases db.store[entry.table]? with
    | none => rfl
    | some table =>
      rw [Option.map_some, Option.bind_some, Option.bind_some]
      refine (replayed_frame table _).2.2 k.row fun e he => ?_
      -- A write that goes to this table is one of the row's table, and so of another row.
      obtain ⟨commit, hcommit, he⟩ := List.mem_flatMap.mp he
      obtain ⟨w, hw, htaken⟩ := List.mem_filterMap.mp he
      split at htaken
      · rename_i href
        cases htaken
        have hw' := hw
        rw [hplanned commit hcommit] at hw'
        obtain ⟨e, -, rfl⟩ := List.mem_map.mp hw'
        obtain ⟨entry', hentry', hsame⟩ := Option.map_eq_some_iff.mp href
        have htable : e.table = k.table := hapart _ _ _ _ hentry' hentry hsame
        intro hkey
        refine hwrites commit hcommit _ hw ?_
        unfold WriteEntry.place
        rw [htable]
        exact congrArg _ hkey
      · cases htaken

/-! ## Rows that only one connection names -/

section

variable {K : Set Lock.Key} {c d : ConnectionId} {clock : Clock}
  {action : Action MemoryTable} {i : TaskId} {op : Operation} {me : Lock.Holder}
  {t : TransactionId} {txn : Transaction} {e : WriteEntry}

/-- What happens if a connection makes one call at a time and names rows in `K` only, and the other
connections name no row in `K`, on a fixed set of tables. -/
def Separate (K : Set Lock.Key) (c : ConnectionId) (db : Database MemoryTable) :
    Action MemoryTable → Prop
  | .createTable _ | .dropTable _ | .requestLock _ _ _ => False
  | .beginTransaction d => d = c → db.Idle c
  | .submit d (.statement s) => (d = c → db.Idle c) ∧ (s.place db.registry ∈ K ↔ d = c)
  | .submit d .commit | .submit d .rollback | .submit d .disconnect => d = c → db.Idle c
  | .connect | .resume _ | .reach _ => True

/-- It can be found out from the action and the calls on the connection. -/
instance [DecidablePred (· ∈ K)] (db : Database MemoryTable) :
    (action : Action MemoryTable) → Decidable (Separate K c db action)
  | .createTable _ | .dropTable _ | .requestLock _ _ _ => inferInstanceAs (Decidable False)
  | .beginTransaction d => inferInstanceAs (Decidable (d = c → db.Idle c))
  | .submit d (.statement s) =>
    inferInstanceAs (Decidable ((d = c → db.Idle c) ∧ (s.place db.registry ∈ K ↔ d = c)))
  | .submit d .commit | .submit d .rollback | .submit d .disconnect =>
    inferInstanceAs (Decidable (d = c → db.Idle c))
  | .connect | .resume _ | .reach _ => inferInstanceAs (Decidable True)

/-- Such clients get their locks through their connections. -/
theorem Separate.coordinated (h : Separate K c db action) : db.Coordinated action := by
  cases action <;> first | rfl | exact h.elim

/-- The connection has no call that is not over when it makes another one. -/
theorem Separate.idle {call : Call} (h : Separate K c db (.submit c call)) : db.Idle c := by
  cases call with
  | statement s => exact h.1 rfl
  | commit | rollback | disconnect => exact h rfl

/-- What holds if only the connection `c` names rows in `K`. -/
structure Secluded (K : Set Lock.Key) (c : ConnectionId) (clock : Clock)
    (tables : List MemoryTable) (db : Database MemoryTable) : Prop where
  /-- All locks are got through connections. -/
  regular : db.Regular clock
  /-- The tables hold what the commits have written. -/
  stored : db.Stored tables
  /-- Write buffers hold what the statements of their transactions have written. -/
  logged : ∃ past, db.Logged db.registry.hasher past
  /-- No two registered tables are kept in the same place. -/
  apart : db.registry.Apart
  /-- Writes that are taken down go to the tables that are registered. -/
  planned : ∀ t plan, db.Snapshot t plan → plan = db.plan (plan.map PlannedWrite.entry)
  /-- The statements of the connection, and no others, name rows in `K`. -/
  names : ∀ (i : TaskId) (op : Operation) (s : Statement), db.tasks[i]? = some (.operation op) →
    op.call = .statement s → (s.place db.registry ∈ K ↔ op.connection = c)
  /-- It makes one call at a time. -/
  sequential : db.Sequential c
  /-- Its transactions, and no others, are involved with keys in `K`. -/
  involved : ∀ k t, (db.locks.lockOf k).Involves t → ∃ d, db.Belongs t d ∧ (k ∈ K ↔ d = c)
  /-- Nobody waits for these keys. -/
  free : ∀ k ∈ K, (db.locks.lockOf k).queue = []

/-- A transaction belongs to its connection for all its life. -/
theorem Belongs.mono (h : db.Belongs t d)
    (hmore : db.directory.roster <+: db'.directory.roster) : db'.Belongs t d := by
  obtain ⟨txn, hfound, hconnection⟩ := h
  have hline := getElem?_of_isPrefix hmore ((db.directory.getElem?_roster t).trans
    (congrArg _ hfound))
  rw [Directory.getElem?_roster] at hline
  obtain ⟨txn', hfound', hsame⟩ := Option.map_eq_some_iff.mp hline
  exact ⟨txn', hfound', (congrArg Identity.connection hsame).trans hconnection⟩

namespace Secluded

/-- While the connection is at work on a row, its transactions are over but for the one that it is
attached to, and that is active. -/
theorem active (h : Secluded K c clock tables db) (hop : db.tasks[i]? = some (.operation op))
    (hc : op.connection = c) (hworking : op.stand.isWorking)
    (hfound : db.directory.find? t = some txn) (hconnection : txn.connection = c)
    (hready : txn.phase ≠ .ready) : txn.phase = .active ∧ db.attached.get? c = some t := by
  have hclosing : txn.phase.isClosing = false := by
    refine Bool.eq_false_iff.mpr fun hclosing => ?_
    obtain ⟨j, other, you, hother, hcloses, rfl⟩ :=
      h.regular.lifecycle.closer t txn hfound hclosing
    have hplaced : other.connection = c := (h.regular.tidy.placed j other you hother).eq
      ⟨txn, hfound, hconnection⟩
    obtain rfl : i = j := h.sequential i j op other hop hother.1 hc hplaced
      (Operation.not_over_of_working hworking) (Operation.not_over_of_closing hcloses)
    cases hop.symm.trans hother.1
    rw [Stand.not_closing_of_working hworking] at hcloses
    cases hcloses
  have hactive := (Phase.active_or_ready hclosing).resolve_right hready
  have hattached := (h.regular.tidy.neat t txn hfound).active hactive
  exact ⟨hactive, hconnection ▸ hattached⟩

/-- So the transaction of a statement of the connection is the only one that is involved with the
keys in `K`. -/
theorem sole (h : Secluded K c clock tables db) (hruns : db.Runs i op me)
    (hc : op.connection = c) (hworking : op.stand.isWorking) {k : Lock.Key} (hk : k ∈ K)
    (hinvolves : (db.locks.lockOf k).Involves t) : t = me.txn := by
  obtain ⟨d, ⟨txn, hfound, hd⟩, hiff⟩ := h.involved k t hinvolves
  have hready : txn.phase ≠ .ready := fun hready =>
    ((h.regular.tidy.neat t txn hfound).ready hready).1.uninvolved k hinvolves
  obtain ⟨own, hown, hconnection⟩ := h.regular.tidy.placed i op me hruns
  have hlive : own.phase ≠ .ready := (h.regular.lifecycle.inTurn hruns).not_ready hworking hown
  have hattached := (h.active hruns.1 hc hworking hfound (hd.trans (hiff.mp hk)) hready).2
  have hmine := (h.active hruns.1 hc hworking hown (hconnection.trans hc) hlive).2
  exact Option.some.inj (hattached.symm.trans hmine)

/-- An operation that asks for a key names it. -/
theorem asks (h : Secluded K c clock tables db) (hruns : db.Runs i op me)
    (hasks : db.Asks op op.stand k) : k ∈ K ↔ op.connection = c := by
  obtain ⟨-, s, hcall, rfl⟩ := hasks
  exact h.names i op s hruns.1 hcall

/-- What happens leaves the tables and the settings. -/
theorem alike (h : Secluded K c clock tables db) (hseparate : Separate K c db action) :
    (db.perform action).registry = db.registry ∧ (db.perform action).config = db.config := by
  cases action with
  | createTable table => exact hseparate.elim
  | dropTable name => exact hseparate.elim
  | requestLock mode holder key => exact hseparate.elim
  | connect => exact ⟨rfl, rfl⟩
  | reach instant => exact ⟨rfl, rfl⟩
  | beginTransaction d =>
    show (db.beginTransaction d).2.registry = db.registry ∧ _
    rcases db.beginTransaction_cases d with heq | heq
    · exact ⟨congrArg registry heq, congrArg config heq⟩
    · have halike := alike_start db d .explicit
      rw [← heq] at halike
      exact ⟨halike.registry, halike.config⟩
  | submit d call =>
    have halike := h.regular.alike_submit d call
    exact ⟨halike.registry, halike.config⟩
  | resume i =>
    have halike := h.regular.alike_resume i
    exact ⟨halike.registry, halike.config⟩

/-- It stays so whatever happens. -/
theorem perform (h : Secluded K c clock tables db) (hseparate : Separate K c db action) :
    Secluded K c clock tables (db.perform action) := by
  have hlifecycle := h.regular.lifecycle
  have htwoPhase := h.regular.twoPhase
  have hregistry := (h.alike hseparate).1
  have hroster := hlifecycle.roster_perform htwoPhase action
  obtain ⟨past, hlogged⟩ := h.logged
  have hsecludes := fun k => h.regular.secludes (k := k) hlogged hseparate.coordinated
  -- What can change is the log, the commits, the calls, and who is involved with a key.
  refine ⟨h.regular.perform hseparate.coordinated, ?_,
    ⟨past ++ (db.success? action).toList, ?_⟩, ?_,
    ?_, ?_, ?_, ?_, ?_⟩
  · have hmade : made [action] = [] := by
      cases action <;> first | rfl | exact hseparate.elim
    have hstored := h.stored.perform hlifecycle htwoPhase action
    rwa [hmade, List.append_nil] at hstored
  · rw [hregistry]
    exact hlogged.perform hlifecycle htwoPhase action
  · rw [hregistry]
    exact h.apart
  · intro t plan hsnapshot
    have hplan : (db.perform action).plan = db.plan := by
      unfold Database.plan
      rw [hregistry]
    rw [hplan]
    -- The tables are fixed, so that a new snapshot is planned as the old ones are.
    rcases hlifecycle.snapshot_new htwoPhase hsnapshot with hbefore | hnew
    · exact h.planned t plan hbefore
    · exact hnew
  · intro i op s hop hcall
    rw [hregistry]
    cases h.regular.tidy.comes hlifecycle htwoPhase hop with
    | same before => exact h.names i op s before hcall
    | moved turn before unfinished now =>
      subst now
      have hiff := h.names i _ s before hcall
      exact hiff
    | made submitted last opened =>
      rw [submitted, hcall] at hseparate
      exact hseparate.2
  · refine h.sequential.perform h.regular.tidy hlifecycle htwoPhase ?_
    rintro call rfl
    exact idle_iff.mp hseparate.idle
  · intro k t hinvolves
    -- Whoever is involved with a key was so before, or has asked for it in this turn, and then by a
    -- call on its own connection.
    rcases (hsecludes k).1 t hinvolves with hbefore | ⟨i, op, me, hruns, rfl, hasks⟩
    · obtain ⟨d, hbelongs, hiff⟩ := h.involved k t hbefore
      exact ⟨d, hbelongs.mono hroster, hiff⟩
    · exact ⟨_, (h.regular.tidy.placed i op me hruns).mono hroster, h.asks hruns hasks⟩
  · intro k hk
    -- A key of the client is freely granted, since nobody else is involved with it.
    refine (hsecludes k).2 (h.free k hk) fun i op me hruns hasks t hinvolves => ?_
    have hworking : op.stand.isWorking := by
      rw [hasks.1]
      rfl
    exact h.sole hruns ((h.asks hruns hasks).mp hk) hworking hk hinvolves

/-- A write that is buffered is one of the connection if and only if its row is in `K`. -/
theorem place_mem (h : Secluded K c clock tables db) (hfound : db.directory.find? t = some txn)
    (hfate : db.fate? t ≠ some .discarded) (he : e ∈ txn.log.entries) :
    e.place ∈ K ↔ txn.connection = c := by
  obtain ⟨past, hlogged⟩ := h.logged
  have hrecorded : e ∈ Success.entries db.registry.hasher past t := by
    have hmem : e ∈ txn.log.entries.filter fun f => f.table = e.table :=
      List.mem_filter.mpr ⟨he, decide_eq_true rfl⟩
    rw [(hlogged.kept t txn hfound hfate).2] at hmem
    exact (List.mem_filter.mp hmem).1
  obtain ⟨x, hx, hentry⟩ := List.mem_filterMap.mp hrecorded
  obtain ⟨hx, hown⟩ := List.mem_filter.mp hx
  obtain ⟨op, me, hruns, htxn, hcall, -⟩ := hlogged.ended x hx
  obtain ⟨w, -, rfl⟩ := Option.map_eq_some_iff.mp hentry
  have hbelongs := h.regular.tidy.placed _ op me hruns
  rw [htxn, of_decide_eq_true hown] at hbelongs
  rw [← hbelongs.eq ⟨txn, hfound, rfl⟩]
  exact h.names _ op x.statement hruns.1 hcall

end Secluded

/-- A transaction that has writes after an action was known before. -/
theorem Regular.known (h : db.Regular clock) (hcoordinated : db.Coordinated action)
    (hfound : (db.perform action).directory.find? t = some txn) :
    db.Known t ∨ txn.log = .empty := by
  rcases h.perform_cases hcoordinated with hcalm | ⟨i, op, me, first, stand, writes, htakes, hleads⟩
  · exact (hcalm.quiet.fresh t txn hfound).imp_right And.right
  · obtain ⟨mid, last, hmoves, -, hput⟩ := hleads
    obtain ⟨ready, heq⟩ := mid.putDown_eq i last
    have hdirectory : (db.perform action).directory = mid.directory := by
      rw [hput, heq, setStand_eq]
    rw [hdirectory] at hfound
    have hfresh := (hmoves.logs htakes.inTurn).fresh t txn hfound
    unfold Known at hfresh
    rwa [htakes.same.2.1] at hfresh

/-- A transaction of a connection is not applied by what happens elsewhere. -/
theorem Beside.applied (h : Beside c db db') (hlifecycle : db.Lifecycle)
    (hlifecycle' : db'.Lifecycle) (hfate : ∀ f, db.fate? t = some f → db'.fate? t = some f)
    (hbelongs : db.Belongs t c) (htidy : db.Tidy) (happlied : db'.Applied t) : db.Applied t := by
  obtain ⟨txn, hfound, hc⟩ := hbelongs
  by_contra hnot
  have hfound' := h.found t txn hfound hc
  obtain ⟨commit, hcommit, rfl⟩ := List.mem_map.mp happlied
  obtain ⟨txn', hfound'', hphase, -⟩ := hlifecycle'.recorded commit hcommit
  cases hfound'.symm.trans hfound''
  rcases hphase with hphase | hphase
  · -- A transaction that is being committed has a call that commits it, and that stands where it stood.
    obtain ⟨i, op, me, hruns, hcloses, htxn⟩ :=
      hlifecycle.closer _ txn hfound (by rw [hphase]; rfl)
    have hconnection : op.connection = c := by
      refine (htidy.placed i op me hruns).eq ?_
      rw [htxn]
      exact ⟨txn, hfound, hc⟩
    obtain ⟨old, hold, hfits⟩ := hlifecycle.fits i op me hruns
    obtain ⟨new, hnew, hfits'⟩ := hlifecycle'.fits i op me (h.runs hruns hconnection)
    rw [htxn] at hold hfits hnew hfits'
    cases hold.symm.trans hfound
    cases hnew.symm.trans hfound''
    cases hstand : op.stand with
    | draining purpose result =>
      rw [hstand] at hfits hfits'
      cases purpose with
      | commit => exact hfits'.2 happlied
      | discard restart => exact absurd (hphase.symm.trans hfits) nofun
    | applying plan result =>
      rw [hstand] at hfits'
      exact hfits'.2.1 happlied
    | applied errors result =>
      rw [hstand] at hfits
      exact hnot hfits.2.1
    | issued | locking target w | reading target | fetched target row | finished result =>
      rw [hstand] at hcloses
      cases hcloses
  · -- One that is over and was not applied has been discarded.
    have hdiscarded : db.fate? commit.txn = some .discarded := by
      rw [fate?_of_found hfound, hphase]
      exact congrArg some (if_neg (by simpa using hnot))
    have happlied' := hlifecycle'.fate?_of_commit hcommit
    rw [hfate _ hdiscarded] at happlied'
    cases happlied'

/-- What happens leaves the checks of statements. -/
theorem Secluded.locate_eq (h : Secluded K c clock tables db) (hseparate : Separate K c db action) :
    (db.perform action).locate = db.locate :=
  h.stored.locate_eq (h.perform hseparate).stored
    (h.regular.lifecycle.commits_perform h.regular.twoPhase action) (h.alike hseparate).1

/-- What happens elsewhere leaves the rows in `K`. -/
theorem Secluded.frame (h : Secluded K c clock tables db) (hseparate : Separate K c db action)
    (helse : ¬ db.Concerns c action) : Set.EqOn (db.perform action).contents db.contents K := by
  intro k hk
  have hlater := h.perform hseparate
  have hlifecycle := h.regular.lifecycle
  have htwoPhase := h.regular.twoPhase
  have hregistry := (h.alike hseparate).1
  obtain ⟨more, hmore⟩ := hlifecycle.commits_perform htwoPhase action
  have hsnapshot : ∀ commit ∈ more, (db.perform action).Snapshot commit.txn commit.plan :=
    fun commit hcommit => .inl (hmore ▸ List.mem_append_right _ hcommit)
  refine h.stored.contents_eq hlater.stored hmore.symm hregistry h.apart (fun commit hcommit => ?_)
    fun commit hcommit w hw hplace => ?_
  · have hplan := hlater.planned _ _ (hsnapshot commit hcommit)
    unfold Database.plan at hplan ⊢
    rwa [hregistry] at hplan
  · obtain ⟨txn, hfound, -, -, hentries⟩ :=
      hlater.regular.lifecycle.snapshot (hsnapshot commit hcommit)
    have hfate := hlater.regular.lifecycle.fate?_of_snapshot (hsnapshot commit hcommit)
    have hentry : w.entry ∈ txn.log.entries := hentries ▸ List.mem_map_of_mem hw
    have hconnection : txn.connection = c :=
      (hlater.place_mem hfound (by rw [hfate]; nofun) hentry).mp (hplace ▸ hk)
    have hbeside := h.regular.beside hseparate.coordinated helse
    have happlied : (db.perform action).Applied commit.txn :=
      List.mem_map_of_mem (hmore ▸ List.mem_append_right _ hcommit)
    -- The transaction was there before, since it has written, and was not applied then.
    have hknown : db.Known commit.txn := by
      refine (h.regular.known hseparate.coordinated hfound).resolve_right fun hempty => ?_
      rw [hempty] at hentry
      cases hentry
    have hbelongs : db.Belongs commit.txn c := by
      obtain ⟨old, hold⟩ := hknown
      refine ⟨old, hold, ?_⟩
      have hmine : db.Belongs commit.txn old.connection := ⟨old, hold, rfl⟩
      exact (hmine.mono (hlifecycle.roster_perform htwoPhase action)).eq ⟨txn, hfound, hconnection⟩
    have hbefore := hbeside.applied hlifecycle hlater.regular.lifecycle
      (fun f hf => hlifecycle.fate?_perform htwoPhase hf action) hbelongs h.regular.tidy happlied
    have honce := hlater.regular.lifecycle.once
    rw [← hmore, List.map_append] at honce
    exact (List.nodup_append.mp honce).2.2 _ hbefore _ (List.mem_map_of_mem hcommit) rfl

end

end Database

end TxStore
