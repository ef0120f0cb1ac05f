import TxStore.Fixture.Seed
import TxStore.Proofs.Database.Sole
import TxStore.Proofs.Registry
import TxStore.Proofs.Table.TypedMap

/-!
# A database is made exactly as its fixture says

Tables are made one after the other, each judged against those before it: `TableSpec.Admissible`
says when one is made, and `TableSpec.Fault` why one is not. What is true of a bench on which some
tables have been made is `Bench.Seeded`; making one more keeps it or is refused for a fault
(`Seeded.seedTable`), and so making several does (`Seeded.seed`). The main theorem is
`seeds_exactly`.
-/

namespace TxStore

namespace TableSpec

/-- The identifier of a table. -/
def id (spec : TableSpec) : TableId :=
  Hasher.fnv1a.tableId spec.name

/-- Whether a row is of the declared kinds. -/
def Accepts (spec : TableSpec) (row : Value × Value) : Prop :=
  spec.keyKind.accepts row.1 ∧ spec.valueKind.accepts row.2

/-- It can be found out from the kinds of the row. -/
instance (spec : TableSpec) (row : Value × Value) : Decidable (spec.Accepts row) :=
  inferInstanceAs (Decidable (_ ∧ _))

/-- The value of the last row with a key. -/
def last? (spec : TableSpec) (key : Value) : Option Value :=
  (spec.rows.reverse.find? fun row => row.1 = key).map Prod.snd

/-- Whether a table can be made after the earlier ones. -/
structure Admissible (earlier : List TableSpec) (spec : TableSpec) : Prop where
  /-- It has a name. -/
  named : spec.name ≠ ""
  /-- No earlier table has its identifier. -/
  free : ∀ other ∈ earlier, other.id ≠ spec.id
  /-- All its rows are of the declared kinds. -/
  accepts : ∀ row ∈ spec.rows, spec.Accepts row

/-- Whether tables can be made after the earlier ones, each after those before it. -/
def AllAdmissible (earlier specs : List TableSpec) : Prop :=
  ∀ before spec after, specs = before ++ spec :: after → Admissible (earlier ++ before) spec

/-- Where there are no tables all can be made. -/
theorem allAdmissible_nil (earlier : List TableSpec) : AllAdmissible earlier [] := by
  intro before spec after h
  cases List.append_eq_nil_iff.mp h.symm |>.2

/-- One more table can be made before others. -/
theorem Admissible.cons {earlier rest : List TableSpec} {spec : TableSpec}
    (h : Admissible earlier spec) (hrest : AllAdmissible (earlier ++ [spec]) rest) :
    AllAdmissible earlier (spec :: rest) := by
  intro before other after heq
  cases before with
  | nil =>
    obtain ⟨rfl, -⟩ := List.cons.inj heq
    rwa [List.append_nil]
  | cons first before =>
    obtain ⟨rfl, hsplit⟩ := List.cons.inj heq
    rw [List.append_cons]
    exact hrest before other after hsplit

/-- Why a table cannot be made after the earlier ones. -/
inductive Fault (earlier : List TableSpec) (spec : TableSpec) : SeedError → Prop where
  /-- It has no name. -/
  | unnamed (h : spec.name = "") : Fault earlier spec (.table .emptyName)
  /-- It has a name, but an earlier table has its identifier. -/
  | taken (named : spec.name ≠ "") {other : TableSpec} (made : other ∈ earlier)
      (same : other.id = spec.id) : Fault earlier spec (.database (.tableExists spec.name))
  /-- Its identifier is free, but the first row that is not of the declared kinds has another kind of
  key. -/
  | key (named : spec.name ≠ "") (free : ∀ other ∈ earlier, other.id ≠ spec.id)
      {before after : List (Value × Value)} {row : Value × Value}
      (rows : spec.rows = before ++ row :: after) (accepts : ∀ r ∈ before, spec.Accepts r)
      (refused : spec.keyKind.accepts row.1 = false) :
      Fault earlier spec (.table (.typeMismatch .key spec.keyKind row.1.kind))
  /-- The first such row has the right kind of key and another kind of value. -/
  | value (named : spec.name ≠ "") (free : ∀ other ∈ earlier, other.id ≠ spec.id)
      {before after : List (Value × Value)} {row : Value × Value}
      (rows : spec.rows = before ++ row :: after) (accepts : ∀ r ∈ before, spec.Accepts r)
      (fits : spec.keyKind.accepts row.1) (refused : spec.valueKind.accepts row.2 = false) :
      Fault earlier spec (.table (.typeMismatch .value spec.valueKind row.2.kind))

/-- The table without rows. -/
def blank (spec : TableSpec) : MemoryTable :=
  ⟨spec.name, spec.keyKind, spec.valueKind, .empty⟩

/-- The table with its rows. -/
def table (spec : TableSpec) : MemoryTable :=
  (spec.blank.load spec.rows).1

/-- A table with a name can be made without rows. -/
theorem new_eq_blank {spec : TableSpec} (hname : spec.name ≠ "") :
    MemoryTable.new spec.name spec.keyKind spec.valueKind = .ok spec.blank :=
  if_neg fun hempty => hname (String.isEmpty_iff.mp hempty)

/-- A table that can be made has no fault. -/
theorem Admissible.not_fault {earlier : List TableSpec} {spec : TableSpec} {e : SeedError}
    (h : Admissible earlier spec) : ¬ Fault earlier spec e := by
  intro hfault
  cases hfault with
  | unnamed hname => exact h.named hname
  | taken _ hmade hsame => exact h.free _ hmade hsame
  | key _ _ hrows _ hrefused =>
    have hrow := h.accepts _ (hrows ▸ List.mem_append_right _ List.mem_cons_self)
    exact Bool.false_ne_true (hrefused.symm.trans hrow.1)
  | value _ _ hrows _ _ hrefused =>
    have hrow := h.accepts _ (hrows ▸ List.mem_append_right _ List.mem_cons_self)
    exact Bool.false_ne_true (hrefused.symm.trans hrow.2)

end TableSpec

/-! ## Loading rows -/

namespace MemoryTable

variable {t : MemoryTable} {rows : List (Value × Value)}

/-- Rows that all fit are all put, and under each key the last one counts. -/
theorem load_of_fits (h : ∀ row ∈ rows, t.typedMap.Fits row) :
    ∃ t', t.load rows = (t', .ok ()) ∧ t'.name = t.name ∧ t'.keyKind = t.keyKind ∧
      t'.valueKind = t.valueKind ∧ ∀ key, t'.rows.get? key =
        ((rows.reverse.find? fun row => row.1 = key).map Prod.snd).or (t.rows.get? key) := by
  induction rows generalizing t with
  | nil => exact ⟨t, rfl, rfl, rfl, rfl, fun key => rfl⟩
  | cons row rest ih =>
    have hrow := h row List.mem_cons_self
    obtain ⟨t', hload, hname, hkey, hvalue, hget⟩ :=
      ih (t := { t with rows := t.rows.insert row.1 row.2 })
        fun other hother => h other (List.mem_cons_of_mem _ hother)
    refine ⟨t', (load_cons_of_fits hrow rest).trans hload, hname, hkey, hvalue, fun key => ?_⟩
    -- A later row for the key is found first, then this one, then what was there before.
    rw [hget, Rows.get?_insert, List.reverse_cons, List.find?_append]
    cases rest.reverse.find? fun row => row.1 = key with
    | some later => rfl
    | none => by_cases hsame : row.1 = key <;> simp [hsame]

/-- What is wrong with a row is wrong with its key, or with its value if the key is right. -/
theorem mismatch?_cases {row : Value × Value} {e : TableError}
    (h : t.typedMap.mismatch? row.1 (some row.2) = some e) :
    t.keyKind.accepts row.1 = false ∧ e = .typeMismatch .key t.keyKind row.1.kind ∨
      t.keyKind.accepts row.1 = true ∧ t.valueKind.accepts row.2 = false ∧
        e = .typeMismatch .value t.valueKind row.2.kind := by
  unfold TypedMap.mismatch? at h
  cases hkey : t.typedMap.keyKind.accepts row.1 with
  | false =>
    rw [if_pos hkey] at h
    exact .inl ⟨hkey, (Option.some_inj.mp h).symm⟩
  | true =>
    rw [if_neg (hkey ▸ Bool.noConfusion)] at h
    obtain ⟨v, hv, rfl⟩ := Option.map_eq_some_iff.mp h
    obtain ⟨hsome, hvalue⟩ := Option.filter_eq_some_iff.mp hv
    obtain rfl := Option.some_inj.mp hsome
    exact .inr ⟨hkey, of_decide_eq_true hvalue, rfl⟩

/-- The rows that were put all fit. -/
theorem fits_of_load {t' : MemoryTable} (h : t.load rows = (t', .ok ())) :
    ∀ row ∈ rows, t.typedMap.Fits row := by
  induction rows generalizing t with
  | nil => exact nofun
  | cons row rest ih =>
    rcases t.typedMap.fits_or_mismatch row with hrow | ⟨e, hwrong⟩
    · rw [load_cons_of_fits hrow] at h
      have hrest := ih (t := { t with rows := t.rows.insert row.1 row.2 }) h
      exact List.forall_mem_cons.mpr ⟨hrow, hrest⟩
    · rw [load_cons_of_mismatch hwrong] at h
      cases h

end MemoryTable

/-! ## Registering tables -/

/-- A key that is new goes to the end. -/
theorem Dict.values_insert {κ α : Type} [DecidableEq κ] {d : Dict κ α} {k : κ}
    (h : d.get? k = none) (a : α) : (d.insert k a).values = d.values ++ [a] := by
  have hentries : ∀ l : List (κ × α), Entries.find? k l = none →
      Entries.insert k a l = l ++ [(k, a)] := by
    intro l hnone
    induction l with
    | nil => rfl
    | cons e rest ih => grind [Entries.insert, Entries.find?]
  show (Entries.insert k a d.entries).map Prod.snd = d.entries.map Prod.snd ++ [a]
  rw [hentries d.entries h, List.map_append]
  rfl

namespace Bench

variable {b : Bench} {spec : TableSpec} {made : List TableSpec}

/-- What is true of a bench on which tables have been made. -/
structure Seeded (made : List TableSpec) (b : Bench) : Prop where
  /-- No call was made on the database. -/
  blank : b.db.Blank
  /-- The tables are kept in the order in which they were made. -/
  store : b.db.store = (made.map TableSpec.table).toArray
  /-- Identifiers are hashes of names. -/
  hasher : b.db.registry.hasher = .fnv1a
  /-- Each table is registered under its identifier. -/
  found : ∀ place spec, made[place]? = some spec →
    b.db.registry.get? spec.id = some ⟨spec.name, place⟩
  /-- Nothing else is registered. -/
  vacant : ∀ id, (∀ spec ∈ made, spec.id ≠ id) → b.db.registry.get? id = none
  /-- The names are those of the tables. -/
  names : b.db.registry.tables.values.map Registered.name = made.map TableSpec.name
  /-- Each table is at hand under its name. -/
  tables : ∀ place spec, made[place]? = some spec → b.tables.get? spec.name = some place

/-- At first there are no tables. -/
theorem seeded_new (config : Config) : Seeded [] (new config) where
  blank := ⟨rfl, rfl, rfl, rfl, rfl⟩
  store := rfl
  hasher := rfl
  found := nofun
  vacant _ _ := rfl
  names := rfl
  tables := nofun

/-- The identifier of a name is that of a table with the name. -/
theorem Seeded.tableId_eq (h : Seeded made b) (spec : TableSpec) :
    b.db.registry.tableId spec.name = spec.id := by
  unfold Registry.tableId
  rw [h.hasher]
  rfl

/-- A table that was made has its place. -/
theorem Seeded.getElem?_store (h : Seeded made b) {place : Nat} (hspec : made[place]? = some spec) :
    b.db.store[place]? = some spec.table := by
  rw [h.store, List.getElem?_toArray, List.getElem?_map, hspec, Option.map_some]

/-- A table that has a name whose identifier is free is made if its rows can be loaded. -/
theorem seedTable_of_vacant (hname : spec.name ≠ "")
    (hid : b.db.registry.tableId spec.name = spec.id)
    (hvacant : b.db.registry.get? spec.id = none) :
    b.seedTable spec =
      match spec.blank.load spec.rows with
      | (_, .error e) => .error (.table e)
      | (t, .ok ()) => .ok { b with
        db := { b.db with
          store := b.db.store.push t
          registry := { b.db.registry with
            tables := b.db.registry.tables.insert spec.id ⟨spec.name, b.db.store.size⟩ } }
        tables := b.tables.insert spec.name b.db.store.size } := by
  have hcreate : b.db.registry.create (Backend.name spec.blank) b.db.store.size = .ok (spec.id,
      { b.db.registry with
        tables := b.db.registry.tables.insert spec.id ⟨spec.name, b.db.store.size⟩ }) := by
    have hcreate := Registry.create_of_vacant hname (hid ▸ hvacant) b.db.store.size
    rwa [hid] at hcreate
  have hadd : b.addTable spec.name spec.keyKind spec.valueKind = .ok { b with
      db := { b.db with
        store := b.db.store.push spec.blank
        registry := { b.db.registry with
          tables := b.db.registry.tables.insert spec.id ⟨spec.name, b.db.store.size⟩ } }
      tables := b.tables.insert spec.name b.db.store.size } := by
    unfold addTable Database.createTable
    rw [TableSpec.new_eq_blank hname]
    dsimp only
    rw [hcreate]
  -- The table that was loaded takes the place of the one without rows.
  have hstore : ∀ t, (b.db.store.push spec.blank).setIfInBounds b.db.store.size t =
      b.db.store.push t := fun t => by
    rw [Array.setIfInBounds_def, dif_pos (by simp), Array.set_push, dif_neg (Nat.lt_irrefl _)]
  unfold seedTable
  rw [hadd]
  show load _ spec.name spec.rows = _
  unfold load
  dsimp only
  rw [Dict.get?_insert_self]
  dsimp only
  rw [Array.getElem?_push_size]
  dsimp only
  match spec.blank.load spec.rows with
  | (_, .error _) => rfl
  | (t, .ok _) =>
    dsimp only
    rw [hstore]

/-- A table without a name is refused. -/
theorem seedTable_of_unnamed (hname : spec.name = "") :
    b.seedTable spec = .error (.table .emptyName) := by
  have hnew : MemoryTable.new spec.name spec.keyKind spec.valueKind = .error .emptyName :=
    if_pos (String.isEmpty_iff.mpr hname)
  unfold seedTable addTable
  rw [hnew]
  rfl

/-- A table whose identifier is taken is refused. -/
theorem seedTable_of_taken {entry : Registered TableRef} (hname : spec.name ≠ "")
    (hfound : b.db.registry.get? (b.db.registry.tableId spec.name) = some entry) :
    b.seedTable spec = .error (.database (.tableExists spec.name)) := by
  have hempty : ¬ spec.name.isEmpty := fun hempty => hname (String.isEmpty_iff.mp hempty)
  have hcreate : b.db.registry.create (Backend.name spec.blank) b.db.store.size =
      .error (.tableExists spec.name) :=
    (Registry.create_of_taken hfound _).trans (if_neg hempty)
  unfold seedTable addTable Database.createTable
  rw [TableSpec.new_eq_blank hname]
  dsimp only
  rw [hcreate]
  rfl

/-- The first row that cannot be loaded is the fault of its table. -/
theorem fault_of_load {e : TableError} (hname : spec.name ≠ "")
    (hfree : ∀ other ∈ made, other.id ≠ spec.id)
    (h : (spec.blank.load spec.rows).2 = .error e) : TableSpec.Fault made spec (.table e) := by
  obtain ⟨before, row, after, hrows, hbefore, hwrong⟩ := MemoryTable.load_of_error h
  have hfits : ∀ r ∈ before, spec.Accepts r := MemoryTable.fits_of_load hbefore
  rcases MemoryTable.mismatch?_cases hwrong with ⟨hkey, rfl⟩ | ⟨hkey, hvalue, rfl⟩
  · exact .key hname hfree hrows hfits hkey
  · exact .value hname hfree hrows hfits hkey hvalue

/-- A table that is made after the earlier ones has its place behind them. -/
theorem Seeded.append (h : Seeded made b) (hadmissible : TableSpec.Admissible made spec) :
    Seeded (made ++ [spec]) { b with
      db := { b.db with
        store := b.db.store.push spec.table
        registry := { b.db.registry with
          tables := b.db.registry.tables.insert spec.id ⟨spec.name, b.db.store.size⟩ } }
      tables := b.tables.insert spec.name b.db.store.size } := by
  have hsize : b.db.store.size = made.length := by simp [h.store]
  have hvacant : b.db.registry.get? spec.id = none := h.vacant spec.id hadmissible.free
  -- The places are those of the earlier tables, and the next one.
  have hplaces : ∀ place other, (made ++ [spec])[place]? = some other →
      made[place]? = some other ∧ other.id ≠ spec.id ∨ place = b.db.store.size ∧ other = spec := by
    intro place other hother
    rw [List.getElem?_append] at hother
    split at hother
    · exact .inl ⟨hother, hadmissible.free other (List.mem_of_getElem? hother)⟩
    · rw [List.getElem?_singleton] at hother
      split at hother
      · exact .inr ⟨by omega, (Option.some_inj.mp hother).symm⟩
      · cases hother
  refine ⟨⟨h.blank.locks, h.blank.directory, h.blank.attached, h.blank.tasks, h.blank.ready⟩, ?_,
    h.hasher, fun place other hother => ?_, fun id hid => ?_, ?_, fun place other hother => ?_⟩
  · show b.db.store.push spec.table = _
    rw [h.store, List.push_toArray, List.map_append]
    rfl
  · show (b.db.registry.tables.insert spec.id ⟨spec.name, b.db.store.size⟩).get? other.id = _
    rw [Dict.get?_insert]
    rcases hplaces place other hother with ⟨hmade, hne⟩ | ⟨rfl, rfl⟩
    · rw [if_neg (Ne.symm hne)]
      exact h.found place other hmade
    · rw [if_pos rfl]
  · show (b.db.registry.tables.insert spec.id ⟨spec.name, b.db.store.size⟩).get? id = _
    rw [Dict.get?_insert, if_neg (hid spec List.mem_concat_self)]
    exact h.vacant id fun other hother => hid other (List.mem_append_left _ hother)
  · show (b.db.registry.tables.insert spec.id _).values.map Registered.name = _
    rw [Dict.values_insert hvacant, List.map_append, List.map_append, h.names]
    rfl
  · rw [Dict.get?_insert]
    rcases hplaces place other hother with ⟨hmade, hne⟩ | ⟨rfl, rfl⟩
    · have hname : spec.name ≠ other.name := fun heq => hne (congrArg Hasher.fnv1a.tableId heq.symm)
      rw [if_neg hname]
      exact h.tables place other hmade
    · rw [if_pos rfl]

/-- A table is made after the earlier ones, or it is refused for a fault. -/
theorem Seeded.seedTable (h : Seeded made b) (spec : TableSpec) :
    (∃ e, b.seedTable spec = .error e ∧ TableSpec.Fault made spec e) ∨
      ∃ b', b.seedTable spec = .ok b' ∧ TableSpec.Admissible made spec ∧
        Seeded (made ++ [spec]) b' := by
  have hid := h.tableId_eq spec
  by_cases hname : spec.name = ""
  · exact .inl ⟨_, seedTable_of_unnamed hname, .unnamed hname⟩
  by_cases hfree : ∀ other ∈ made, other.id ≠ spec.id
  · rw [seedTable_of_vacant hname hid (h.vacant spec.id hfree)]
    cases hload : spec.blank.load spec.rows with
    | mk t result =>
      cases result with
      | error e =>
        exact .inl ⟨_, rfl, fault_of_load hname hfree (congrArg Prod.snd hload)⟩
      | ok _ =>
        have htable : t = spec.table := (congrArg Prod.fst hload).symm
        have hadmissible : TableSpec.Admissible made spec :=
          ⟨hname, hfree, MemoryTable.fits_of_load hload⟩
        exact .inr ⟨_, rfl, hadmissible, htable ▸ h.append hadmissible⟩
  · obtain ⟨other, hmade, hsame⟩ : ∃ other ∈ made, other.id = spec.id := by simpa using hfree
    obtain ⟨place, hplace⟩ := List.mem_iff_getElem?.mp hmade
    have hfound := h.found place other hplace
    rw [hsame, ← hid] at hfound
    exact .inl ⟨_, seedTable_of_taken hname hfound, .taken hname hmade hsame⟩

/-- Several tables are made after the earlier ones, or the first that cannot be is refused. -/
theorem Seeded.seed (h : Seeded made b) (specs : List TableSpec) :
    (∃ e before spec after, b.seed specs = .error e ∧ specs = before ++ spec :: after ∧
      TableSpec.AllAdmissible made before ∧ TableSpec.Fault (made ++ before) spec e) ∨
    ∃ b', b.seed specs = .ok b' ∧ TableSpec.AllAdmissible made specs ∧
      Seeded (made ++ specs) b' := by
  induction specs generalizing made b with
  | nil => exact .inr ⟨b, rfl, TableSpec.allAdmissible_nil made, by rwa [List.append_nil]⟩
  | cons spec rest ih =>
    rcases h.seedTable spec with ⟨e, hspec, hfault⟩ | ⟨b', hspec, hadmissible, hseeded⟩
    · refine .inl ⟨e, [], spec, rest, ?_, rfl, TableSpec.allAdmissible_nil made, ?_⟩
      · rw [Bench.seed, hspec]
      · rwa [List.append_nil]
    · have hseed : b.seed (spec :: rest) = b'.seed rest := by rw [Bench.seed, hspec]
      rw [hseed, List.append_cons]
      rcases ih hseeded with ⟨e, before, other, after, herror, rfl, hbefore, hfault⟩ |
        ⟨b'', hok, hrest, hall⟩
      · refine .inl ⟨e, spec :: before, other, after, herror, rfl, hadmissible.cons hbefore, ?_⟩
        rwa [List.append_cons]
      · exact .inr ⟨b'', hok, hadmissible.cons hrest, hall⟩

/-- Each table holds its rows. -/
theorem get?_table (h : ∀ row ∈ spec.rows, spec.Accepts row) :
    spec.table.keyKind = spec.keyKind ∧ ∀ key, spec.table.rows.get? key = spec.last? key := by
  obtain ⟨t, hload, -, hkind, -, hget⟩ := MemoryTable.load_of_fits (t := spec.blank) h
  have htable : spec.table = t := congrArg Prod.fst hload
  rw [htable]
  refine ⟨hkind, fun key => (hget key).trans ?_⟩
  exact Option.or_none

/-- A key is looked up in the rows of its table, past all transactions. -/
theorem Seeded.committed (h : Seeded made b) {place : Nat} (hspec : made[place]? = some spec)
    (haccepts : ∀ row ∈ spec.rows, spec.Accepts row) (key : Value) :
    b.committed spec.name key = spec.last? key := by
  have htable : b.table? spec.name = some spec.table := by
    unfold table?
    rw [h.tables place spec hspec]
    exact h.getElem?_store hspec
  unfold Bench.committed
  rw [htable]
  exact (get?_table haccepts).2 key

/-- It is read from them in a transaction that has just begun. -/
theorem Seeded.read (h : Seeded made b) {place : Nat} (hspec : made[place]? = some spec)
    (haccepts : ∀ row ∈ spec.rows, spec.Accepts row) {key : Value} (hkey : spec.keyKind.accepts key)
    (c : ConnectionId) :
    ∃ t db, b.db.beginTransaction c = (.ok t, db) ∧
      (db.call c (.statement (.get spec.name key))).1 = some (
        match spec.last? key with
        | some value => .ok (some value)
        | none => .error (Cause.table (.keyNotFound key))) := by
  obtain ⟨hkind, hrows⟩ := get?_table haccepts
  have hlook : b.db.registry.lookUp spec.name = .ok (spec.id, ⟨spec.name, place⟩) := by
    unfold Registry.lookUp
    rw [h.tableId_eq, h.found place spec hspec]
  have hstore := h.getElem?_store hspec
  have hcheck : spec.table.check key none = .ok () := if_pos (hkind ▸ hkey)
  have hvalid : Backend.validate spec.table key none = .done () :=
    congrArg Outcome.ofExcept hcheck
  obtain ⟨t, db, hbegin, hcall⟩ := h.blank.read c hlook hstore hvalid
  refine ⟨t, db, hbegin, hcall.trans (congrArg some ?_)⟩
  show Database.rowResult (.ofExcept (spec.table.get key)) = _
  rw [MemoryTable.get_eq hcheck, hrows]
  cases spec.last? key with
  | some value => rfl
  | none => rfl

end Bench

/-- A fixture is made exactly if each of its tables has a name, has an identifier that no earlier
one has, and has only rows of its declared kinds. If one has not, the first that has not is why the
fixture cannot be made, for its lack of a name before its identifier, and for its identifier before
the first row that is not of its kinds.

When it is made the names of its tables are listed in order. Each table has under each key of its
kind the value of the last row with this key, and nothing if there is none: so it is found past all
transactions, and so it is read in a transaction that is begun on whatever connection. -/
theorem Fixture.seeds_exactly (f : Fixture) (config : Config) :
    ((∃ b, f.build config = .ok b) ↔ TableSpec.AllAdmissible [] f.tables) ∧
    (∀ e, f.build config = .error e → ∃ before spec after, f.tables = before ++ spec :: after ∧
      TableSpec.AllAdmissible [] before ∧ TableSpec.Fault before spec e) ∧
    ∀ b, f.build config = .ok b →
      b.db.registry.names.Pairwise (· ≤ ·) ∧
      b.db.registry.names.Perm (f.tables.map TableSpec.name) ∧
      ∀ spec ∈ f.tables, ∀ key, spec.keyKind.accepts key →
        b.committed spec.name key = spec.last? key ∧
        ∀ c, ∃ t db, b.db.beginTransaction c = (.ok t, db) ∧
          (db.call c (.statement (.get spec.name key))).1 = some (
            match spec.last? key with
            | some value => .ok (some value)
            | none => .error (Cause.table (.keyNotFound key))) := by
  unfold Fixture.build
  rcases (Bench.seeded_new config).seed f.tables with
    ⟨e, before, spec, after, herror, htables, hbefore, hfault⟩ | ⟨b, hok, hadmissible, hseeded⟩
  · rw [herror]
    refine ⟨⟨nofun, fun hall => ?_⟩, fun e' he => ?_, nofun⟩
    · -- The first table that cannot be made is one of those that could.
      exact absurd hfault (hall before spec after htables).not_fault
    · cases he
      exact ⟨before, spec, after, htables, hbefore, hfault⟩
  · rw [hok]
    refine ⟨iff_of_true ⟨b, rfl⟩ hadmissible, nofun, fun b' hb => ?_⟩
    cases hb
    rw [List.nil_append] at hseeded
    refine ⟨b.db.registry.names_sorted, ?_, fun spec hspec key hkey => ?_⟩
    · unfold Registry.names
      rw [hseeded.names]
      exact List.mergeSort_perm _ _
    · -- A table is looked up by its place, and its rows fit since it could be made after others.
      obtain ⟨place, hplace⟩ := List.mem_iff_getElem?.mp hspec
      obtain ⟨before, after, hsplit⟩ := List.append_of_mem hspec
      have haccepts := (hadmissible before spec after hsplit).accepts
      exact ⟨hseeded.committed hplace haccepts key, fun c =>
        hseeded.read hplace haccepts hkey c⟩

/-- A table with two rows for one key, and a table without rows. -/
def bank : Fixture where
  tables := [
    ⟨"notes", .any, .any, []⟩,
    ⟨"accounts", .integer, .integer,
      [(.integer 1, .integer 100), (.integer 2, .integer 250), (.integer 1, .integer 90)]⟩]

/-- It is made, and the later row is what is found. With a row more that has the wrong kind of value
it is not. -/
theorem Fixture.seeds_exactly_bank :
    (∃ b, bank.build .standard = .ok b ∧ b.db.registry.names.Perm ["notes", "accounts"] ∧
      b.committed "accounts" (.integer 1) = some (.integer 90) ∧
      ∀ c, ∃ t db, b.db.beginTransaction c = (.ok t, db) ∧
        (db.call c (.statement (.get "accounts" (.integer 1)))).1 =
          some (.ok (some (.integer 90)))) ∧
    ¬ ∃ b, Fixture.build ⟨bank.tables ++ [⟨"t", .any, .text, [(.null, .null)]⟩]⟩ .standard =
      .ok b := by
  constructor
  · obtain ⟨hmade, -, hholds⟩ := Fixture.seeds_exactly bank .standard
    have hnotes : TableSpec.Admissible [] ⟨"notes", .any, .any, []⟩ :=
      ⟨by decide, by decide, by decide⟩
    have haccounts : TableSpec.Admissible [⟨"notes", .any, .any, []⟩] ⟨"accounts", .integer,
        .integer, [(.integer 1, .integer 100), (.integer 2, .integer 250),
          (.integer 1, .integer 90)]⟩ := ⟨by decide, by decide +kernel, by decide⟩
    obtain ⟨b, hb⟩ := hmade.mpr (hnotes.cons (haccounts.cons (TableSpec.allAdmissible_nil _)))
    obtain ⟨-, hnames, htables⟩ := hholds b hb
    obtain ⟨hcommitted, hread⟩ := htables _ (.tail _ (.head _)) (.integer 1) (by decide)
    exact ⟨b, hb, hnames, hcommitted, hread⟩
  · rw [(Fixture.seeds_exactly ..).1]
    intro hall
    have haccepts := (hall bank.tables _ [] rfl).accepts (.null, .null) (List.mem_singleton_self _)
    exact absurd haccepts (by decide)

end TxStore
