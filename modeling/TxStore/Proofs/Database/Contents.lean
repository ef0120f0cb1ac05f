import TxStore.Database.Statement
import TxStore.Proofs.Database.Serial
import TxStore.Proofs.Table.Memory

/-!
# What the tables of a database hold

The registered memory tables of a database make up `Contents`, and they decide where the row of a
statement is (`Serial.locate`): the table must be registered, and key and value must be of the kinds
that it declares. A transaction that has checked its statements in this way applies its buffer
without an error, and what the tables hold afterwards is the replay of its entries (`applyPlan_eq`).
-/

namespace TxStore

/-- What the registered tables hold. -/
def Contents.of (registry : Registry TableRef) (store : Array MemoryTable) : Contents := fun k =>
  (registry.get? k.table).bind fun entry =>
    store[entry.table]?.bind fun table => table.rows.get? k.row

/-- Where the row of a statement is, or why it has none: the table is not there, or the key or value
is not of the kind that it declares. -/
def Serial.locate (registry : Registry TableRef) (store : Array MemoryTable) (s : Statement) :
    Except Error Lock.Key :=
  match registry.lookUp s.table with
  | .error e => .error (.one e)
  | .ok (id, entry) =>
    match store[entry.table]? with
    | none => .error (.one (.tableNotFound s.table))
    | some table =>
      match table.check s.key s.value? with
      | .error e => .error (.one (.table e))
      | .ok () => .ok ⟨id, s.key⟩

/-- The write of a statement, if it writes. -/
def Statement.write? : Statement → Option Write
  | put _ _ v => some (.put v)
  | get _ _ => none
  | delete _ _ => some .delete

/-- No two registered tables are kept in the same place. -/
def Registry.Apart (r : Registry TableRef) : Prop :=
  ∀ id other entry entry', r.get? id = some entry → r.get? other = some entry' →
    entry.table = entry'.table → id = other

/-- A table that is found by its name is found by its identifier. -/
theorem Registry.get?_of_lookUp {r : Registry TableRef} {name : String} {id : TableId}
    {entry : Registered TableRef} (h : r.lookUp name = .ok (id, entry)) : r.get? id = some entry := by
  unfold lookUp at h
  split at h
  · cases h
  · rename_i hfound
    cases h
    exact hfound

/-- A table is looked up under the identifier of the name. -/
theorem Registry.tableId_of_lookUp {r : Registry TableRef} {name : String} {id : TableId}
    {entry : Registered TableRef} (h : r.lookUp name = .ok (id, entry)) : r.tableId name = id := by
  unfold lookUp at h
  split at h
  · cases h
  · exact congrArg Prod.fst (Except.ok.inj h)

/-- Registering a table changes what is found under its identifier, and nothing else. -/
theorem Registry.get?_of_create {r r' : Registry TableRef} {name : String} {ref : TableRef}
    {id : TableId} (h : r.create name ref = .ok (id, r')) (j : TableId) :
    r'.get? j = if id = j then some ⟨name, ref⟩ else r.get? j := by
  unfold create at h
  split at h
  · cases h
  · split at h
    · cases h
    · cases h
      exact Dict.get?_insert ..

/-- Tables stay apart when one is registered whose place is new. -/
theorem Registry.Apart.create {r r' : Registry TableRef} {name : String} {ref : TableRef}
    {id : TableId} (hapart : r.Apart) (h : r.create name ref = .ok (id, r'))
    (hnew : ∀ id entry, r.get? id = some entry → entry.table < ref) : r'.Apart := by
  intro i j entry entry' hi hj hsame
  rw [get?_of_create h] at hi hj
  split at hi
  · split at hj
    · rename_i heq heq'
      exact heq.symm.trans heq'
    · cases hi
      exact absurd hsame.symm (Nat.ne_of_lt (hnew j entry' hj))
  · split at hj
    · cases hj
      exact absurd hsame (Nat.ne_of_lt (hnew i entry hi))
    · exact hapart i j entry entry' hi hj hsame

namespace Database

variable {registry : Registry TableRef} {store : Array MemoryTable} {s : Statement} {k : Lock.Key}
  {e : WriteEntry} {M : Contents} {table table' : MemoryTable} {entry : Registered TableRef}

/-- What the registered tables of a database hold. -/
abbrev contents (db : Database MemoryTable) : Contents := .of db.registry db.store

/-- Where a database finds the row of a statement. -/
abbrev locate (db : Database MemoryTable) : Statement → Except Error Lock.Key :=
  Serial.locate db.registry db.store

/-- A row that is found belongs to a registered table, which accepts the statement. -/
theorem locate_ok (h : Serial.locate registry store s = .ok k) :
    ∃ entry table, registry.get? k.table = some entry ∧ store[entry.table]? = some table ∧
      table.check s.key s.value? = .ok () ∧ k.row = s.key := by
  unfold Serial.locate at h
  cases hlook : registry.lookUp s.table with
  | error cause =>
    rw [hlook] at h
    cases h
  | ok found =>
    obtain ⟨id, entry⟩ := found
    rw [hlook] at h
    dsimp only at h
    have hget := Registry.get?_of_lookUp hlook
    cases htable : store[entry.table]? with
    | none =>
      rw [htable] at h
      cases h
    | some table =>
      rw [htable] at h
      dsimp only at h
      cases hcheck : table.check s.key s.value? with
      | error cause =>
        rw [hcheck] at h
        cases h
      | ok u =>
        rw [hcheck] at h
        cases h
        exact ⟨entry, table, hget, htable, hcheck, rfl⟩

/-- What a row holds whose table is known. -/
theorem of_eq (hentry : registry.get? k.table = some entry)
    (htable : store[entry.table]? = some table) :
    Contents.of registry store k = table.rows.get? k.row := by
  unfold Contents.of
  rw [hentry, Option.bind_some, htable, Option.bind_some]

/-- Changing one row of one table changes that row of the contents. -/
theorem of_setIfInBounds {id : TableId} {key : Value} {v : Option Value} (hapart : registry.Apart)
    (hentry : registry.get? id = some entry) (htable : store[entry.table]? = some table)
    (hrows : ∀ j, table'.rows.get? j = if key = j then v else table.rows.get? j) :
    Contents.of registry (store.setIfInBounds entry.table table') =
      (Contents.of registry store).set ⟨id, key⟩ v := by
  have hlt : entry.table < store.size := (Array.getElem?_eq_some_iff.mp htable).1
  funext k
  obtain ⟨other, j⟩ := k
  by_cases hid : id = other
  · subst hid
    have hnew : (store.setIfInBounds entry.table table')[entry.table]? = some table' :=
      Array.getElem?_setIfInBounds_self_of_lt hlt
    rw [of_eq hentry hnew, hrows]
    unfold Contents.set
    rw [of_eq hentry htable]
    by_cases hkey : key = j
    · rw [if_pos hkey, if_pos (by rw [hkey])]
    · rw [if_neg hkey, if_neg (fun heq => hkey (congrArg Lock.Key.row heq))]
  · rw [Contents.set_of_ne (fun heq => hid (congrArg Lock.Key.table heq))]
    unfold Contents.of
    cases hother : registry.get? other with
    | none => rfl
    | some entry' =>
      have hne : entry.table ≠ entry'.table := fun heq => hid (hapart _ _ _ _ hentry hother heq)
      rw [Option.bind_some, Option.bind_some, Array.getElem?_setIfInBounds_ne hne]

/-- A change of the rows of a table changes nothing for the checks of statements. -/
theorem locate_setIfInBounds {ref : TableRef} (htable : store[ref]? = some table)
    (hkey : table'.keyKind = table.keyKind) (hvalue : table'.valueKind = table.valueKind) :
    Serial.locate registry (store.setIfInBounds ref table') = Serial.locate registry store := by
  have hlt : ref < store.size := (Array.getElem?_eq_some_iff.mp htable).1
  have hcheck : ∀ key value, table'.check key value = table.check key value := by
    intro key value
    unfold MemoryTable.check
    rw [hkey, hvalue]
  funext s
  unfold Serial.locate
  cases registry.lookUp s.table with
  | error cause => rfl
  | ok found =>
    obtain ⟨id, entry⟩ := found
    dsimp only
    by_cases href : ref = entry.table
    · subst href
      rw [Array.getElem?_setIfInBounds_self_of_lt hlt, htable]
      dsimp only
      rw [hcheck]
    · rw [Array.getElem?_setIfInBounds_ne href]

/-- A table carries out every write of the right kinds but the removal of a row that is not there.
-/
theorem applyWrite_checked (hcheck : table.check e.key e.write.value? = .ok ())
    (hthere : ¬ (e.write = .delete ∧ table.rows.get? e.key = none)) :
    ∃ rows, applyWrite table e = .done { table with rows := rows } ∧
      ∀ j, rows.get? j = if e.key = j then e.write.value? else table.rows.get? j := by
  cases hwrite : e.write with
  | put v =>
    rw [hwrite] at hcheck
    refine ⟨table.rows.insert e.key v, ?_, fun j => Rows.get?_insert ..⟩
    unfold applyWrite
    rw [hwrite]
    show Outcome.ofExcept (table.put e.key v) = _
    rw [MemoryTable.put_eq hcheck]
    rfl
  | delete =>
    rw [hwrite] at hcheck
    refine ⟨table.rows.erase e.key, ?_, fun j => Rows.get?_erase ..⟩
    cases hold : table.rows.get? e.key with
    | none => exact absurd ⟨hwrite, hold⟩ hthere
    | some old =>
      unfold applyWrite
      rw [hwrite]
      show Outcome.ofExcept (table.delete e.key) = _
      rw [MemoryTable.delete_eq hcheck, hold]
      rfl

/-- A checked write that can be replayed can be applied to its table. -/
theorem applyWrite_eq (hapart : registry.Apart)
    (hsource : ∃ s, Serial.locate registry store s = .ok e.place ∧ s.write? = some e.write)
    (hwrite : (Contents.of registry store).write e = some M) :
    ∃ entry table table', registry.get? e.table = some entry ∧ store[entry.table]? = some table ∧
      applyWrite table e = .done table' ∧
      Contents.of registry (store.setIfInBounds entry.table table') = M ∧
      Serial.locate registry (store.setIfInBounds entry.table table') =
        Serial.locate registry store := by
  obtain ⟨s, hlocate, hsame⟩ := hsource
  obtain ⟨entry, table, hentry, htable, hcheck, hrow⟩ := locate_ok hlocate
  have hkey : e.key = s.key := hrow
  have hvalue : e.write.value? = s.value? := by
    cases s with
    | get name key => cases hsame
    | put name key v => rw [← Option.some.inj hsame]; rfl
    | delete name key => rw [← Option.some.inj hsame]; rfl
  rw [← hkey, ← hvalue] at hcheck
  unfold Contents.write at hwrite
  rw [of_eq hentry htable] at hwrite
  split at hwrite
  · cases hwrite
  · -- The replay tells that the row is there if the write removes it.
    rename_i hthere
    cases hwrite
    obtain ⟨rows, hdone, hrows⟩ := applyWrite_checked hcheck hthere
    exact ⟨entry, table, _, hentry, htable, hdone, of_setIfInBounds hapart hentry htable hrows,
      locate_setIfInBounds htable rfl rfl⟩

/-- Checked writes that can be replayed are applied without an error, and the tables hold what the
replay yields. -/
theorem applyPlan_eq (db : Database MemoryTable) (hapart : db.registry.Apart)
    (entries : List WriteEntry) (store : Array MemoryTable)
    (hsource : ∀ e ∈ entries, ∃ s,
      Serial.locate db.registry store s = .ok e.place ∧ s.write? = some e.write)
    (hreplay : Contents.replay entries (.of db.registry store) = some M) :
    ∃ store', applyPlan store (db.plan entries) = (store', .ok []) ∧
      Contents.of db.registry store' = M ∧
      Serial.locate db.registry store' = Serial.locate db.registry store := by
  -- Each write leaves the checks of statements alone, so the later ones find theirs still passed.
  induction entries generalizing store with
  | nil =>
    cases hreplay
    exact ⟨store, rfl, rfl, rfl⟩
  | cons e rest ih =>
    obtain ⟨N, hwrite, hrest⟩ := Option.bind_eq_some_iff.mp hreplay
    obtain ⟨entry, table, table', hentry, htable, hdone, hcontents, hlocate⟩ :=
      applyWrite_eq hapart (hsource e List.mem_cons_self) hwrite
    obtain ⟨store', hplan, hM, hlocate'⟩ := ih (store.setIfInBounds entry.table table')
      (fun f hf => by rw [hlocate]; exact hsource f (List.mem_cons_of_mem _ hf))
      (by rw [hcontents]; exact hrest)
    refine ⟨store', ?_, hM, hlocate'.trans hlocate⟩
    show applyPlan store (⟨e, (db.registry.get? e.table).map Registered.table⟩ :: db.plan rest) = _
    unfold applyPlan
    rw [hentry]
    dsimp only [Option.map_some, Option.bind_some]
    rw [htable]
    dsimp only [Option.map_some]
    rw [hdone]
    exact hplan

end Database

end TxStore
