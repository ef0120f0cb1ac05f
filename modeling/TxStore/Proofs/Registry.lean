import Mathlib.Data.List.Nodup
import Mathlib.Logic.Function.Basic
import TxStore.Registry

/-!
# The registry as a map from names to tables

A registry is meant to be a map from names to tables: a `Catalogue`, with its own `create`, `lookUp`
and `drop`. It is kept by the identifiers of the names, and no operation compares the names
themselves. So a name is answered for as a catalogue would answer exactly as long as no table of
another name has its identifier (`byName_iff`); otherwise that other table is found and dropped in
its place, and the name cannot be given to a table. The hash that is used by default does not
prevent this (`homonyms_misled`).

A registry holds every table under the identifier of its name (`Filed`); each operation keeps to
that, and what it does to the catalogue is read off the entry under the one identifier that it
looks at.
-/

namespace TxStore

variable {τ : Type}

/-- Tables by name. -/
abbrev Catalogue (τ : Type) := String → Option τ

namespace Catalogue

/-- Enters a table. It must have a name, and the name must not be taken. -/
def create (c : Catalogue τ) (name : String) (table : τ) : Except Cause (Catalogue τ) :=
  if name.isEmpty then .error .emptyTableName
  else if (c name).isSome then .error (.tableExists name)
  else .ok (Function.update c name (some table))

/-- The table of a name. -/
def lookUp (c : Catalogue τ) (name : String) : Except Cause (Registered τ) :=
  match c name with
  | none => .error (.tableNotFound name)
  | some table => .ok ⟨name, table⟩

/-- Strikes out the table of a name. -/
def drop (c : Catalogue τ) (name : String) : Except Cause (Registered τ × Catalogue τ) :=
  match c name with
  | none => .error (.tableNotFound name)
  | some table => .ok (⟨name, table⟩, Function.update c name none)

end Catalogue

/-- A call that may change which tables there are. -/
inductive Registry.Call (τ : Type) where
  /-- Registers a table. -/
  | create (name : String) (table : τ)
  /-- Removes a table. -/
  | drop (name : String)

/-- The name that a call gives. -/
def Registry.Call.name : Call τ → String
  | create name _ => name
  | drop name => name

/-- The catalogue after a call; one that fails leaves it as it is. -/
def Catalogue.perform (c : Catalogue τ) : Registry.Call τ → Catalogue τ
  | .create name table => (c.create name table).toOption.getD c
  | .drop name => ((c.drop name).map Prod.snd).toOption.getD c

namespace Registry

variable {r r' : Registry τ} {name : String} {table : τ} {id : TableId} {e other : Registered τ}

/-- The registry after a call; one that fails leaves it as it is. -/
def perform (r : Registry τ) : Call τ → Registry τ
  | .create name table => ((r.create name table).map Prod.snd).toOption.getD r
  | .drop name => ((r.drop name).map Prod.snd).toOption.getD r

/-- The registered tables by their own names. -/
def catalogue (r : Registry τ) : Catalogue τ := fun name =>
  match r.get? (r.tableId name) with
  | none => none
  | some e => if e.name = name then some e.table else none

/-- Whether a name is answered for as a catalogue of the registered tables does. -/
structure ByName (r : Registry τ) (name : String) : Prop where
  /-- A table of this name is registered exactly if none is, and the name is not empty. -/
  create : ∀ table, (r.create name table).map (fun made => made.2.catalogue) =
    r.catalogue.create name table
  /-- The name leads to its table, or to none. -/
  lookUp : (r.lookUp name).map Prod.snd = r.catalogue.lookUp name
  /-- Its table, and no other, is removed. -/
  drop : (r.drop name).map (fun dropped => (dropped.1, dropped.2.catalogue)) =
    r.catalogue.drop name

/-- Whether a table of another name is registered whose name has the same identifier. -/
def Clashes (r : Registry τ) (name : String) : Prop :=
  ∃ id other, r.get? id = some other ∧ other.name ≠ name ∧ r.tableId other.name = r.tableId name

/-- Whether a name for which no table is registered is answered for with the table `other`. -/
structure Misled (r : Registry τ) (name : String) (other : Registered τ) : Prop where
  /-- It has another name. -/
  named : other.name ≠ name
  /-- It is registered. -/
  standing : r.catalogue other.name = some other.table
  /-- No table of the given name is. -/
  absent : r.catalogue name = none
  /-- And yet the name is said to be taken. -/
  create : ∀ table, name ≠ "" → r.create name table = .error (.tableExists name)
  /-- The name leads to the other table. -/
  lookUp : r.lookUp name = .ok (r.tableId name, other)
  /-- The other table is removed. -/
  drop : (r.drop name).map (fun dropped => (dropped.1, dropped.2.catalogue)) =
    .ok (other, Function.update r.catalogue other.name none)

/-! ## Every table is kept under the identifier of its name -/

/-- Whether every table is kept under the identifier of its name. -/
def Filed (r : Registry τ) : Prop :=
  ∀ id e, r.get? id = some e → r.tableId e.name = id

/-- Registering a table changes nothing but what is kept under the identifier of its name, which was
free. -/
theorem create_cases (h : r.create name table = .ok (id, r')) :
    name ≠ "" ∧ id = r.tableId name ∧ r.get? id = none ∧ r'.hasher = r.hasher ∧
      ∀ j, r'.get? j = if id = j then some ⟨name, table⟩ else r.get? j := by
  unfold create at h
  split at h
  · cases h
  · rename_i hname
    split at h
    · cases h
    · rename_i hvacant
      cases h
      refine ⟨fun heq => hname (String.isEmpty_iff.mpr heq), rfl,
        Option.not_isSome_iff_eq_none.mp hvacant, rfl, fun j => Dict.get?_insert ..⟩

/-- A table is registered if it has a name whose identifier is free. -/
theorem create_of_vacant (hname : name ≠ "") (hvacant : r.get? (r.tableId name) = none)
    (table : τ) : r.create name table = .ok (r.tableId name,
      { r with tables := r.tables.insert (r.tableId name) ⟨name, table⟩ }) := by
  have hempty : ¬ name.isEmpty := fun hempty => hname (String.isEmpty_iff.mp hempty)
  have hfree : ¬ r.tables.contains (r.tableId name) := Option.not_isSome_iff_eq_none.mpr hvacant
  unfold create
  rw [if_neg hempty, if_neg hfree]

/-- Removing a table changes nothing but what was kept under the identifier of the given name. -/
theorem drop_cases (h : r.drop name = .ok (e, r')) :
    r.get? (r.tableId name) = some e ∧ r'.hasher = r.hasher ∧
      ∀ j, r'.get? j = if r.tableId name = j then none else r.get? j := by
  unfold drop at h
  split at h
  · cases h
  · rename_i hfound
    cases h
    exact ⟨hfound, rfl, fun j => Dict.get?_erase ..⟩

/-- A call that changes a registry succeeds. -/
theorem perform_cases (r : Registry τ) (call : Call τ) :
    r.perform call = r ∨ (∃ name table id, r.create name table = .ok (id, r.perform call)) ∨
      ∃ name e, r.drop name = .ok (e, r.perform call) := by
  cases call with
  | create name table =>
    simp only [perform]
    cases hmade : r.create name table with
    | error cause => exact .inl rfl
    | ok made => exact .inr (.inl ⟨name, table, made.1, hmade⟩)
  | drop name =>
    simp only [perform]
    cases hdropped : r.drop name with
    | error cause => exact .inl rfl
    | ok dropped => exact .inr (.inr ⟨name, dropped.1, hdropped⟩)

/-- The way in which identifiers are derived stays the same. -/
theorem hasher_perform (r : Registry τ) (call : Call τ) : (r.perform call).hasher = r.hasher := by
  rcases r.perform_cases call with heq | ⟨name, table, id, hmade⟩ | ⟨name, e, hdropped⟩
  · rw [heq]
  · exact (create_cases hmade).2.2.2.1
  · exact (drop_cases hdropped).2.1

/-- Every call keeps the tables where their names say. -/
theorem Filed.perform (h : r.Filed) (call : Call τ) : (r.perform call).Filed := by
  intro id e he
  have hid : ∀ n, (r.perform call).tableId n = r.tableId n := fun n =>
    congrArg (Hasher.tableId · n) (r.hasher_perform call)
  rw [hid]
  rcases r.perform_cases call with heq | ⟨name, table, id', hmade⟩ | ⟨name, dropped, hdropped⟩
  · rw [heq] at he
    exact h id e he
  · obtain ⟨-, rfl, -, -, hget⟩ := create_cases hmade
    rw [hget] at he
    split at he
    · rename_i heq
      cases he
      exact heq
    · exact h id e he
  · rw [(drop_cases hdropped).2.2] at he
    split at he
    · cases he
    · exact h id e he

/-- A registry without tables keeps none in a wrong place. -/
theorem filed_empty (hasher : Hasher) : (empty hasher : Registry τ).Filed := by
  intro id e he
  cases he

/-- After any calls every table is kept under the identifier of its name. -/
theorem filed_foldl (hasher : Hasher) (calls : List (Call τ)) :
    (calls.foldl perform (empty hasher)).Filed := by
  suffices h : ∀ r : Registry τ, r.Filed → (calls.foldl perform r).Filed from
    h (empty hasher) (filed_empty hasher)
  induction calls with
  | nil => exact fun _ h => h
  | cons call rest ih => exact fun r h => ih (r.perform call) (h.perform call)

/-! ## What a name leads to -/

/-- The catalogue has a table under a name if the name's identifier leads to it and the table has
that name. -/
theorem catalogue_eq_some_iff :
    r.catalogue name = some table ↔ r.get? (r.tableId name) = some ⟨name, table⟩ := by
  unfold catalogue
  cases hget : r.get? (r.tableId name) with
  | none => simp
  | some e =>
    obtain ⟨n, t⟩ := e
    simp

/-- The catalogue has a registered table under the table's name. -/
theorem Filed.catalogue_eq_some (h : r.Filed) (he : r.get? id = some e) :
    r.catalogue e.name = some e.table :=
  catalogue_eq_some_iff.mpr ((h id e he).symm ▸ he)

/-- A name clashes exactly if its identifier leads to a table of another name. -/
theorem Filed.clashes_iff (h : r.Filed) :
    r.Clashes name ↔ ∃ other, r.get? (r.tableId name) = some other ∧ other.name ≠ name := by
  constructor
  · rintro ⟨id, other, hother, hname, hid⟩
    exact ⟨other, by rw [← hid, h id other hother, hother], hname⟩
  · rintro ⟨other, hother, hname⟩
    exact ⟨_, other, hother, hname, h _ other hother⟩

/-- Registering a table enters it in the catalogue. -/
theorem catalogue_of_create (h : r.create name table = .ok (id, r')) :
    r'.catalogue = Function.update r.catalogue name (some table) := by
  obtain ⟨-, rfl, hvacant, hhasher, hget⟩ := create_cases h
  funext n
  have hid : r'.tableId n = r.tableId n := congrArg (Hasher.tableId · n) hhasher
  simp only [catalogue, hid, hget]
  by_cases hsame : r.tableId name = r.tableId n
  · rw [if_pos hsame]
    by_cases hname : n = name
    · simp [hname]
    · -- The identifier was free, so no other name with it had a table.
      have hnone : r.catalogue n = none := by simp only [catalogue, ← hsame, hvacant]
      rw [Function.update_of_ne hname, hnone]
      simp only [if_neg (Ne.symm hname)]
  · have hname : n ≠ name := fun heq => hsame (congrArg r.tableId heq.symm)
    rw [if_neg hsame, Function.update_of_ne hname]
    rfl

/-- Removing a table strikes it out of the catalogue, under its own name. -/
theorem Filed.catalogue_of_drop (hfiled : r.Filed) (h : r.drop name = .ok (e, r')) :
    r'.catalogue = Function.update r.catalogue e.name none := by
  obtain ⟨hfound, hhasher, hget⟩ := drop_cases h
  have hown : r.tableId e.name = r.tableId name := hfiled _ e hfound
  funext n
  have hid : r'.tableId n = r.tableId n := congrArg (Hasher.tableId · n) hhasher
  simp only [catalogue, hid, hget]
  by_cases hsame : r.tableId name = r.tableId n
  · rw [if_pos hsame]
    by_cases hname : n = e.name
    · rw [hname, Function.update_self]
    · -- The identifier led to the table that is removed, so no other name with it had one.
      have hnone : r.catalogue n = none := by
        simp only [catalogue, ← hsame, hfound, if_neg (Ne.symm hname)]
      rw [Function.update_of_ne hname, hnone]
  · have hname : n ≠ e.name := fun heq => hsame (heq ▸ hown.symm)
    rw [if_neg hsame, Function.update_of_ne hname]
    rfl

/-! ## Names that clash, and names that do not -/

/-- A name whose identifier is free is answered for by the catalogue. -/
theorem byName_of_vacant (hvacant : r.get? (r.tableId name) = none) : r.ByName name := by
  have hnone : r.catalogue name = none := by simp only [catalogue, hvacant]
  refine ⟨fun table => ?_, ?_, ?_⟩
  · cases hmade : r.create name table with
    | ok made =>
      have hname : ¬ name.isEmpty := fun hempty =>
        (create_cases hmade).1 (String.isEmpty_iff.mp hempty)
      simp only [Catalogue.create, hnone, Except.map, catalogue_of_create hmade, if_neg hname,
        Option.isSome_none, Bool.false_eq_true, if_false]
    | error cause =>
      have hfree : r.tables.contains (r.tableId name) = false := by
        rw [Dict.contains, show r.tables.get? (r.tableId name) = none from hvacant]
        rfl
      unfold create at hmade
      simp only [hfree, Bool.false_eq_true, if_false] at hmade
      split at hmade
      · rename_i hempty
        cases hmade
        simp only [Catalogue.create, hempty, if_true, Except.map]
      · cases hmade
  · simp only [lookUp, hvacant, Catalogue.lookUp, hnone, Except.map]
  · simp only [drop, hvacant, Catalogue.drop, hnone, Except.map]

/-- A name whose identifier is taken cannot be given to a table. -/
theorem create_of_taken (hfound : r.get? (r.tableId name) = some e) (table : τ) :
    r.create name table =
      if name.isEmpty then .error .emptyTableName else .error (.tableExists name) := by
  have htaken : r.tables.contains (r.tableId name) = true := by
    rw [Dict.contains, show r.tables.get? (r.tableId name) = some e from hfound]
    rfl
  unfold create
  rw [if_pos htaken]

/-- The table to which a name's identifier leads is removed. -/
theorem Filed.drop_of_found (h : r.Filed) (hfound : r.get? (r.tableId name) = some e) :
    (r.drop name).map (fun dropped => (dropped.1, dropped.2.catalogue)) =
      .ok (e, Function.update r.catalogue e.name none) := by
  cases hdropped : r.drop name with
  | error cause =>
    simp only [drop, hfound] at hdropped
    cases hdropped
  | ok dropped =>
    obtain rfl : e = dropped.1 :=
      Option.some_inj.mp (hfound.symm.trans (drop_cases hdropped).1)
    simp only [Except.map, h.catalogue_of_drop hdropped]

/-- A name whose identifier leads to its table is answered for by the catalogue. -/
theorem Filed.byName_of_found (h : r.Filed)
    (hfound : r.get? (r.tableId name) = some ⟨name, table⟩) : r.ByName name := by
  have hsome : r.catalogue name = some table := catalogue_eq_some_iff.mpr hfound
  refine ⟨fun other => ?_, ?_, ?_⟩
  · rw [create_of_taken hfound, Catalogue.create, hsome]
    split
    · rfl
    · rfl
  · simp only [lookUp, hfound, Catalogue.lookUp, hsome, Except.map]
  · rw [h.drop_of_found hfound, Catalogue.drop, hsome]

/-- A name that clashes is answered for with a table of another name. -/
theorem Filed.misled (h : r.Filed) (hfound : r.get? (r.tableId name) = some other)
    (hname : other.name ≠ name) : r.Misled name other where
  named := hname
  standing := h.catalogue_eq_some hfound
  absent := by simp only [catalogue, hfound, if_neg hname]
  create table hnonempty := by
    rw [create_of_taken hfound, if_neg fun hempty => hnonempty (String.isEmpty_iff.mp hempty)]
  lookUp := by simp only [lookUp, hfound]
  drop := h.drop_of_found hfound

/-- Whoever is misled is not answered by the catalogue. -/
theorem Misled.not_byName (h : r.Misled name other) : ¬ r.ByName name := by
  intro hbyName
  have hlookUp := hbyName.lookUp
  rw [h.lookUp, Catalogue.lookUp, h.absent] at hlookUp
  cases hlookUp

/-- A name is answered for by the catalogue, or with a table of another name. -/
theorem Filed.byName_or_misled (h : r.Filed) (name : String) :
    ¬ r.Clashes name ∧ r.ByName name ∨ r.Clashes name ∧ ∃ other, r.Misled name other := by
  cases hfound : r.get? (r.tableId name) with
  | none =>
    refine .inl ⟨fun hclash => ?_, byName_of_vacant hfound⟩
    obtain ⟨other, hother, -⟩ := h.clashes_iff.mp hclash
    cases hfound.symm.trans hother
  | some other =>
    by_cases hname : other.name = name
    · subst hname
      refine .inl ⟨fun hclash => ?_, h.byName_of_found hfound⟩
      obtain ⟨other', hother', hname'⟩ := h.clashes_iff.mp hclash
      cases hfound.symm.trans hother'
      exact hname' rfl
    · exact .inr ⟨h.clashes_iff.mpr ⟨other, hfound, hname⟩, other, h.misled hfound hname⟩

/-- A call whose name does not clash changes the catalogue as it would change any catalogue. -/
theorem ByName.catalogue_perform {call : Call τ} (h : r.ByName call.name) :
    (r.perform call).catalogue = r.catalogue.perform call := by
  cases call with
  | create name table =>
    have hcreate := h.create table
    simp only [Call.name] at hcreate
    simp only [perform, Catalogue.perform, ← hcreate]
    cases r.create name table with
    | error cause => rfl
    | ok made => rfl
  | drop name =>
    have hdrop := h.drop
    simp only [Call.name] at hdrop
    simp only [perform, Catalogue.perform, ← hdrop]
    cases r.drop name with
    | error cause => rfl
    | ok dropped => rfl

/-- Calls whose names do not clash change the catalogue as they would change any catalogue. -/
theorem Filed.catalogue_foldl {calls : List (Call τ)} (h : r.Filed)
    (hclear : ∀ before call after, calls = before ++ call :: after →
      ¬ (before.foldl Registry.perform r).Clashes call.name) :
    (calls.foldl Registry.perform r).catalogue = calls.foldl Catalogue.perform r.catalogue := by
  -- The induction is on the calls that are to come, for all registries they may start from.
  induction calls generalizing r with
  | nil => rfl
  | cons call rest ih =>
    have hcall : r.ByName call.name :=
      ((h.byName_or_misled call.name).resolve_right fun hclash =>
        hclear [] call rest rfl hclash.1).2
    rw [List.foldl_cons, List.foldl_cons, ← hcall.catalogue_perform]
    refine ih (h.perform call) fun before other after heq => ?_
    exact hclear (call :: before) other after (by rw [heq, List.cons_append])

/-! ## The list of names -/

/-- The names that a registry lists are sorted. -/
theorem names_sorted (r : Registry τ) : r.names.Pairwise (· ≤ ·) := by
  have htrans : ∀ a b c : String, decide (a ≤ b) → decide (b ≤ c) → decide (a ≤ c) :=
    fun a b c hab hbc =>
      decide_eq_true (String.le_trans (of_decide_eq_true hab) (of_decide_eq_true hbc))
  have htotal : ∀ a b : String, decide (a ≤ b) || decide (b ≤ a) := fun a b => by
    simpa using String.le_total a b
  exact (List.pairwise_mergeSort htrans htotal _).imp of_decide_eq_true

/-- A name is listed exactly if a table of that name is kept. -/
theorem mem_names_iff : name ∈ r.names ↔ ∃ entry ∈ r.tables.entries, entry.2.name = name := by
  rw [names, List.mem_mergeSort, Dict.values, List.map_map, List.mem_map]
  rfl

/-- No name is listed twice. -/
theorem Filed.names_nodup (h : r.Filed) : r.names.Nodup := by
  -- The identifiers of the listed names are the keys of the map, and each of these is there once.
  have hids : (r.tables.values.map Registered.name).map r.tableId = r.tables.keys := by
    rw [Dict.values, List.map_map, List.map_map]
    exact List.map_congr_left fun entry hmem => h entry.1 entry.2 (Dict.get?_eq_some_iff.mpr hmem)
  have hnodup : (r.tables.values.map Registered.name).Nodup :=
    List.Nodup.of_map r.tableId (hids ▸ r.tables.nodup_keys)
  exact (List.mergeSort_perm _ _).nodup_iff.mpr hnodup

/-- The names that a registry lists are those in the catalogue. -/
theorem Filed.mem_names (h : r.Filed) : name ∈ r.names ↔ (r.catalogue name).isSome := by
  rw [mem_names_iff, Option.isSome_iff_exists]
  constructor
  · rintro ⟨⟨id, e⟩, hmem, rfl⟩
    exact ⟨e.table, h.catalogue_eq_some (Dict.get?_eq_some_iff.mpr hmem)⟩
  · rintro ⟨table, htable⟩
    exact ⟨_, Dict.get?_eq_some_iff.mp (catalogue_eq_some_iff.mp htable), rfl⟩

/-- After any calls, with any way of deriving identifiers: a name is answered for by the catalogue
of the registered tables exactly if it does not clash, and otherwise with a table of another name;
the names are listed in order, each once; and if no name clashed with the tables that were
registered when it was given, the catalogue is the one that the same calls make of an empty one. -/
theorem byName_iff (hasher : Hasher) (calls : List (Call τ)) :
    let r := calls.foldl perform (empty hasher)
    (∀ name, r.ByName name ↔ ¬ r.Clashes name) ∧
    (∀ name, r.Clashes name → ∃ other, r.Misled name other) ∧
    (r.names.Pairwise (· ≤ ·) ∧ r.names.Nodup ∧
      ∀ name, name ∈ r.names ↔ (r.catalogue name).isSome) ∧
    ((∀ before call after, calls = before ++ call :: after →
        ¬ (before.foldl perform (empty hasher)).Clashes call.name) →
      r.catalogue = calls.foldl Catalogue.perform fun _ => none) := by
  intro r
  have hfiled : r.Filed := filed_foldl hasher calls
  refine ⟨fun name => ?_, fun name hclash => ?_,
    ⟨r.names_sorted, hfiled.names_nodup, fun name => hfiled.mem_names⟩, fun hclear => ?_⟩
  · rcases hfiled.byName_or_misled name with ⟨hclear, hbyName⟩ | ⟨hclash, other, hmisled⟩
    · exact iff_of_true hbyName hclear
    · exact iff_of_false hmisled.not_byName fun hclear => hclear hclash
  · exact ((hfiled.byName_or_misled name).resolve_left fun h => h.1 hclash).2
  · exact (filed_empty hasher).catalogue_foldl hclear

/-! ## Two names with one hash -/

/-- A name of a table. -/
def homonym : String := "8yn0iYCKYHlIj4-BwPqk"

/-- Another name that has the same FNV-1a hash. -/
def homonym' : String := "GReLUrM4wMqfg9yzV3KQ"

/-- With the hash that is used by default, the other name leads to the table of the first. -/
theorem homonyms_misled :
    ¬ ∀ (hasher : Hasher) (calls : List (Call Unit)) (name : String),
      (calls.foldl perform (empty hasher)).ByName name := by
  intro hbyName
  let calls : List (Call Unit) := [.create homonym ()]
  have hfiled : (calls.foldl perform (empty .fnv1a)).Filed := filed_foldl _ _
  have hfound : (calls.foldl perform (empty .fnv1a)).get? (Hasher.fnv1a.tableId homonym') =
      some ⟨homonym, ()⟩ := by decide +kernel
  exact (hfiled.misled hfound (by decide)).not_byName (hbyName .fnv1a calls homonym')

/-- The second name is given to a table after the first one has been freed. No call clashes, but the
first name now leads to the table of the second. -/
theorem byName_iff_homonyms :
    let calls : List (Call Nat) := [.create homonym 1, .drop homonym, .create homonym' 2]
    let r := calls.foldl perform (empty .fnv1a)
    r.catalogue = (calls.foldl Catalogue.perform fun _ => none) ∧ r.names = [homonym'] ∧
      ¬ r.ByName homonym := by
  intro calls r
  have hfiled : ∀ before : List (Call Nat), (before.foldl perform (empty .fnv1a)).Filed :=
    fun before => filed_foldl _ _
  have hclear : ∀ before call after, calls = before ++ call :: after →
      ¬ (before.foldl perform (empty .fnv1a)).Clashes call.name := by
    intro before call after heq hclash
    obtain ⟨other, hfound, hname⟩ := (hfiled before).clashes_iff.mp hclash
    -- Each of the three calls finds a free identifier or its own table.
    rcases before with _ | ⟨first, _ | ⟨second, _ | ⟨third, rest⟩⟩⟩ <;>
      simp only [calls, List.nil_append, List.cons_append, List.cons.injEq] at heq
    · cases hfound
    · obtain ⟨rfl, rfl, -⟩ := heq
      have hown : ([.create homonym 1].foldl perform (empty .fnv1a)).get?
          (Hasher.fnv1a.tableId homonym) = some ⟨homonym, 1⟩ := by decide +kernel
      cases hown.symm.trans hfound
      exact hname rfl
    · obtain ⟨rfl, rfl, rfl, -⟩ := heq
      have hfree : ([.create homonym 1, .drop homonym].foldl perform (empty .fnv1a)).get?
          (Hasher.fnv1a.tableId homonym') = none := by decide +kernel
      cases hfree.symm.trans hfound
    · simp at heq
  obtain ⟨hiff, -, -, hcatalogue⟩ := byName_iff .fnv1a calls
  have hclash : r.Clashes homonym :=
    ⟨Hasher.fnv1a.tableId homonym', ⟨homonym', 2⟩, by decide +kernel, by decide, by decide +kernel⟩
  exact ⟨hcatalogue hclear, by decide +kernel, fun hbyName => (hiff homonym).mp hbyName hclash⟩

end Registry

end TxStore
