import Mathlib.Data.List.Perm.Basic
import TxStore.Proofs.Database.Attempts
import TxStore.Proofs.Registry
import TxStore.Proofs.Transaction.Edits
import TxStore.Table.Basic

/-!
# Applying a buffer is replaying the writes in the order in which they were made

A commit applies the entries of a write buffer, table by table. It might as well apply the pending
writes in the order in which they were made: a write looks at its own table and changes only that
one, so two writes that go to different tables can be exchanged, whether they are done or fail
(`tryBoth_comm`). Each write that is added to a buffer is placed before writes of other tables
only, and so it can be moved behind them (`Agree.move`). Where nothing fails, every row is left
with what the newest write of the buffer says (`grouped_replay_agrees`).

A table that breaks off ends a replay where it happens, which is early in one order and late in the
other. It does so in both orders or in neither.
-/

namespace TxStore

/-- The rows of a table that keeps any. -/
def Table.rows? (t : Table) : Option (Value → Option Value) :=
  t.memory?.map fun m => m.rows.get?

namespace Database

variable {σ : Type} [Backend σ] {store store' : Array σ} {w f : PlannedWrite}
  {causes causes' : List Cause} {e : WriteEntry}

/-! ## One write -/

/-- What becomes of the table of a write: the changed table, if the write is done, and what is
reported. There is only a text if the table breaks off. -/
def tryAt (table : Option σ) (e : WriteEntry) : Except String (Option σ × List Cause) :=
  match table with
  | none => .ok (none, [.tableNotFound e.table.display])
  | some t =>
    match applyWrite t e with
    | .done t' => .ok (some t', [])
    | .failed cause => .ok (none, [.table cause])
    | .broken text => .error text

omit [Backend σ] in
/-- The table that a write goes to. -/
def tableOf? (store : Array σ) (w : PlannedWrite) : Option σ :=
  w.table.bind fun ref => store[ref]?

omit [Backend σ] in
/-- Puts a changed table in the place of the one that a write goes to. -/
def putBack (store : Array σ) (w : PlannedWrite) (changed : Option σ) : Array σ :=
  match w.table, changed with
  | some ref, some t => store.setIfInBounds ref t
  | _, _ => store

/-- What becomes of all tables, and what is reported, if a write does not break off. -/
def tryWrite (store : Array σ) (w : PlannedWrite) : Except String (Array σ × List Cause) :=
  (tryAt (tableOf? store w) w.entry).map fun r => (putBack store w r.1, r.2)

/-- Applying a plan is trying its first write and then applying the others. -/
theorem applyPlan_cons (store : Array σ) (w : PlannedWrite) (rest : List PlannedWrite) :
    applyPlan store (w :: rest) =
      match tryWrite store w with
      | .error text => (store, .error text)
      | .ok (mid, causes) =>
        ((applyPlan mid rest).1, (applyPlan mid rest).2.map (causes ++ ·)) := by
  unfold tryWrite tableOf? putBack
  rw [applyPlan]
  cases w.table with
  | none => rfl
  | some ref =>
    simp only [Option.bind_some]
    cases store[ref]? with
    | none => rfl
    | some table =>
      simp only [Option.map_some, tryAt]
      cases applyWrite table w.entry with
      | done table' => exact Prod.ext rfl (map_nil_append _).symm
      | failed cause => rfl
      | broken text => rfl

/-- A write that breaks off goes to a table that does. -/
theorem tryWrite_error {text : String} (h : tryWrite store w = .error text) :
    ∃ table : σ, applyWrite table w.entry = .broken text := by
  unfold tryWrite at h
  cases htry : tryAt (tableOf? store w) w.entry with
  | ok r =>
    rw [htry] at h
    cases h
  | error text' =>
    rw [htry] at h
    cases h
    unfold tryAt at htry
    split at htry
    · cases htry
    · rename_i table _
      split at htry
      · cases htry
      · cases htry
      · rename_i happly
        cases htry
        exact ⟨table, happly⟩

/-- Where no table ever breaks off, no replay does. -/
theorem applyPlan_eq_ok (h : ∀ (table : σ) e text, applyWrite table e ≠ .broken text)
    (store : Array σ) (plan : List PlannedWrite) :
    ∃ causes, (applyPlan store plan).2 = .ok causes := by
  induction plan generalizing store with
  | nil => exact ⟨[], rfl⟩
  | cons w rest ih =>
    rw [applyPlan_cons]
    cases htry : tryWrite store w with
    | error text =>
      obtain ⟨table, happly⟩ := tryWrite_error htry
      exact absurd happly (h table w.entry text)
    | ok r =>
      obtain ⟨causes, hrest⟩ := ih r.1
      exact ⟨r.2 ++ causes, congrArg (Except.map (r.2 ++ ·)) hrest⟩

/-- Whether two writes go to different tables, if they go to any. -/
def Aloof (w f : PlannedWrite) : Prop :=
  ∀ ref, w.table = some ref → f.table ≠ some ref

omit [Backend σ] in
/-- This is symmetric. -/
theorem Aloof.symm (h : Aloof w f) : Aloof f w :=
  fun ref hf hw => h ref hw hf

omit [Backend σ] in
/-- A changed table is not the one that another write goes to. -/
theorem tableOf?_putBack (h : Aloof w f) (store : Array σ) (changed : Option σ) :
    tableOf? (putBack store w changed) f = tableOf? store f := by
  unfold tableOf? putBack
  cases hf : f.table with
  | none => rfl
  | some ref =>
    split
    · rename_i ref' t hw
      have hne : ref' ≠ ref := fun heq => h ref' hw (heq ▸ hf)
      exact Array.getElem?_setIfInBounds_ne hne
    · rfl

omit [Backend σ] in
/-- Two changed tables are put back in either order. -/
theorem putBack_comm (h : Aloof w f) (store : Array σ) (changed changed' : Option σ) :
    putBack (putBack store w changed) f changed' =
      putBack (putBack store f changed') w changed := by
  unfold putBack
  cases hw : w.table with
  | none => rfl
  | some ref =>
    cases hf : f.table with
    | none => rfl
    | some ref' =>
      have hne : ref ≠ ref' := fun heq => h ref hw (heq ▸ hf)
      cases changed with
      | none => rfl
      | some t =>
        cases changed' with
        | none => rfl
        | some t' => exact Array.setIfInBounds_comm t t' hne

/-- What becomes of all tables, and what each of two writes reports, if none breaks off. -/
def tryBoth (store : Array σ) (w f : PlannedWrite) : Option (Array σ × List Cause × List Cause) :=
  (tryWrite store w).toOption.bind fun r =>
    (tryWrite r.1 f).toOption.map fun r' => (r'.1, r.2, r'.2)

/-- A write that goes to another table does the same after this one as before. -/
theorem tryBoth_comm (h : Aloof w f) (store : Array σ) :
    tryBoth store f w = (tryBoth store w f).map fun r => (r.1, r.2.2, r.2.1) := by
  unfold tryBoth tryWrite
  cases hw : tryAt (tableOf? store w) w.entry with
  | error text =>
    cases hf : tryAt (tableOf? store f) f.entry with
    | error text' => rfl
    | ok r' =>
      simp only [Except.map, Except.toOption, Option.bind_some, tableOf?_putBack h.symm, hw]
      rfl
  | ok r =>
    simp only [Except.map, Except.toOption, Option.bind_some, tableOf?_putBack h]
    cases hf : tryAt (tableOf? store f) f.entry with
    | error text' => rfl
    | ok r' =>
      simp only [Option.bind_some, Option.map_some, tableOf?_putBack h.symm, hw,
        putBack_comm h.symm]

/-- A plan breaks off if one of its first two writes does. -/
theorem applyPlan_of_tryBoth_none (h : tryBoth store w f = none) (rest : List PlannedWrite) :
    ∃ text, (applyPlan store (w :: f :: rest)).2 = .error text := by
  unfold tryBoth at h
  rw [applyPlan_cons]
  cases hw : tryWrite store w with
  | error text => exact ⟨text, rfl⟩
  | ok r =>
    rw [hw] at h
    cases hf : tryWrite r.1 f with
    | ok r' =>
      simp only [Except.toOption, Option.bind_some, hf] at h
      cases h
    | error text =>
      refine ⟨text, ?_⟩
      show (applyPlan r.1 (f :: rest)).2.map _ = _
      rw [applyPlan_cons, hf]
      rfl

/-- A plan goes on after its first two writes with what they have left, if none breaks off. -/
theorem applyPlan_of_tryBoth_some {both : Array σ}
    (h : tryBoth store w f = some (both, causes, causes')) (rest : List PlannedWrite) :
    applyPlan store (w :: f :: rest) =
      ((applyPlan both rest).1, (applyPlan both rest).2.map ((causes ++ causes') ++ ·)) := by
  unfold tryBoth at h
  rw [applyPlan_cons]
  cases hw : tryWrite store w with
  | error text =>
    rw [hw] at h
    cases h
  | ok r =>
    obtain ⟨mid, causes⟩ := r
    rw [hw] at h
    show ((applyPlan mid (f :: rest)).1, (applyPlan mid (f :: rest)).2.map _) = _
    rw [applyPlan_cons]
    cases hf : tryWrite mid f with
    | error text =>
      simp only [Except.toOption, Option.bind_some, hf] at h
      cases h
    | ok r' =>
      simp only [Except.toOption, Option.bind_some, hf] at h
      cases h
      show (_, ((applyPlan r'.1 rest).2.map _).map _) = _
      cases (applyPlan r'.1 rest).2 with
      | error text => rfl
      | ok reported => exact congrArg (fun all => (_, Except.ok all)) (List.append_assoc ..).symm

/-! ## Plans in different orders -/

/-- Whether two replays come to the same: both break off, or both leave the tables alike and report
the same errors, in some order. -/
inductive Agree :
    Array σ × Except String (List Cause) → Array σ × Except String (List Cause) → Prop
  /-- Neither breaks off. -/
  | whole (store : Array σ) {causes causes' : List Cause} (perm : causes.Perm causes') :
      Agree (store, .ok causes) (store, .ok causes')
  /-- Both break off. -/
  | broken (store store' : Array σ) (text text' : String) :
      Agree (store, .error text) (store', .error text')

namespace Agree

variable {r r' r'' : Array σ × Except String (List Cause)} {p p' rest : List PlannedWrite}

omit [Backend σ] in
/-- A replay comes to the same as itself. -/
theorem refl (r : Array σ × Except String (List Cause)) : Agree r r := by
  obtain ⟨store, report⟩ := r
  cases report with
  | error text => exact .broken store store text text
  | ok causes => exact .whole store (.refl causes)

omit [Backend σ] in
/-- This is symmetric. -/
theorem symm (h : Agree r r') : Agree r' r := by
  cases h with
  | whole store perm => exact .whole store perm.symm
  | broken store store' text text' => exact .broken store' store text' text

omit [Backend σ] in
/-- Replays that come to the same as a third come to the same. -/
theorem trans (h : Agree r r') (h' : Agree r' r'') : Agree r r'' := by
  cases h with
  | whole store perm =>
    cases h' with
    | whole _ perm' => exact .whole store (perm.trans perm')
  | broken store store' text text' =>
    cases h' with
    | broken _ store'' _ text'' => exact .broken store store'' text text''

omit [Backend σ] in
/-- If one reports no errors, there is no difference. -/
theorem eq_of_nil (h : Agree r r') (hnil : r'.2 = .ok []) : r = r' := by
  cases h with
  | whole store perm =>
    cases hnil
    rw [perm.eq_nil]
  | broken => cases hnil

omit [Backend σ] in
/-- If one does not break off, both leave the tables alike. -/
theorem fst_eq (h : Agree r r') (hwhole : r.2 = .ok causes) : r.1 = r'.1 := by
  cases h with
  | whole store perm => rfl
  | broken => cases hwhole

/-- Plans that come to the same do so after a write. -/
theorem cons (h : ∀ store : Array σ, Agree (applyPlan store p) (applyPlan store p'))
    (w : PlannedWrite) (store : Array σ) :
    Agree (applyPlan store (w :: p)) (applyPlan store (w :: p')) := by
  rw [applyPlan_cons, applyPlan_cons]
  cases tryWrite store w with
  | error text => exact .refl _
  | ok r =>
    obtain ⟨mid, causes⟩ := r
    have hrest := h mid
    dsimp only
    generalize applyPlan mid p = r at hrest
    generalize applyPlan mid p' = r' at hrest
    cases hrest with
    | whole store perm => exact .whole store (perm.append_left causes)
    | broken store store' text text' => exact .broken store store' text text'

/-- Plans that come to the same do so after other writes. -/
theorem append (h : ∀ store : Array σ, Agree (applyPlan store p) (applyPlan store p'))
    (before : List PlannedWrite) (store : Array σ) :
    Agree (applyPlan store (before ++ p)) (applyPlan store (before ++ p')) := by
  induction before generalizing store with
  | nil => exact h store
  | cons w rest ih => exact cons ih w store

/-- Writes that go to different tables can be exchanged. -/
theorem swap (h : Aloof w f) (rest : List PlannedWrite) (store : Array σ) :
    Agree (applyPlan store (w :: f :: rest)) (applyPlan store (f :: w :: rest)) := by
  have hcomm := tryBoth_comm h store
  cases hboth : tryBoth store w f with
  | none =>
    rw [hboth, Option.map_none] at hcomm
    obtain ⟨text, hbreaks⟩ := applyPlan_of_tryBoth_none hboth rest
    obtain ⟨text', hbreaks'⟩ := applyPlan_of_tryBoth_none hcomm rest
    generalize applyPlan store (w :: f :: rest) = r at hbreaks
    generalize applyPlan store (f :: w :: rest) = r' at hbreaks'
    obtain ⟨store, report⟩ := r
    obtain ⟨store', report'⟩ := r'
    cases hbreaks
    cases hbreaks'
    exact .broken store store' text text'
  | some r =>
    obtain ⟨both, causes, causes'⟩ := r
    rw [hboth, Option.map_some] at hcomm
    rw [applyPlan_of_tryBoth_some hboth, applyPlan_of_tryBoth_some hcomm]
    -- The replays differ in the order of what the two writes report.
    generalize applyPlan both rest = r
    obtain ⟨last, report⟩ := r
    cases report with
    | error text => exact .broken last last text text
    | ok reported => exact .whole last (List.perm_append_comm.append_right reported)

/-- A write can be moved behind writes that go to other tables. -/
theorem move {after : List PlannedWrite} (h : ∀ f ∈ after, Aloof w f) (rest : List PlannedWrite)
    (store : Array σ) :
    Agree (applyPlan store (w :: (after ++ rest))) (applyPlan store (after ++ w :: rest)) := by
  induction after generalizing store with
  | nil => exact .refl _
  | cons f after ih =>
    have hbehind := cons (ih fun g hg => h g (List.mem_cons_of_mem _ hg)) f store
    exact (swap (h f List.mem_cons_self) (after ++ rest) store).trans hbehind

end Agree

omit [Backend σ] in
/-- Writes of different tables go to different places, if the registered tables are kept apart. -/
theorem aloof_of_table_ne (db : Database σ) (hapart : db.registry.Apart) {e f : WriteEntry}
    (h : e.table ≠ f.table) :
    Aloof ⟨e, (db.registry.get? e.table).map Registered.table⟩
      ⟨f, (db.registry.get? f.table).map Registered.table⟩ := by
  intro ref he hf
  obtain ⟨entry, hentry, rfl⟩ := Option.map_eq_some_iff.mp he
  obtain ⟨entry', hentry', heq⟩ := Option.map_eq_some_iff.mp hf
  exact h (hapart _ _ _ _ hentry hentry' heq.symm)

/-- Replaying the entries of a buffer comes to the same as replaying the writes that were added to
it, in the order in which they were. -/
theorem agree_appendAll (db : Database σ) (hapart : db.registry.Apart) (writes : List WriteEntry)
    (store : Array σ) :
    Agree (applyPlan store (db.plan (WriteBuffer.empty.appendAll writes).entries))
      (applyPlan store (db.plan writes)) := by
  -- The induction is on the writes that have been added, with others that are yet to be replayed.
  have hrest : ∀ (rest : List PlannedWrite) (store : Array σ),
      Agree (applyPlan store (db.plan (WriteBuffer.empty.appendAll writes).entries ++ rest))
        (applyPlan store (db.plan writes ++ rest)) := by
    induction writes using List.reverseRecOn with
    | nil => exact fun _ _ => .refl _
    | append_singleton writes e ih =>
      intro rest store
      have hascending : WriteBuffer.Ascending (WriteBuffer.empty.appendAll writes).groups :=
        WriteBuffer.ascending_appendAll List.Pairwise.nil
      obtain ⟨before, after, hgroups, happend, hother⟩ := WriteBuffer.entriesOf_appendTo e.table
        e.key e.write (WriteBuffer.empty.appendAll writes).groups
      have hold : (WriteBuffer.empty.appendAll writes).entries = before ++ after := hgroups
      have hnew : (WriteBuffer.empty.appendAll (writes ++ [e])).entries = before ++ e :: after := by
        rw [WriteBuffer.appendAll_append]
        exact happend
      have haloof : ∀ f ∈ db.plan after,
          Aloof ⟨e, (db.registry.get? e.table).map Registered.table⟩ f := by
        intro f hf
        obtain ⟨g, hg, rfl⟩ := List.mem_map.mp hf
        exact aloof_of_table_ne db hapart (Ne.symm (hother hascending g hg))
      have hmoved := Agree.append (Agree.move haloof rest) (db.plan before) store
      have hadded := ih (⟨e, (db.registry.get? e.table).map Registered.table⟩ :: rest) store
      rw [hold] at hadded
      unfold plan at hmoved hadded ⊢
      rw [hnew, List.map_append, List.map_cons, List.map_append]
      rw [List.map_append] at hadded
      simp only [List.append_assoc, List.cons_append] at hmoved hadded ⊢
      exact hmoved.trans hadded
  have hwhole := hrest [] store
  rwa [List.append_nil, List.append_nil] at hwhole

/-! ## What the rows hold afterwards -/

/-- Whether a view shows the rows of tables that keep them: a write that is done is seen in its row,
and nowhere else. -/
def KeepsRows (rows? : σ → Option (Value → Option Value)) : Prop :=
  ∀ table table' e row, applyWrite table e = .done table' → rows? table = some row →
    ∃ row', rows? table' = some row' ∧
      ∀ key, row' key = if e.key = key then e.write.value? else row key

/-- A write that reports nothing has changed its table. -/
theorem tryWrite_nil (h : tryWrite store w = .ok (store', [])) :
    ∃ ref table table', w.table = some ref ∧ store[ref]? = some table ∧
      applyWrite table w.entry = .done table' ∧ store' = store.setIfInBounds ref table' := by
  unfold tryWrite tryAt at h
  cases htable : tableOf? store w with
  | none =>
    rw [htable] at h
    cases h
  | some table =>
    obtain ⟨ref, href, hfound⟩ := Option.bind_eq_some_iff.mp htable
    rw [htable] at h
    dsimp only at h
    cases happly : applyWrite table w.entry with
    | done table' =>
      rw [happly] at h
      obtain ⟨hback, -⟩ := Prod.mk.inj (Except.ok.inj h)
      refine ⟨ref, table, table', href, hfound, happly, ?_⟩
      rw [← hback]
      unfold putBack
      rw [href]
    | failed cause =>
      rw [happly] at h
      cases h
    | broken text =>
      rw [happly] at h
      cases h

omit [Backend σ] in
/-- A report without causes has none from either of its parts. -/
theorem map_append_eq_nil {report : Except String (List Cause)}
    (h : report.map (causes ++ ·) = .ok []) : causes = [] ∧ report = .ok [] := by
  cases report with
  | error text => cases h
  | ok later =>
    obtain ⟨hnil, hlater⟩ := List.append_eq_nil_iff.mp (Except.ok.inj h)
    exact ⟨hnil, congrArg Except.ok hlater⟩

/-- Writes none of which fails leave in every row what the last of them says that concerns it, and
the other rows as they were. -/
theorem rows_applyPlan {db : Database σ} {rows? : σ → Option (Value → Option Value)}
    (hkeeps : KeepsRows rows?) (hapart : db.registry.Apart) {id : TableId}
    {entry : Registered TableRef} (hentry : db.registry.get? id = some entry)
    {writes : List WriteEntry} {table : σ} {row : Value → Option Value}
    (htable : store[entry.table]? = some table) (hrow : rows? table = some row)
    (hplan : applyPlan store (db.plan writes) = (store', .ok [])) :
    ∃ table' row', store'[entry.table]? = some table' ∧ rows? table' = some row' ∧
      ∀ key, row' key = match WriteBuffer.last? writes id key with
        | some w => w.value?
        | none => row key := by
  induction writes generalizing store table row with
  | nil =>
    cases hplan
    exact ⟨table, row, htable, hrow, fun _ => rfl⟩
  | cons e rest ih =>
    have hcons : db.plan (e :: rest) =
        ⟨e, (db.registry.get? e.table).map Registered.table⟩ :: db.plan rest := rfl
    rw [hcons, applyPlan_cons] at hplan
    cases htry : tryWrite store ⟨e, (db.registry.get? e.table).map Registered.table⟩ with
    | error text =>
      rw [htry] at hplan
      cases hplan
    | ok r =>
      obtain ⟨mid, causes⟩ := r
      rw [htry] at hplan
      obtain ⟨hstore, hreport⟩ := Prod.mk.inj hplan
      obtain ⟨rfl, hrest⟩ := map_append_eq_nil hreport
      obtain ⟨ref, changed, changed', href, hfound, hdone, rfl⟩ := tryWrite_nil htry
      obtain ⟨entry', hentry', rfl⟩ := Option.map_eq_some_iff.mp href
      have hlast : ∀ key, WriteBuffer.last? (e :: rest) id key =
          (WriteBuffer.last? rest id key).or (WriteBuffer.last? [e] id key) :=
        fun key => WriteBuffer.last?_append [e] rest id key
      have hplan' : applyPlan _ (db.plan rest) = (store', .ok []) := Prod.ext hstore hrest
      by_cases hid : e.table = id
      · -- The write goes to this table.
        subst hid
        cases hentry.symm.trans hentry'
        cases htable.symm.trans hfound
        obtain ⟨row', hrow', hset⟩ := hkeeps table changed' e row hdone hrow
        have hlt := (Array.getElem?_eq_some_iff.mp htable).1
        obtain ⟨last, row'', hlast', hrow'', heq⟩ :=
          ih (Array.getElem?_setIfInBounds_self_of_lt hlt) hrow' hplan'
        refine ⟨last, row'', hlast', hrow'', fun key => ?_⟩
        rw [heq, hlast, WriteBuffer.last?_singleton, hset]
        cases WriteBuffer.last? rest e.table key with
        | some w => rfl
        | none =>
          by_cases hkey : e.key = key
          · rw [if_pos hkey, if_pos ⟨rfl, hkey⟩]
            rfl
          · rw [if_neg hkey, if_neg fun h => hkey h.2]
            rfl
      · -- It goes elsewhere.
        have hne : entry'.table ≠ entry.table := fun heq => hid (hapart _ _ _ _ hentry' hentry heq)
        obtain ⟨last, row', hlast', hrow', heq⟩ :=
          ih ((Array.getElem?_setIfInBounds_ne hne).trans htable) hrow hplan'
        refine ⟨last, row', hlast', hrow', fun key => ?_⟩
        rw [heq, hlast, WriteBuffer.last?_singleton, if_neg fun h => hid h.1, Option.or_none]

/-- What a write does to the rows of a memory table. -/
theorem rows_applyWrite {table table' : MemoryTable} (h : applyWrite table e = .done table')
    (key : Value) :
    table'.rows.get? key = if e.key = key then e.write.value? else table.rows.get? key := by
  unfold applyWrite at h
  cases hwrite : e.write with
  | put v =>
    rw [hwrite] at h
    change Outcome.ofExcept (table.put e.key v) = _ at h
    cases hcheck : table.check e.key (some v) with
    | error cause =>
      unfold MemoryTable.put at h
      rw [hcheck] at h
      cases h
    | ok u =>
      rw [MemoryTable.put_eq hcheck] at h
      cases h
      exact Rows.get?_insert ..
  | delete =>
    rw [hwrite] at h
    change Outcome.ofExcept (table.delete e.key) = _ at h
    cases hcheck : table.check e.key none with
    | error cause =>
      unfold MemoryTable.delete at h
      rw [hcheck] at h
      cases h
    | ok u =>
      rw [MemoryTable.delete_eq hcheck] at h
      split at h
      · cases h
        exact Rows.get?_erase ..
      · cases h

/-- A planted fault apart, a faulty table does with a write what the table behind it does. -/
theorem applyWrite_faulty {t t' : FaultyTable} (h : applyWrite t e = .done t') :
    applyWrite t.table e = .done t'.table := by
  -- The planted fault is looked for first, and only then is the table behind it asked.
  have hguard : ∀ (x : Outcome Unit) (y : Except TableError MemoryTable),
      (do x; Outcome.ofExcept (y.map fun m => { t with table := m })) = .done t' →
        Outcome.ofExcept y = .done t'.table := by
    intro x y hdone
    cases x with
    | done u =>
      cases y with
      | error cause => cases hdone
      | ok m =>
        cases hdone
        rfl
    | failed cause => cases hdone
    | broken text => cases hdone
  unfold applyWrite at h ⊢
  cases hwrite : e.write with
  | put v =>
    rw [hwrite] at h
    exact hguard _ _ h
  | delete =>
    rw [hwrite] at h
    exact hguard _ _ h

/-- A table of some sort is written to as what it is. -/
theorem applyWrite_of_sort {τ : Type} [Backend τ] {t : τ} {sort : τ → Table} {table' : Table}
    (hput : ∀ key value, Backend.put (sort t) key value =
      do return sort (← Backend.put t key value))
    (hdelete : ∀ key, Backend.delete (sort t) key = do return sort (← Backend.delete t key))
    (h : applyWrite (sort t) e = .done table') :
    ∃ t', applyWrite t e = .done t' ∧ table' = sort t' := by
  have hreturn : ∀ x : Outcome τ, (do return sort (← x)) = Outcome.done table' →
      ∃ t', x = .done t' ∧ table' = sort t' := by
    intro x hdone
    cases x with
    | done t' =>
      cases hdone
      exact ⟨t', rfl, rfl⟩
    | failed cause => cases hdone
    | broken text => cases hdone
  unfold applyWrite at h ⊢
  cases hwrite : e.write with
  | put v =>
    rw [hwrite] at h
    exact hreturn _ ((hput e.key v).symm.trans h)
  | delete =>
    rw [hwrite] at h
    exact hreturn _ ((hdelete e.key).symm.trans h)

/-- Every table that keeps rows in memory changes them as the writes say. -/
theorem keepsRows_table : KeepsRows Table.rows? := by
  intro table table' e row happly hrow
  cases table with
  | memory m =>
    cases hrow
    obtain ⟨m', hdone, rfl⟩ := applyWrite_of_sort (fun _ _ => rfl) (fun _ => rfl) happly
    exact ⟨_, rfl, rows_applyWrite hdone⟩
  | simulated t => cases hrow
  | faulty t =>
    cases hrow
    obtain ⟨t', hdone, rfl⟩ := applyWrite_of_sort (fun _ _ => rfl) (fun _ => rfl) happly
    exact ⟨_, rfl, rows_applyWrite (applyWrite_faulty hdone)⟩

/-! ## The registered tables are kept apart -/

/-- Registering a table keeps the tables apart, for the new one is kept in a new place. -/
theorem apart_createTable {db : Database σ} (hapart : db.registry.Apart) (hhoused : db.Housed)
    (table : σ) : (db.createTable table).2.registry.Apart := by
  unfold Database.createTable
  dsimp only
  split
  · exact hapart
  · rename_i id r hcreate
    exact hapart.create hcreate hhoused.registered

omit [Backend σ] in
/-- So does taking one out of the registry. -/
theorem apart_dropTable {db : Database σ} (hapart : db.registry.Apart) (name : String) :
    (db.dropTable name).2.registry.Apart := by
  unfold Database.dropTable
  split
  · exact hapart
  · rename_i dropped r hdrop
    have hold := (Registry.drop_cases hdrop).2.2
    intro id other entry entry' hid hother
    rw [hold] at hid hother
    split at hid
    · cases hid
    · split at hother
      · cases hother
      · exact hapart id other entry entry' hid hother

/-- In every database that is reached by any actions the registered tables are kept apart. -/
theorem Reachable.apart {db : Database σ} (h : db.Reachable) : db.registry.Apart := by
  obtain ⟨config, clock, hasher, run⟩ := h
  induction run with
  | start => exact nofun
  | @perform db action run _ ih =>
    have hreached : db.Reachable := ⟨config, clock, hasher, run⟩
    cases hreached.lifecycle.deed hreached.twoPhase action with
    | tabular about quiet =>
      cases action with
      | createTable table => exact apart_createTable ih hreached.housed table
      | dropTable name => exact apart_dropTable ih name
      | connect | beginTransaction c | submit c call | requestLock mode holder key | resume i
      | reach instant => cases about
    | quiet quiet store registry => exact registry ▸ ih
    | @turn i op me first stand writes begins held leads =>
      obtain ⟨last, stand', hmoves, -, hlast⟩ := leads
      obtain ⟨ready, heq⟩ := last.putDown_eq i stand'
      have hsame := hmoves.keeps (P := fun mid _ => mid.registry = db.registry)
        (fun move hturn hmid => (move.effect hturn).registry.trans hmid) held begins.tables.2
      rw [hlast, heq]
      show (last.setStand i stand').registry.Apart
      rw [registry_setStand, hsame]
      exact ih

/-! ## The three views of a buffer -/

/-- The entries of a buffer, the search for its newest write and the order in which its writes were
made tell the same. After any writes and clearings of a buffer, and whatever the registered tables
hold: the entries are the writes since the last clearing, sorted by their tables so that the writes
of each table keep their order. Replaying the entries leaves all tables as replaying these writes
in the order in which they were made does, and reports the same errors, unless a table breaks off,
which it then does in both. The newest write of a row is the last of these writes that concerns it,
and if the replay of the entries reports no errors, this is what the row holds afterwards: the
value put, nothing if it was removed, and what it held before if nothing was written. -/
theorem grouped_replay_agrees (db : Database σ) (hapart : db.registry.Apart)
    (edits : List WriteBuffer.Edit) (store : Array σ) :
    let buffer := edits.foldl WriteBuffer.edit .empty
    let writes := WriteBuffer.pending edits
    let grouped := applyPlan store (db.plan buffer.entries)
    let ordered := applyPlan store (db.plan writes)
    (buffer.entries = writes.mergeSort WriteBuffer.byTable ∧
      ∀ table, (buffer.entries.filter fun e => e.table = table) =
        writes.filter fun e => e.table = table) ∧
    (Agree grouped ordered ∧
      ((∀ (table : σ) e text, applyWrite table e ≠ .broken text) → grouped.1 = ordered.1)) ∧
    (∀ table key, buffer.newest? table key = WriteBuffer.last? writes table key) ∧
    (grouped.2 = .ok [] → ∀ rows?, KeepsRows rows? → ∀ id entry table row,
      db.registry.get? id = some entry → store[entry.table]? = some table →
      rows? table = some row →
      ∃ table' row', grouped.1[entry.table]? = some table' ∧ rows? table' = some row' ∧
        ∀ key, row' key = match buffer.newest? id key with
          | some (.put value) => some value
          | some .delete => none
          | none => row key) := by
  intro buffer writes grouped ordered
  have hentries : buffer.entries = writes.mergeSort WriteBuffer.byTable :=
    WriteBuffer.entries_edits edits
  have hnewest : ∀ table key, buffer.newest? table key = WriteBuffer.last? writes table key :=
    WriteBuffer.newest?_edits edits
  have hagree : Agree grouped ordered := by
    have happend := agree_appendAll db hapart writes store
    rwa [← WriteBuffer.foldl_edit edits] at happend
  refine ⟨⟨hentries, fun table => ?_⟩, ⟨hagree, fun hsteady => ?_⟩, hnewest, ?_⟩
  · rw [hentries]
    exact WriteBuffer.filter_mergeSort writes table
  · obtain ⟨causes, hwhole⟩ := applyPlan_eq_ok hsteady store (db.plan buffer.entries)
    exact hagree.fst_eq hwhole
  · intro hreport rows? hkeeps id entry table row hentry htable hrow
    -- A grouped replay without errors is one in order without errors, and of that the rows are
    -- known.
    have hordered : ordered = (grouped.1, .ok []) :=
      (hagree.symm.eq_of_nil hreport).trans (Prod.ext rfl hreport)
    obtain ⟨table', row', htable', hrow', hrows⟩ :=
      rows_applyPlan hkeeps hapart hentry htable hrow hordered
    refine ⟨table', row', htable', hrow', fun key => ?_⟩
    rw [hrows, hnewest]
    cases WriteBuffer.last? writes id key with
    | none => rfl
    | some w =>
      cases w with
      | put value => rfl
      | delete => rfl

/-- A database with a table in memory, a table that stores nothing and a table with a planted
fault. -/
def stocked : Database Table :=
  [Action.createTable (.memory ⟨"t", .integer, .any, ⟨[(.integer 1, .null), (.integer 3, .null)]⟩⟩),
    .createTable (.simulated ⟨"s"⟩),
    .createTable (.faulty ⟨⟨"u", .integer, .any, ⟨[(.integer 1, .null)]⟩⟩, [(.put, .integer 5)], []⟩)
  ].foldl perform (new .standard default .fnv1a)

/-- Writes that go back and forth between the tables of `stocked`. -/
def interleaved : List WriteBuffer.Edit :=
  let write (name : String) (key : Int64) (w : Write) : WriteBuffer.Edit :=
    .append ⟨Hasher.fnv1a.tableId name, .integer key, w⟩
  [write "t" 9 .delete, .clear, write "t" 1 (.put (.bool true)), write "u" 1 .delete,
    write "s" 4 .delete, write "t" 2 (.put .null), write "u" 2 (.put .null),
    write "t" 1 (.put (.bool false)), write "t" 2 .delete]

/-- Writes that go back and forth between tables of three sorts are sorted before they are applied,
and leave the same. -/
theorem grouped_replay_agrees_interleaved :
    let buffer := interleaved.foldl WriteBuffer.edit .empty
    let writes := WriteBuffer.pending interleaved
    stocked.registry.Apart ∧ buffer.entries ≠ writes ∧
      Agree (applyPlan stocked.store (stocked.plan buffer.entries))
        (applyPlan stocked.store (stocked.plan writes)) ∧
      ∃ table row, (applyPlan stocked.store (stocked.plan buffer.entries)).1[0]? = some table ∧
        table.rows? = some row ∧ row (.integer 1) = some (.bool false) ∧
        row (.integer 2) = none ∧ row (.integer 3) = some .null := by
  intro buffer writes
  have hreached : stocked.Reachable := reachable_performAll _ _ _ _
  obtain ⟨-, ⟨hagree, -⟩, -, hrows⟩ :=
    grouped_replay_agrees stocked hreached.apart interleaved stocked.store
  have hreport : (applyPlan stocked.store (stocked.plan buffer.entries)).2 = .ok [] := by
    decide +kernel
  obtain ⟨table', row', htable', hrow', hheld⟩ :=
    hrows hreport Table.rows? keepsRows_table (Hasher.fnv1a.tableId "t") ⟨"t", 0⟩
      (.memory ⟨"t", .integer, .any, ⟨[(.integer 1, .null), (.integer 3, .null)]⟩⟩) _
      (by decide +kernel) (by decide +kernel) rfl
  refine ⟨hreached.apart, by decide +kernel, hagree, table', row', htable', hrow', ?_, ?_, ?_⟩
  · have hnewest : buffer.newest? (Hasher.fnv1a.tableId "t") (.integer 1) =
        some (.put (.bool false)) := by decide +kernel
    rw [hheld, hnewest]
  · have hnewest : buffer.newest? (Hasher.fnv1a.tableId "t") (.integer 2) = some .delete := by
      decide +kernel
    rw [hheld, hnewest]
  · have hnewest : buffer.newest? (Hasher.fnv1a.tableId "t") (.integer 3) = none := by
      decide +kernel
    rw [hheld, hnewest]
    decide +kernel

end Database

end TxStore
