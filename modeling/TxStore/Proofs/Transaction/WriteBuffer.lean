import TxStore.Transaction.WriteBuffer

/-!
# What a write buffer holds

A new write goes to the end of its table's group. Seen as one list of entries, the buffer grows in
the middle: the writes of greater tables come after the new one (`entries_append`).
-/

namespace TxStore

namespace TableId

/-- A table comes before another if its hash is smaller. -/
theorem compare_eq_lt {a b : TableId} : compare a b = .lt ↔ a.code < b.code := by
  show compare a.code b.code = .lt ↔ a.code < b.code
  exact Std.compare_eq_lt

/-- A table comes after another if its hash is greater. -/
theorem compare_eq_gt {a b : TableId} : compare a b = .gt ↔ b.code < a.code := by
  show compare a.code b.code = .gt ↔ b.code < a.code
  exact Std.compare_eq_gt

/-- Tables that compare equal are the same. -/
theorem eq_of_compare {a b : TableId} (h : compare a b = .eq) : a = b := by
  have hcode : a.code = b.code := Std.compare_eq_iff_eq.mp h
  cases a
  cases b
  exact congrArg TableId.mk hcode

end TableId

namespace WriteBuffer

variable {table : TableId} {key : Value} {write : Write} {b : WriteBuffer}

/-- The groups stand in ascending order of their tables. -/
def Ascending (groups : List WriteGroup) : Prop :=
  groups.Pairwise fun g h => g.1.code < h.1.code

/-- The entries of a list of groups. -/
def entriesOf (groups : List WriteGroup) : List WriteEntry :=
  groups.flatMap fun group => group.2.map fun w => ⟨group.1, w.1, w.2⟩

/-- The entries of a group come before those of the groups that follow. -/
theorem entriesOf_cons (group : WriteGroup) (rest : List WriteGroup) :
    entriesOf (group :: rest) =
      (group.2.map fun w => (⟨group.1, w.1, w.2⟩ : WriteEntry)) ++ entriesOf rest :=
  List.flatMap_cons

/-- An entry belongs to the table of its group. -/
theorem exists_group_of_mem {groups : List WriteGroup} {e : WriteEntry}
    (h : e ∈ entriesOf groups) : ∃ group ∈ groups, e.table = group.1 := by
  obtain ⟨group, hgroup, he⟩ := List.mem_flatMap.mp h
  obtain ⟨w, -, rfl⟩ := List.mem_map.mp he
  exact ⟨group, hgroup, rfl⟩

/-- A new write stands somewhere among the entries, and where the groups are ascending, only entries
of other tables come after it. -/
theorem entriesOf_appendTo (table : TableId) (key : Value) (write : Write)
    (groups : List WriteGroup) :
    ∃ before after, entriesOf groups = before ++ after ∧
      entriesOf (appendTo table key write groups) = before ++ ⟨table, key, write⟩ :: after ∧
      (Ascending groups → ∀ e ∈ after, e.table ≠ table) := by
  -- The induction follows the search for the group of the table.
  induction groups with
  | nil => exact ⟨[], [], rfl, rfl, nofun⟩
  | cons group rest ih =>
    unfold appendTo
    cases hcompare : compare table group.1 with
    | lt =>
      have hlt : table.code < group.1.code := TableId.compare_eq_lt.mp hcompare
      refine ⟨[], entriesOf (group :: rest), rfl, rfl, fun hascending e he heq => ?_⟩
      obtain ⟨g, hg, htable⟩ := exists_group_of_mem he
      have hle : group.1.code ≤ g.1.code := by
        rcases List.mem_cons.mp hg with rfl | hg
        · exact UInt64.le_refl _
        · exact UInt64.le_of_lt ((List.pairwise_cons.mp hascending).1 g hg)
      rw [← htable, heq] at hle
      exact absurd (UInt64.lt_of_lt_of_le hlt hle) (UInt64.lt_irrefl _)
    | eq =>
      have htable : table = group.1 := TableId.eq_of_compare hcompare
      refine ⟨group.2.map fun w => ⟨group.1, w.1, w.2⟩, entriesOf rest, entriesOf_cons .., ?_,
        fun hascending e he heq => ?_⟩
      · dsimp only
        rw [entriesOf_cons, List.map_append, List.append_assoc, htable]
        rfl
      · obtain ⟨g, hg, hgroup⟩ := exists_group_of_mem he
        have hlt := (List.pairwise_cons.mp hascending).1 g hg
        rw [← hgroup, heq, htable] at hlt
        exact absurd hlt (UInt64.lt_irrefl _)
    | gt =>
      obtain ⟨before, after, hrest, happend, hother⟩ := ih
      refine ⟨(group.2.map fun w => ⟨group.1, w.1, w.2⟩) ++ before, after, ?_, ?_,
        fun hascending => hother (List.pairwise_cons.mp hascending).2⟩
      · rw [entriesOf_cons, hrest, List.append_assoc]
      · dsimp only
        rw [entriesOf_cons, happend, List.append_assoc]

/-- A write that is buffered after another was added is that one, or was buffered before. -/
theorem mem_entries_append {e : WriteEntry} (h : e ∈ (b.append table key write).entries) :
    e ∈ b.entries ∨ e = ⟨table, key, write⟩ := by
  obtain ⟨before, after, hgroups, happend, -⟩ := entriesOf_appendTo table key write b.groups
  have hold : b.entries = before ++ after := hgroups
  have hnew : (b.append table key write).entries = before ++ ⟨table, key, write⟩ :: after := happend
  rw [hnew, List.mem_append, List.mem_cons] at h
  rw [hold, List.mem_append]
  rcases h with h | h | h
  · exact .inl (.inl h)
  · exact .inr h
  · exact .inl (.inr h)

/-- Adding a write brings in no table but its own. -/
theorem mem_appendTo {groups : List WriteGroup} {g : WriteGroup}
    (h : g ∈ appendTo table key write groups) : g.1 = table ∨ ∃ g' ∈ groups, g.1 = g'.1 := by
  induction groups with
  | nil => exact .inl (congrArg Prod.fst (List.mem_singleton.mp h))
  | cons group rest ih =>
    unfold appendTo at h
    split at h
    · rcases List.mem_cons.mp h with rfl | h
      · exact .inl rfl
      · exact .inr ⟨g, h, rfl⟩
    · rcases List.mem_cons.mp h with rfl | h
      · exact .inr ⟨group, List.mem_cons_self, rfl⟩
      · exact .inr ⟨g, List.mem_cons_of_mem _ h, rfl⟩
    · rcases List.mem_cons.mp h with rfl | h
      · exact .inr ⟨g, List.mem_cons_self, rfl⟩
      · rcases ih h with h | ⟨g', hg', heq⟩
        · exact .inl h
        · exact .inr ⟨g', List.mem_cons_of_mem _ hg', heq⟩

/-- Adding a write keeps the groups ascending. -/
theorem ascending_appendTo {groups : List WriteGroup} (h : Ascending groups) :
    Ascending (appendTo table key write groups) := by
  induction groups with
  | nil => exact List.pairwise_singleton _ _
  | cons group rest ih =>
    obtain ⟨hfirst, hrest⟩ := List.pairwise_cons.mp h
    unfold appendTo
    split
    · rename_i hcompare
      have hlt : table.code < group.1.code := TableId.compare_eq_lt.mp hcompare
      refine List.pairwise_cons.mpr ⟨fun g hg => ?_, h⟩
      rcases List.mem_cons.mp hg with rfl | hg
      · exact hlt
      · exact UInt64.lt_trans hlt (hfirst g hg)
    · exact List.pairwise_cons.mpr ⟨hfirst, hrest⟩
    · rename_i hcompare
      have hgt : group.1.code < table.code := TableId.compare_eq_gt.mp hcompare
      refine List.pairwise_cons.mpr ⟨fun g hg => ?_, ih hrest⟩
      rcases mem_appendTo hg with heq | ⟨g', hg', heq⟩
      · rw [heq]
        exact hgt
      · rw [heq]
        exact hfirst g' hg'

/-- A group is found under its table; under another table the rest is searched. -/
theorem lookup_cons (group : WriteGroup) (rest : List WriteGroup) (other : TableId) :
    List.lookup other (group :: rest) =
      if group.1 = other then some group.2 else List.lookup other rest := by
  rw [List.lookup_cons]
  by_cases hother : group.1 = other
  · rw [if_pos hother, hother, beq_self_eq_true]
  · have hbeq : (other == group.1) = false := beq_eq_false_iff_ne.mpr (Ne.symm hother)
    rw [if_neg hother, hbeq]

/-- After adding a write its table's group ends with it, and all other groups are as before. -/
theorem lookup_appendTo {groups : List WriteGroup} (h : Ascending groups) (other : TableId) :
    (appendTo table key write groups).lookup other =
      if table = other then some ((groups.lookup table).getD [] ++ [(key, write)])
      else groups.lookup other := by
  -- By induction on the groups, with the cases of `appendTo`: the table comes before the first
  -- group, or has it, or comes after it.
  induction groups with
  | nil =>
    unfold appendTo
    rw [lookup_cons]
    rfl
  | cons group rest ih =>
    obtain ⟨hfirst, hrest⟩ := List.pairwise_cons.mp h
    unfold appendTo
    split
    · rename_i hcompare
      have hlt : table.code < group.1.code := TableId.compare_eq_lt.mp hcompare
      -- No group of the table is there yet, for all groups come later.
      have hnone : List.lookup table (group :: rest) = none := by
        rw [List.lookup_eq_none_iff]
        intro g hg
        have hlater : table.code < g.1.code := by
          rcases List.mem_cons.mp hg with rfl | hg
          · exact hlt
          · exact UInt64.lt_trans hlt (hfirst g hg)
        rw [bne_iff_ne]
        rintro rfl
        exact absurd hlater (UInt64.lt_irrefl _)
      rw [lookup_cons, hnone]
      rfl
    · rename_i hcompare
      have htable : table = group.1 := TableId.eq_of_compare hcompare
      rw [lookup_cons, lookup_cons, lookup_cons, ← htable, if_pos rfl, Option.getD_some]
      split
      · rfl
      · rfl
    · rename_i hcompare
      have hgt : group.1.code < table.code := TableId.compare_eq_gt.mp hcompare
      have hne : group.1 ≠ table := by
        intro heq
        rw [heq] at hgt
        exact absurd hgt (UInt64.lt_irrefl _)
      rw [lookup_cons, lookup_cons, lookup_cons, ih hrest, if_neg hne]
      by_cases hother : group.1 = other
      · rw [if_pos hother, if_pos hother, if_neg (fun heq => hne (hother.trans heq.symm))]
      · rw [if_neg hother, if_neg hother]

/-- The newest write of a row is the last one in its table's group that concerns it. -/
theorem newest?_eq (b : WriteBuffer) (table : TableId) (key : Value) :
    b.newest? table key =
      (((b.groups.lookup table).getD []).reverse.find? fun w => w.1 = key).map Prod.snd := by
  unfold newest?
  cases b.groups.lookup table with
  | none => rfl
  | some writes =>
    show (writes.reverse.find? fun w => w.1 = key).bind (fun w => some w.2) = _
    rw [Option.getD_some, Option.map_eq_bind]
    rfl

/-- The newest write of a row is the one that was added last; adding a write changes nothing for
other rows. -/
theorem newest?_append (h : Ascending b.groups) (table other : TableId) (key j : Value)
    (write : Write) :
    (b.append table key write).newest? other j =
      if table = other ∧ key = j then some write else b.newest? other j := by
  rw [newest?_eq, newest?_eq]
  show (((appendTo table key write b.groups).lookup other).getD [] |>.reverse.find? _).map _ = _
  -- The new write is the last of its group, and the first that is found from the end.
  rw [lookup_appendTo h]
  by_cases htable : table = other
  · subst htable
    rw [if_pos rfl, Option.getD_some, List.reverse_append]
    show (((key, write) :: ((b.groups.lookup table).getD []).reverse).find? _).map _ = _
    rw [List.find?_cons]
    by_cases hkey : key = j
    · subst hkey
      simp
    · simp [hkey]
  · rw [if_neg htable, if_neg (fun h => htable h.1)]

/-- The newest write of a row is among the entries. -/
theorem mem_entries_of_newest? (h : b.newest? table key = some write) :
    ⟨table, key, write⟩ ∈ b.entries := by
  rw [newest?_eq] at h
  obtain ⟨⟨k, w⟩, hfind, rfl⟩ := Option.map_eq_some_iff.mp h
  have hdecide := List.find?_some hfind
  have hkey : k = key := of_decide_eq_true hdecide
  have hmem := List.mem_reverse.mp (List.mem_of_find?_eq_some hfind)
  cases hlookup : b.groups.lookup table with
  | none =>
    rw [hlookup] at hmem
    cases hmem
  | some writes =>
    rw [hlookup, Option.getD_some] at hmem
    obtain ⟨before, after, hgroups, -⟩ := List.lookup_eq_some_iff.mp hlookup
    have hgroup : (table, writes) ∈ b.groups := by
      rw [hgroups]
      exact List.mem_append_right _ List.mem_cons_self
    exact List.mem_flatMap.mpr ⟨_, hgroup, List.mem_map.mpr ⟨_, hmem, hkey ▸ rfl⟩⟩

/-- Adds writes one after the other. -/
def appendAll (b : WriteBuffer) (writes : List WriteEntry) : WriteBuffer :=
  writes.foldl (fun b e => b.append e.table e.key e.write) b

/-- Writes are added part by part. -/
theorem appendAll_append (b : WriteBuffer) (before after : List WriteEntry) :
    b.appendAll (before ++ after) = (b.appendAll before).appendAll after :=
  List.foldl_append

/-- Adding writes keeps the groups ascending. -/
theorem ascending_appendAll {writes : List WriteEntry} (h : Ascending b.groups) :
    Ascending (b.appendAll writes).groups := by
  induction writes generalizing b with
  | nil => exact h
  | cons e rest ih => exact ih (ascending_appendTo h)

/-- Among the writes of one table a new one is the last. -/
theorem filter_entries_append (h : Ascending b.groups) (e : WriteEntry) (other : TableId) :
    ((b.append e.table e.key e.write).entries.filter fun f => f.table = other) =
      (b.entries.filter fun f => f.table = other) ++ [e].filter fun f => f.table = other := by
  obtain ⟨before, after, hgroups, happend, hother⟩ :=
    entriesOf_appendTo e.table e.key e.write b.groups
  have hold : b.entries = before ++ after := hgroups
  have hnew : (b.append e.table e.key e.write).entries = before ++ e :: after := happend
  rw [hold, hnew, List.filter_append, List.filter_append, List.append_assoc]
  congr 1
  by_cases htable : e.table = other
  · -- All that comes after the new write belongs to other tables.
    have hnone : (after.filter fun f => f.table = other) = [] := by
      refine List.filter_eq_nil_iff.mpr fun f hf heq => ?_
      exact hother h f hf ((of_decide_eq_true heq).trans htable.symm)
    simp [htable, hnone]
  · simp [htable]

/-- Among the writes of one table new ones are the last. -/
theorem filter_entries_appendAll {writes : List WriteEntry} (h : Ascending b.groups)
    (other : TableId) :
    ((b.appendAll writes).entries.filter fun f => f.table = other) =
      (b.entries.filter fun f => f.table = other) ++ writes.filter fun f => f.table = other := by
  induction writes generalizing b with
  | nil => exact (List.append_nil _).symm
  | cons e rest ih =>
    have hascending : Ascending (b.append e.table e.key e.write).groups := ascending_appendTo h
    show (((b.append e.table e.key e.write).appendAll rest).entries.filter _) = _
    rw [ih hascending, filter_entries_append h, List.append_assoc, ← List.filter_append]
    rfl

/-- The entries stand in the order of their tables. -/
theorem pairwise_entries (h : Ascending b.groups) :
    b.entries.Pairwise fun e e' => e.table.code ≤ e'.table.code := by
  refine List.pairwise_flatMap.mpr ⟨fun group _ => ?_, h.imp fun {g g'} hlt e he e' he' => ?_⟩
  · refine List.pairwise_map.mpr (List.pairwise_of_forall fun _ _ => ?_)
    exact UInt64.le_refl _
  · obtain ⟨w, -, rfl⟩ := List.mem_map.mp he
    obtain ⟨w', -, rfl⟩ := List.mem_map.mp he'
    exact UInt64.le_of_lt hlt

end WriteBuffer

end TxStore
