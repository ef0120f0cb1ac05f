import TxStore.Error

/-!
# Joining flat errors

An error is flat if it is a single cause, or if it joins at least two single causes. Joining takes
errors apart one level deep, so its laws hold of flat errors: what comes of it is flat again
(`flat_of_join`) and has the members of all the errors, in their order (`members_join`). It is made
of these members alone (`ofMembers`), and so it makes no difference in which groups errors are
joined (`join_append`).
-/

namespace TxStore.Error

variable {e f : Error} {es fs ms : List Error} {later : Option Error}

/-- Whether an error is a single cause. -/
def isSingle : Error → Bool
  | one _ => true
  | joined _ => false

/-- Whether an error is a single cause, or joins at least two single causes. -/
def Flat : Error → Prop
  | one _ => True
  | joined members => 2 ≤ members.length ∧ ∀ e ∈ members, e.isSingle

/-- Whether an error is flat can be found out by looking at its members. -/
instance decidableFlat : DecidablePred Flat
  | one _ => inferInstanceAs (Decidable True)
  | joined members =>
    inferInstanceAs (Decidable (2 ≤ members.length ∧ ∀ e ∈ members, e.isSingle))

/-- The error that is made of some members, if there are any. A lone member is the error itself. -/
def ofMembers : List Error → Option Error
  | [] => none
  | [e] => some e
  | es => some (joined es)

/-- Errors are joined by putting their members together. -/
theorem join_eq_ofMembers (es : List Error) : join es = ofMembers (es.flatMap members) := by
  unfold join ofMembers
  rfl

/-! ## The members of a flat error -/

/-- A single cause is its only member. -/
theorem members_of_single (h : e.isSingle) : e.members = [e] := by
  cases e with
  | one cause => rfl
  | joined members => cases h

/-- The members of a flat error are single causes. -/
theorem Flat.single_of_mem (h : e.Flat) : ∀ m ∈ e.members, m.isSingle := by
  cases e with
  | one cause =>
    intro m hm
    rw [List.mem_singleton.mp hm]
    rfl
  | joined members => exact h.2

/-- So are those of several flat errors. -/
theorem single_of_mem_flatMap (h : ∀ e ∈ es, e.Flat) : ∀ m ∈ es.flatMap members, m.isSingle := by
  intro m hm
  obtain ⟨e, he, hm⟩ := List.mem_flatMap.mp hm
  exact (h e he).single_of_mem m hm

/-- A flat error has members. -/
theorem Flat.length_members_pos (h : e.Flat) : 0 < e.members.length := by
  cases e with
  | one cause => exact Nat.one_pos
  | joined members => exact Nat.lt_of_lt_of_le Nat.two_pos h.1

/-- An error that is made of single causes is flat. -/
theorem flat_of_ofMembers (h : ∀ m ∈ ms, m.isSingle) (hmade : ofMembers ms = some e) : e.Flat := by
  match ms with
  | [] => cases hmade
  | [m] =>
    have hm := h m List.mem_cons_self
    cases hmade
    cases e with
    | one cause => trivial
    | joined members => cases hm
  | m :: n :: rest =>
    cases hmade
    exact ⟨Nat.le_add_left 2 rest.length, h⟩

/-- The members of an error that is made of single causes are these. -/
theorem members_ofMembers (h : ∀ m ∈ ms, m.isSingle) :
    (ofMembers ms).toList.flatMap members = ms := by
  match ms with
  | [] => rfl
  | [m] =>
    -- A lone member is not wrapped, and a single cause is its own member.
    show m.members ++ [] = [m]
    rw [List.append_nil, members_of_single (h m List.mem_cons_self)]
  | m :: n :: rest => exact List.append_nil _

/-- Two members and more are joined. -/
theorem ofMembers_of_two_le (h : 2 ≤ ms.length) : ofMembers ms = some (joined ms) := by
  match ms with
  | m :: n :: rest => rfl

/-! ## Joining -/

/-- What flat errors are joined to is flat. -/
theorem flat_of_join (h : ∀ e ∈ es, e.Flat) (hjoined : join es = some e) : e.Flat :=
  flat_of_ofMembers (single_of_mem_flatMap h) ((join_eq_ofMembers es).symm.trans hjoined)

/-- It has the members of all of them, in their order. -/
theorem members_join (h : ∀ e ∈ es, e.Flat) :
    (join es).toList.flatMap members = es.flatMap members := by
  rw [join_eq_ofMembers, members_ofMembers (single_of_mem_flatMap h)]

/-- Nothing comes of joining flat errors only if there are none. -/
theorem join_eq_none_iff (h : ∀ e ∈ es, e.Flat) : join es = none ↔ es = [] := by
  constructor
  · intro hnone
    have hmembers := members_join h
    rw [hnone] at hmembers
    cases es with
    | nil => rfl
    | cons e rest =>
      have hnil : e.members = [] := (List.append_eq_nil_iff.mp hmembers.symm).1
      exact absurd hnil (List.length_pos_iff.mp (h e List.mem_cons_self).length_members_pos)
  · rintro rfl
    rfl

/-- Errors may be joined in two groups first. -/
theorem join_append (hes : ∀ e ∈ es, e.Flat) (hfs : ∀ e ∈ fs, e.Flat) :
    join (es ++ fs) = join ((join es).toList ++ (join fs).toList) := by
  rw [join_eq_ofMembers, join_eq_ofMembers ((join es).toList ++ (join fs).toList),
    List.flatMap_append, List.flatMap_append, members_join hes, members_join hfs]

/-- Whether a cause of some sort is among errors depends on their members alone. -/
theorem any_congr (h : es.flatMap members = fs.flatMap members) (p : Cause → Bool) :
    es.any (anyCause p) = fs.any (anyCause p) := by
  unfold anyCause
  rw [← List.any_flatMap, ← List.any_flatMap, h]

/-- A cause of some sort is among joined errors exactly if it is among one of them. -/
theorem any_join (h : ∀ e ∈ es, e.Flat) (p : Cause → Bool) :
    (join es).any (anyCause p) = es.any (anyCause p) := by
  have hlist : (join es).any (anyCause p) = (join es).toList.any (anyCause p) := by
    cases join es with
    | none => rfl
    | some e => exact (Bool.or_false _).symm
  rw [hlist, any_congr (members_join h) p]

/-- An error and a later one come to what they are joined to. -/
theorem some_followedBy (he : e.Flat) (hf : f.Flat) :
    some (e.followedBy (some f)) = join [e, f] := by
  have hlength : 2 ≤ ([e, f].flatMap members).length := by
    rw [List.flatMap_cons, List.flatMap_singleton, List.length_append]
    exact Nat.add_le_add he.length_members_pos hf.length_members_pos
  rw [join_eq_ofMembers, ofMembers_of_two_le hlength]
  rfl

/-- An error that another one may have followed is flat if both are. -/
theorem Flat.followedBy (he : e.Flat) (hlater : ∀ f ∈ later, f.Flat) :
    (e.followedBy later).Flat := by
  cases later with
  | none => exact he
  | some f =>
    have hf : f.Flat := hlater f rfl
    have hboth : ∀ g ∈ [e, f], g.Flat :=
      List.forall_mem_cons.mpr ⟨he, List.forall_mem_singleton.mpr hf⟩
    exact flat_of_join hboth (some_followedBy he hf).symm

end TxStore.Error
