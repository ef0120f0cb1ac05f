import Mathlib.Data.List.Basic
import TxStore.Proofs.Database.Actions

/-!
# The calls of a connection and the history of a transaction

The operations among the tasks of a database, in the order in which they were issued, fall into the
calls of each connection (`callsOn`) and the history of each transaction (`history`): its
statements, each with what its caller was told or will be told. Adding a task adds to the end of
both, and moving an operation changes them in one place.
-/

namespace TxStore

namespace Operation

/-- What the caller is told at the end, as far as it is settled: by an operation that is over, and
by one whose statement is done and that still finishes its transaction. -/
def outcome? (op : Operation) : Option Result :=
  match op.stand with
  | .finished r => some r
  | .applied errors r => some (r.join errors)
  | .applying _ r | .draining _ r => some r
  | .issued | .locking _ _ | .reading _ | .fetched _ _ => none

/-- Whether an operation is over. -/
def IsOver (op : Operation) : Prop :=
  ∃ r, op.stand = .finished r

/-- It can be found out from where the operation stands. -/
instance (op : Operation) : Decidable op.IsOver :=
  match hstand : op.stand with
  | .finished r => isTrue ⟨r, hstand⟩
  | .issued | .locking _ _ | .reading _ | .fetched _ _ | .draining _ _ | .applying _ _
  | .applied _ _ => isFalse fun ⟨_, hover⟩ => nomatch hstand.symm.trans hover

/-- The statement of an operation of `t`, with what its caller is told. -/
def item? (t : TransactionId) (op : Operation) : Option (Statement × Option Result) :=
  match op.holder, op.call with
  | some me, .statement s => if me.txn = t then some (s, op.outcome?) else none
  | _, _ => none

variable {t : TransactionId} {op : Operation} {me : Lock.Holder} {s : Statement}

/-- A statement of `t` is an item of its history. -/
theorem item?_of_statement (hme : op.holder = some me) (hcall : op.call = .statement s) :
    op.item? me.txn = some (s, op.outcome?) := by
  unfold item?
  rw [hme, hcall]
  exact if_pos rfl

/-- An operation is an item of no other transaction's history. -/
theorem item?_of_ne (hme : ∀ me, op.holder = some me → me.txn ≠ t) : op.item? t = none := by
  unfold item?
  split
  · rename_i me s hholder _
    exact if_neg (hme me hholder)
  · rfl

/-- Only statements are items. -/
theorem item?_of_call (hcall : ∀ s, op.call ≠ .statement s) : op.item? t = none := by
  unfold item?
  split
  · rename_i me s _ hstatement
    exact absurd hstatement (hcall s)
  · rfl

/-- An operation that moves keeps its item if it keeps its outcome. -/
theorem item?_congr {stand : Stand}
    (houtcome : ({ op with stand := stand } : Operation).outcome? = op.outcome?)
    (t : TransactionId) : ({ op with stand := stand } : Operation).item? t = op.item? t := by
  unfold item?
  rw [houtcome]

end Operation

/-- The operation that a task is, unless it is a bare request. -/
def Task.operation? : Task → Option Operation
  | operation op => some op
  | request _ => none

namespace Database

variable {σ : Type} {db : Database σ} {i : TaskId} {c c' : ConnectionId} {t u : TransactionId}
  {op : Operation} {earlier : List (TaskId × Operation)}

/-- The operations, with the numbers of their tasks, in the order in which they were issued. -/
def operations (db : Database σ) : List (TaskId × Operation) :=
  (List.range db.tasks.size).filterMap fun i =>
    (db.tasks[i]?.bind Task.operation?).map fun op => (i, op)

/-- The calls on a connection. -/
def callsOn (db : Database σ) (c : ConnectionId) : List (TaskId × Operation) :=
  db.operations.filter fun p => p.2.connection = c

/-- The statements of a transaction, each with what its caller is told. -/
def history (db : Database σ) (t : TransactionId) : List (Statement × Option Result) :=
  db.operations.filterMap fun p => p.2.item? t

/-- The operations are those of the tasks. -/
theorem mem_operations : (i, op) ∈ db.operations ↔ db.tasks[i]? = some (.operation op) := by
  unfold operations
  rw [List.mem_filterMap]
  constructor
  · rintro ⟨j, -, hj⟩
    obtain ⟨found, hfound, hpair⟩ := Option.map_eq_some_iff.mp hj
    obtain ⟨task, htask, htake⟩ := Option.bind_eq_some_iff.mp hfound
    cases hpair
    cases task with
    | operation other =>
      cases htake
      exact htask
    | request r => cases htake
  · intro hop
    have hlt : i < db.tasks.size := (Array.getElem?_eq_some_iff.mp hop).1
    refine ⟨i, List.mem_range.mpr hlt, ?_⟩
    rw [hop]
    rfl

/-- The calls on a connection are the operations on it. -/
theorem mem_callsOn :
    (i, op) ∈ db.callsOn c ↔ db.tasks[i]? = some (.operation op) ∧ op.connection = c := by
  unfold callsOn
  rw [List.mem_filter, mem_operations, decide_eq_true_eq]

/-- The numbers of the operations ascend. -/
theorem pairwise_operations (db : Database σ) :
    db.operations.Pairwise fun p q => p.1 < q.1 := by
  refine List.Pairwise.filterMap _ (fun i j hij p hp q hq => ?_) List.pairwise_lt_range
  obtain ⟨first, -, rfl⟩ := Option.map_eq_some_iff.mp hp
  obtain ⟨second, -, rfl⟩ := Option.map_eq_some_iff.mp hq
  exact hij

/-- The numbers of the calls before the last one are different from its number. -/
theorem ne_of_callsOn (hcalls : db.callsOn c = earlier ++ [(i, op)]) : ∀ p ∈ earlier, p.1 ≠ i := by
  intro p hp
  have hpairwise : (db.callsOn c).Pairwise fun p q => p.1 < q.1 :=
    List.Pairwise.sublist List.filter_sublist db.pairwise_operations
  rw [hcalls, List.pairwise_append] at hpairwise
  have hlt := hpairwise.2.2 p hp (i, op) (List.mem_singleton.mpr rfl)
  exact Nat.ne_of_lt hlt

/-! ## Adding a task -/

/-- A new operation comes last. -/
theorem operations_push (db : Database σ) (op : Operation) :
    (db.push (.operation op)).operations = db.operations ++ [(db.tasks.size, op)] := by
  unfold operations push
  dsimp only
  rw [Array.size_push, List.range_succ, List.filterMap_append]
  congr 1
  · apply List.filterMap_congr
    intro i hi
    have hne : i ≠ db.tasks.size := Nat.ne_of_lt (List.mem_range.mp hi)
    rw [Array.getElem?_push, if_neg hne]
  · rw [List.filterMap_cons, Array.getElem?_push, if_pos rfl]
    rfl

/-- A bare request is no operation. -/
theorem operations_push_request (db : Database σ) (r : Lock.Request) :
    (db.push (.request r)).operations = db.operations := by
  unfold operations push
  dsimp only
  have hlast : List.filterMap (fun i => ((db.tasks.push (.request r))[i]?.bind Task.operation?).map
      fun op => (i, op)) [db.tasks.size] = [] := by
    rw [List.filterMap_cons, Array.getElem?_push, if_pos rfl]
    rfl
  rw [Array.size_push, List.range_succ, List.filterMap_append, hlast, List.append_nil]
  apply List.filterMap_congr
  intro i hi
  have hne : i ≠ db.tasks.size := Nat.ne_of_lt (List.mem_range.mp hi)
  rw [Array.getElem?_push, if_neg hne]

/-- A new call comes last on its connection. -/
theorem callsOn_push_self (db : Database σ) (op : Operation) :
    (db.push (.operation op)).callsOn op.connection =
      db.callsOn op.connection ++ [(db.tasks.size, op)] := by
  unfold callsOn
  rw [operations_push, List.filter_append]
  congr 1
  exact List.filter_cons_of_pos (decide_eq_true rfl)

/-- A new call is not a call on another connection. -/
theorem callsOn_push_of_ne (hne : c ≠ op.connection) :
    (db.push (.operation op)).callsOn c = db.callsOn c := by
  unfold callsOn
  rw [operations_push, List.filter_append]
  have hnil : List.filter (fun p : TaskId × Operation => decide (p.2.connection = c))
      [(db.tasks.size, op)] = [] :=
    List.filter_cons_of_neg (by simpa using Ne.symm hne)
  rw [hnil, List.append_nil]

/-- A new operation adds its item, if it has one, to the end of a history. -/
theorem history_push (db : Database σ) (op : Operation) (t : TransactionId) :
    (db.push (.operation op)).history t = db.history t ++ (op.item? t).toList := by
  unfold history
  have hlast : [(db.tasks.size, op)].filterMap (fun p => p.2.item? t) = (op.item? t).toList := by
    rw [List.filterMap_cons]
    cases op.item? t <;> rfl
  rw [operations_push, List.filterMap_append, hlast]

/-! ## Moving an operation -/

/-- Moving an operation changes it in its place. -/
theorem operations_setStand (db : Database σ) (i : TaskId) (stand : Stand) :
    (db.setStand i stand).operations =
      db.operations.map fun p => if p.1 = i then (p.1, { p.2 with stand := stand }) else p := by
  rw [setStand_eq]
  unfold operations
  dsimp only
  rw [Array.size_modify, List.map_filterMap]
  apply List.filterMap_congr
  intro j _
  rw [Array.getElem?_modify]
  by_cases hij : i = j
  · subst hij
    rw [if_pos rfl]
    cases db.tasks[i]? with
    | none => rfl
    | some task =>
      cases task with
      | operation op =>
        show some (i, { op with stand := stand }) = some (if i = i then _ else _)
        rw [if_pos rfl]
      | request r => rfl
  · rw [if_neg hij]
    cases db.tasks[j]? with
    | none => rfl
    | some task =>
      cases task with
      | operation op =>
        show some (j, op) = some (if j = i then _ else (j, op))
        rw [if_neg (Ne.symm hij)]
      | request r => rfl

/-- Moving the last call of a connection changes it in its place. -/
theorem callsOn_setStand (hcalls : db.callsOn c = earlier ++ [(i, op)]) (stand : Stand) :
    (db.setStand i stand).callsOn c = earlier ++ [(i, { op with stand := stand })] := by
  have hmap : (db.setStand i stand).callsOn c = (db.callsOn c).map fun p =>
      if p.1 = i then (p.1, { p.2 with stand := stand }) else p := by
    unfold callsOn
    rw [operations_setStand, List.filter_map]
    congr 1
    apply List.filter_congr
    intro p _
    show decide ((if p.1 = i then (p.1, { p.2 with stand := stand }) else p).2.connection = c) = _
    split <;> rfl
  -- The numbers ascend, so no earlier call has the number of the last one.
  rw [hmap, hcalls, List.map_append]
  congr 1
  · have hsame : ∀ p ∈ earlier,
        (if p.1 = i then (p.1, { p.2 with stand := stand }) else p) = p :=
      fun p hp => if_neg (ne_of_callsOn hcalls p hp)
    rw [List.map_congr_left hsame, List.map_id']
  · show [if i = i then (i, { op with stand := stand }) else (i, op)] = _
    rw [if_pos rfl]

/-- Moving an operation changes no call on another connection. -/
theorem callsOn_setStand_of_ne (hop : db.tasks[i]? = some (.operation op))
    (hne : c ≠ op.connection) (stand : Stand) : (db.setStand i stand).callsOn c = db.callsOn c := by
  unfold callsOn
  rw [operations_setStand, List.filter_map]
  have hfilter : List.filter ((fun p : TaskId × Operation => decide (p.2.connection = c)) ∘
      fun p => if p.1 = i then (p.1, { p.2 with stand := stand }) else p) db.operations =
      List.filter (fun p => decide (p.2.connection = c)) db.operations := by
    apply List.filter_congr
    intro p _
    show decide ((if p.1 = i then (p.1, { p.2 with stand := stand }) else p).2.connection = c) = _
    split <;> rfl
  rw [hfilter]
  -- The operation that moves is on another connection, so the filter has left it out.
  have hsame : ∀ p ∈ List.filter (fun p => decide (p.2.connection = c)) db.operations,
      (if p.1 = i then (p.1, { p.2 with stand := stand }) else p) = p := by
    rintro ⟨j, other⟩ hp
    obtain ⟨hmem, hconnection⟩ := List.mem_filter.mp hp
    refine if_neg fun heq => ?_
    have hother := mem_operations.mp hmem
    rw [show j = i from heq, hop] at hother
    cases hother
    exact hne (of_decide_eq_true hconnection).symm
  rw [List.map_congr_left hsame, List.map_id']

/-- Moving an operation changes no history in which it keeps its item. -/
theorem history_setStand {stand : Stand} (hop : db.tasks[i]? = some (.operation op))
    (hitem : ({ op with stand := stand } : Operation).item? t = op.item? t) :
    (db.setStand i stand).history t = db.history t := by
  unfold history
  rw [operations_setStand, List.filterMap_map]
  apply List.filterMap_congr
  rintro ⟨j, other⟩ hmem
  show ((if j = i then (j, { other with stand := stand }) else (j, other)).2).item? t = _
  split
  · rename_i hij
    have hother := mem_operations.mp hmem
    rw [hij, hop] at hother
    cases hother
    exact hitem
  · rfl

/-- A bare request that moves on stays no operation. -/
theorem operations_setRequest {r r' : Lock.Request} (hr : db.tasks[i]? = some (.request r)) :
    ({ db with tasks := db.tasks.setIfInBounds i (.request r') } : Database σ).operations =
      db.operations := by
  unfold operations
  dsimp only
  rw [Array.size_setIfInBounds]
  apply List.filterMap_congr
  intro j _
  rw [Array.getElem?_setIfInBounds]
  split
  · rename_i hij
    rw [← hij, hr]
    split <;> rfl
  · rfl

/-- A history is found among the calls of the connection that all its operations are on. -/
theorem history_eq (hplaced : ∀ i op me, db.Runs i op me → me.txn = t → op.connection = c) :
    db.history t = (db.callsOn c).filterMap fun p => p.2.item? t := by
  unfold history callsOn
  rw [List.filterMap_filter]
  apply List.filterMap_congr
  rintro ⟨i, op⟩ hmem
  dsimp only
  split
  · rfl
  · rename_i hother
    refine Operation.item?_of_ne fun me hme htxn => ?_
    have hconnection := hplaced i op me ⟨mem_operations.mp hmem, hme⟩ htxn
    exact hother (decide_eq_true hconnection)

end Database

end TxStore
