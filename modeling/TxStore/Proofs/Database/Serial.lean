import TxStore.Database.Basic
import TxStore.Proofs.Transaction.WriteBuffer

/-!
# Serial execution on plain maps

What all tables hold is a partial function from keys to values, `Contents`. On it a statement has
its plain meaning: a write inserts or overwrites, and a read or removal of an absent row reports the
missing key. `Serial.schedule` executes whole transactions, one after the other and each alone.

A transaction of a database reads through its write buffer and applies the buffer at the end. The
two views of a buffer are `WriteBuffer.overlay`, what the transaction sees, and `Contents.replay`,
what applying the entries does. A new write changes both alike (`overlay_append`, `replay_append`),
although it goes to the middle of the entries: writes of different rows can be exchanged.
-/

namespace TxStore

/-- The value of each row that is there, of all tables. -/
abbrev Contents := Lock.Key → Option Value

/-- What a write leaves in its row. -/
def Write.value? : Write → Option Value
  | put v => some v
  | delete => none

/-- The row of a buffered write. -/
def WriteEntry.place (e : WriteEntry) : Lock.Key := ⟨e.table, e.key⟩

namespace Contents

/-- Gives a row a value, or removes it. -/
def set (M : Contents) (k : Lock.Key) (v : Option Value) : Contents :=
  fun j => if k = j then v else M j

/-- Applies a buffered write. A row that is removed must be there. -/
def write (M : Contents) (e : WriteEntry) : Option Contents :=
  if e.write = .delete ∧ M e.place = none then none else some (M.set e.place e.write.value?)

/-- Applies buffered writes one after the other. -/
def replay : List WriteEntry → Contents → Option Contents
  | [], M => some M
  | e :: rest, M => (M.write e).bind (replay rest)

variable {M : Contents} {k j : Lock.Key} {v w : Option Value} {e f : WriteEntry}

/-- Changing a row leaves the others. -/
theorem set_of_ne (h : k ≠ j) : M.set k v j = M j := if_neg h

/-- Changes of different rows can be exchanged. -/
theorem set_comm (h : k ≠ j) : (M.set k v).set j w = (M.set j w).set k v := by
  funext i
  unfold set
  by_cases hj : j = i
  · have hk : k ≠ i := fun heq => h (heq.trans hj.symm)
    rw [if_pos hj, if_neg hk, if_pos hj]
  · rw [if_neg hj, if_neg hj]

/-- Writes of different rows can be exchanged. -/
theorem write_comm (h : e.place ≠ f.place) :
    (M.write e).bind (·.write f) = (M.write f).bind (·.write e) := by
  unfold write
  -- Whether a write may be made depends on its own row only.
  by_cases he : e.write = .delete ∧ M e.place = none
  · rw [if_pos he]
    split
    · rfl
    · rw [Option.bind_some, set_of_ne (Ne.symm h), if_pos he]
      rfl
  · rw [if_neg he]
    by_cases hf : f.write = .delete ∧ M f.place = none
    · rw [if_pos hf, Option.bind_some, set_of_ne h, if_pos hf]
      rfl
    · rw [if_neg hf, Option.bind_some, Option.bind_some, set_of_ne h, set_of_ne (Ne.symm h),
        if_neg he, if_neg hf, set_comm h]

/-- Writes are replayed part by part. -/
theorem replay_append (before after : List WriteEntry) (M : Contents) :
    replay (before ++ after) M = (replay before M).bind (replay after) := by
  induction before generalizing M with
  | nil => rfl
  | cons e rest ih =>
    show (M.write e).bind (replay (rest ++ after)) = ((M.write e).bind (replay rest)).bind _
    rw [Option.bind_assoc]
    congr 1
    funext N
    exact ih N

/-- A write can be made after writes of other rows as well as before. -/
theorem write_replay {after : List WriteEntry} (h : ∀ f ∈ after, e.place ≠ f.place)
    (M : Contents) : (M.write e).bind (replay after) = (replay after M).bind (·.write e) := by
  induction after generalizing M with
  | nil =>
    show (M.write e).bind some = (some M).bind (·.write e)
    rw [Option.bind_some, Option.bind_fun_some]
  | cons f rest ih =>
    have hrest : ∀ N : Contents, (N.write e).bind (replay rest) = (replay rest N).bind (·.write e) :=
      ih fun g hg => h g (List.mem_cons_of_mem _ hg)
    -- The write passes the first of the others, and then the rest by induction.
    calc (M.write e).bind (replay (f :: rest))
        = ((M.write e).bind (·.write f)).bind (replay rest) := (Option.bind_assoc ..).symm
      _ = ((M.write f).bind (·.write e)).bind (replay rest) := by
          rw [write_comm (h f List.mem_cons_self)]
      _ = (M.write f).bind fun N => (N.write e).bind (replay rest) := Option.bind_assoc ..
      _ = (M.write f).bind fun N => (replay rest N).bind (·.write e) := by
          congr 1
          funext N
          exact hrest N
      _ = (replay (f :: rest) M).bind (·.write e) := (Option.bind_assoc ..).symm

end Contents

namespace WriteBuffer

variable {b : WriteBuffer}

/-- What a transaction with this buffer sees of the contents `M`. -/
def overlay (b : WriteBuffer) (M : Contents) : Contents := fun k =>
  match b.newest? k.table k.row with
  | some write => write.value?
  | none => M k

/-- After a write the transaction sees it. -/
theorem overlay_append (h : Ascending b.groups) (table : TableId) (key : Value) (write : Write)
    (M : Contents) :
    (b.append table key write).overlay M = (b.overlay M).set ⟨table, key⟩ write.value? := by
  funext k
  unfold overlay Contents.set
  rw [newest?_append h]
  by_cases hk : (⟨table, key⟩ : Lock.Key) = k
  · subst hk
    rw [if_pos ⟨rfl, rfl⟩, if_pos rfl]
  · have hne : ¬ (table = k.table ∧ key = k.row) := by
      rintro ⟨rfl, rfl⟩
      exact hk rfl
    rw [if_neg hne, if_neg hk]

/-- Applying the buffer after a write is applying it before, and then the write. -/
theorem replay_append (h : Ascending b.groups) (table : TableId) (key : Value) (write : Write)
    (M : Contents) :
    Contents.replay (b.append table key write).entries M =
      (Contents.replay b.entries M).bind (·.write ⟨table, key, write⟩) := by
  obtain ⟨before, after, hold, hnew, hother⟩ := entriesOf_appendTo table key write b.groups
  have hold : b.entries = before ++ after := hold
  have hnew : (b.append table key write).entries = before ++ ⟨table, key, write⟩ :: after := hnew
  rw [hold, hnew, Contents.replay_append, Contents.replay_append, Option.bind_assoc]
  congr 1
  funext N
  -- Only entries of other tables come after the new one, so it may as well come last.
  refine Contents.write_replay (fun f hf heq => hother h f hf ?_) N
  exact (congrArg Lock.Key.table heq).symm

end WriteBuffer

namespace Serial

/-- Executes a statement, given where its row is or why it has none. -/
def statement (locate : Statement → Except Error Lock.Key) (s : Statement) (M : Contents) :
    Result × Contents :=
  match locate s with
  | .error e => (.error e, M)
  | .ok k =>
    match s, M k with
    | .put _ _ v, _ => (.ok none, M.set k (some v))
    | .get _ _, some v => (.ok (some v), M)
    | .delete _ _, some _ => (.ok none, M.set k none)
    | .get _ key, none | .delete _ key, none => (.error (.one (.table (.keyNotFound key))), M)

/-- Executes the statements of a transaction one after the other. -/
def transaction (locate : Statement → Except Error Lock.Key) :
    List Statement → Contents → List Result × Contents
  | [], M => ([], M)
  | s :: rest, M =>
    let (result, M) := statement locate s M
    let (results, M) := transaction locate rest M
    (result :: results, M)

/-- Executes transactions one after the other, each alone. -/
def schedule (locate : Statement → Except Error Lock.Key) :
    List (List Statement) → Contents → List (List Result) × Contents
  | [], M => ([], M)
  | program :: rest, M =>
    let (results, M) := transaction locate program M
    let (others, M) := schedule locate rest M
    (results :: others, M)

variable {locate : Statement → Except Error Lock.Key} {M N : Contents}

/-- The first statement is executed, and then the others on what it leaves. -/
theorem transaction_cons (s : Statement) (rest : List Statement) (M : Contents) :
    transaction locate (s :: rest) M =
      ((statement locate s M).1 :: (transaction locate rest (statement locate s M).2).1,
        (transaction locate rest (statement locate s M).2).2) := rfl

/-- The first transaction is executed, and then the others on what it leaves. -/
theorem schedule_cons (program : List Statement) (rest : List (List Statement)) (M : Contents) :
    schedule locate (program :: rest) M =
      ((transaction locate program M).1 :: (schedule locate rest (transaction locate program M).2).1,
        (schedule locate rest (transaction locate program M).2).2) := rfl

/-- One more statement is executed on what the others leave. -/
theorem transaction_append {program : List Statement} {results : List Result}
    (h : transaction locate program M = (results, N)) (s : Statement) :
    transaction locate (program ++ [s]) M =
      (results ++ [(statement locate s N).1], (statement locate s N).2) := by
  induction program generalizing M results with
  | nil =>
    cases h
    rfl
  | cons first rest ih =>
    rw [transaction_cons] at h
    cases h
    rw [List.cons_append, transaction_cons, ih rfl]
    rfl

/-- One more transaction is executed on what the others leave. -/
theorem schedule_append {programs : List (List Statement)} {results : List (List Result)}
    (h : schedule locate programs M = (results, N)) (program : List Statement) :
    schedule locate (programs ++ [program]) M =
      (results ++ [(transaction locate program N).1], (transaction locate program N).2) := by
  induction programs generalizing M results with
  | nil =>
    cases h
    rfl
  | cons first rest ih =>
    rw [schedule_cons] at h
    cases h
    rw [List.cons_append, schedule_cons, ih rfl]
    rfl

end Serial

end TxStore
