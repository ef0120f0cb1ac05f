import TxStore.Proofs.Database.Contents

/-!
# A client that is alone

`Solo` is a database as one client knows it who has it for itself and makes one call at a time: what
the tables hold, and what its transaction sees of them. `Solo.answer` says what the client is told,
and `Solo.play` what it is told in a whole session. Nobody else, no lock and no time comes into it,
so none of the answers is a refusal that could be mended by trying again
(`Solo.not_retryable_play`).
-/

namespace TxStore

/-- The row that a statement names, whether it is there or not. -/
def Statement.place (registry : Registry TableRef) (s : Statement) : Lock.Key :=
  ⟨registry.tableId s.table, s.key⟩

/-- What a client asks of its connection. -/
inductive Ask where
  /-- An explicit transaction. -/
  | begin
  /-- A call. -/
  | call (call : Call)
  deriving DecidableEq

/-- A database as its only client knows it. -/
structure Solo where
  /-- What the tables hold. -/
  base : Contents
  /-- What the client's transaction sees, if it has one. -/
  view : Option Contents

namespace Solo

variable {implicit : Bool} {locate : Statement → Except Error Lock.Key} {S S' : Solo}

/-- What the client is told, and what the database is then. If `implicit` holds a statement outside
of a transaction has one of its own. -/
def answer (implicit : Bool) (locate : Statement → Except Error Lock.Key) (S : Solo) :
    Ask → Result × Solo
  | .begin =>
    match S.view with
    | none => (.ok none, ⟨S.base, some S.base⟩)
    | some _ => (.error Cause.inTransaction, S)
  | .call (.statement s) =>
    match S.view with
    | none =>
      if implicit then
        ((Serial.statement locate s S.base).1, ⟨(Serial.statement locate s S.base).2, none⟩)
      else (.error Cause.notInTransaction, S)
    | some V =>
      ((Serial.statement locate s V).1, ⟨S.base, some (Serial.statement locate s V).2⟩)
  | .call .commit =>
    match S.view with
    | none => (.error Cause.notInTransaction, S)
    | some V => (.ok none, ⟨V, none⟩)
  | .call .rollback =>
    match S.view with
    | none => (.error Cause.notInTransaction, S)
    | some _ => (.ok none, ⟨S.base, none⟩)
  | .call .disconnect => (.ok none, ⟨S.base, none⟩)

/-- What the client is told when it asks for one thing after the other. -/
def play (implicit : Bool) (locate : Statement → Except Error Lock.Key) :
    Solo → List Ask → List Result × Solo
  | S, [] => ([], S)
  | S, ask :: rest =>
    let (result, S) := S.answer implicit locate ask
    let (results, S) := play implicit locate S rest
    (result :: results, S)

/-- The first answer is given, and then the others. -/
theorem play_cons (S : Solo) (ask : Ask) (rest : List Ask) :
    S.play implicit locate (ask :: rest) =
      ((S.answer implicit locate ask).1 ::
          ((S.answer implicit locate ask).2.play implicit locate rest).1,
        ((S.answer implicit locate ask).2.play implicit locate rest).2) := rfl

/-- One more answer is given as the others leave the database. -/
theorem play_append {asks : List Ask} {results : List Result}
    (h : S.play implicit locate asks = (results, S')) (ask : Ask) :
    S.play implicit locate (asks ++ [ask]) =
      (results ++ [(S'.answer implicit locate ask).1], (S'.answer implicit locate ask).2) := by
  induction asks generalizing S results with
  | nil =>
    cases h
    rfl
  | cons first rest ih =>
    rw [play_cons, Prod.mk.injEq] at h
    obtain ⟨rfl, hlast⟩ := h
    rw [List.cons_append, play_cons, ih (Prod.ext rfl hlast)]
    rfl

end Solo

/-! ## Refusals -/

/-- Why a statement has no row, or which one it has. -/
theorem Serial.locate_cases (registry : Registry TableRef) (store : Array MemoryTable)
    (s : Statement) :
    (∃ cause, registry.lookUp s.table = .error cause ∧ locate registry store s = .error cause) ∨
      ∃ id entry, registry.lookUp s.table = .ok (id, entry) ∧
        (store[entry.table]? = none ∧
            locate registry store s = .error (Cause.tableNotFound s.table) ∨
          ∃ table, store[entry.table]? = some table ∧
            ((∃ e, table.check s.key s.value? = .error e ∧
                locate registry store s = .error (Cause.table e)) ∨
              table.check s.key s.value? = .ok () ∧ locate registry store s = .ok ⟨id, s.key⟩)) := by
  unfold Serial.locate
  cases hlook : registry.lookUp s.table with
  | error cause => exact .inl ⟨cause, rfl, rfl⟩
  | ok found =>
    obtain ⟨id, entry⟩ := found
    refine .inr ⟨id, entry, rfl, ?_⟩
    dsimp only
    cases store[entry.table]? with
    | none => exact .inl ⟨rfl, rfl⟩
    | some table =>
      refine .inr ⟨table, rfl, ?_⟩
      dsimp only
      cases table.check s.key s.value? with
      | error e => exact .inl ⟨e, rfl, rfl⟩
      | ok u => exact .inr ⟨rfl, rfl⟩

/-- What is looked up is under the identifier of its name, and only a table that is not there is not
found. -/
theorem Registry.lookUp_cases (registry : Registry TableRef) (name : String) :
    registry.lookUp name = .error (.tableNotFound name) ∨
      ∃ entry, registry.lookUp name = .ok (registry.tableId name, entry) := by
  unfold Registry.lookUp
  cases registry.get? (registry.tableId name) with
  | none => exact .inl rfl
  | some entry => exact .inr ⟨entry, rfl⟩

/-- A statement that has a row has the one that it names. -/
theorem Serial.place_of_locate {registry : Registry TableRef} {store : Array MemoryTable}
    {s : Statement} {k : Lock.Key} (h : locate registry store s = .ok k) :
    k = s.place registry := by
  rcases locate_cases registry store s with ⟨cause, -, heq⟩ | ⟨id, entry, hlook, heq⟩
  · cases h.symm.trans heq
  · rcases registry.lookUp_cases s.table with hnone | ⟨entry', hsome⟩
    · cases hlook.symm.trans hnone
    · cases hlook.symm.trans hsome
      rcases heq with ⟨-, heq⟩ | ⟨table, -, ⟨e, -, heq⟩ | ⟨-, heq⟩⟩
      · cases h.symm.trans heq
      · cases h.symm.trans heq
      · cases h.symm.trans heq
        rfl

/-- Checks of statements do not fail in a way that could be mended by trying again. -/
theorem Serial.not_retryable_locate {registry : Registry TableRef} {store : Array MemoryTable}
    {s : Statement} {e : Error} (h : locate registry store s = .error e) :
    e.isRetryable = false := by
  rcases locate_cases registry store s with ⟨cause, hlook, heq⟩ | ⟨id, entry, -, heq⟩
  · rcases registry.lookUp_cases s.table with hnone | ⟨entry, hsome⟩
    · cases hlook.symm.trans hnone
      cases h.symm.trans heq
      rfl
    · cases hlook.symm.trans hsome
  · rcases heq with ⟨-, heq⟩ | ⟨table, -, ⟨e, -, heq⟩ | ⟨-, heq⟩⟩ <;> cases h.symm.trans heq <;> rfl

section

variable {locate : Statement → Except Error Lock.Key}
  (hlocate : ∀ s e, locate s = .error e → e.isRetryable = false)

include hlocate

/-- Nor does a statement that is executed alone. -/
theorem Serial.not_retryable {s : Statement} {M : Contents} {e : Error}
    (h : (Serial.statement locate s M).1 = .error e) : e.isRetryable = false := by
  unfold Serial.statement at h
  cases hplace : locate s with
  | error cause =>
    rw [hplace] at h
    cases h
    exact hlocate s _ hplace
  | ok k =>
    rw [hplace] at h
    dsimp only at h
    split at h <;> cases h <;> rfl

/-- Nor does any call of a client that is alone. -/
theorem Solo.not_retryable_answer {implicit : Bool} {S : Solo} {ask : Ask} {e : Error}
    (h : (S.answer implicit locate ask).1 = .error e) : e.isRetryable = false := by
  unfold Solo.answer at h
  split at h
  · split at h <;> cases h
    rfl
  · split at h
    · split at h
      · exact Serial.not_retryable hlocate h
      · cases h
        rfl
    · exact Serial.not_retryable hlocate h
  · split at h <;> cases h
    rfl
  · split at h <;> cases h
    rfl
  · cases h

/-- So none is told to try again in a whole session. -/
theorem Solo.not_retryable_play {implicit : Bool} {S : Solo} {asks : List Ask} {e : Error}
    (h : .error e ∈ (S.play implicit locate asks).1) : e.isRetryable = false := by
  induction asks generalizing S with
  | nil => cases h
  | cons ask rest ih =>
    rcases List.mem_cons.mp h with hfirst | hrest
    · exact Solo.not_retryable_answer hlocate hfirst.symm
    · exact ih hrest

end

end TxStore
