import TxStore.Table.Error

/-!
# The storage behind a table

A backend reads, writes and deletes rows and checks the kinds of a row. A call has one of three
outcomes: it is done, it fails with an error, or it breaks off without an answer. Only a write or
delete that is done yields a changed table. That one which fails or breaks off has changed nothing
is assumed of every table, as is that a call depends on the table and its arguments alone.
-/

namespace TxStore

/-- How a call of a backend ends. -/
inductive Outcome (α : Type) where
  /-- It is done. -/
  | done (a : α)
  /-- It fails. -/
  | failed (e : TableError)
  /-- It breaks off, of which nothing but a text is ever known. -/
  | broken (text : String)
  deriving DecidableEq

namespace Outcome

/-- Goes on with the result of a call that is done. -/
def bind {α β : Type} (x : Outcome α) (f : α → Outcome β) : Outcome β :=
  match x with
  | done a => f a
  | failed e => failed e
  | broken text => broken text

/-- Calls are made one after the other, as long as they are done. -/
instance : Monad Outcome where
  pure := done
  bind := bind

/-- The outcome of a check that may fail with an error. -/
def ofExcept {α : Type} : Except TableError α → Outcome α
  | .ok a => done a
  | .error e => failed e

end Outcome

/-- A table as the database uses it. There is no table to go on with after a write or delete that
fails or breaks off: it is assumed to have left the rows as they were. -/
class Backend (σ : Type) where
  /-- The table's name. -/
  name : σ → String
  /-- The value under a key. -/
  get : σ → Value → Outcome Value
  /-- Inserts or overwrites a row, or leaves the table as it is. -/
  put : σ → Value → Value → Outcome σ
  /-- Removes a row, or leaves the table as it is. -/
  delete : σ → Value → Outcome σ
  /-- Checks the kinds of a key and, if given, of a value. -/
  validate : σ → Value → Option Value → Outcome Unit

end TxStore
