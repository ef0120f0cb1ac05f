import TxStore.Lock.Manager
import TxStore.Table.Error

/-!
# What can go wrong in a database

An error is one `Cause`, or several errors that were reported by one call. Joining errors takes the
members of joined errors apart, so that joining never nests what was not nested before.
-/

namespace TxStore

/-- Why a call fails. -/
inductive Cause where
  /-- The name is taken. -/
  | tableExists (name : String)
  /-- No table has this name. -/
  | tableNotFound (name : String)
  /-- A table must have a name. -/
  | emptyTableName
  /-- A lock was not granted. -/
  | lock (why : Lock.Refusal)
  /-- The transaction is being finished or is finished. -/
  | terminalState
  /-- The connection has a transaction already. -/
  | inTransaction
  /-- The connection has no transaction. -/
  | notInTransaction
  /-- The table refused the call. -/
  | table (e : TableError)
  /-- The task that ran the call broke off. -/
  | taskFailed (text : String)
  deriving DecidableEq

/-- One cause, or several errors of one call. -/
inductive Error where
  /-- A single cause. -/
  | one (cause : Cause)
  /-- Several errors. -/
  | joined (members : List Error)

/-- A cause may stand where an error is asked for. -/
instance : Coe Cause Error := ⟨Error.one⟩

namespace Cause

/-- The text of a cause. -/
def message : Cause → String
  | tableExists name => "table already exists - " ++ name
  | tableNotFound name => "table not found - " ++ name
  | emptyTableName => "table name cannot be empty"
  | lock .conflict => "lock conflict"
  | lock .released => "locks released"
  | lock .timeout => "lock wait timed out"
  | terminalState => "transaction in terminal state"
  | inTransaction => "connection in transaction"
  | notInTransaction => "connection not in transaction"
  | table e => e.message
  | taskFailed text => "operation task failed: " ++ text

/-- Whether a conflict over a lock is the cause. -/
def isLockConflict : Cause → Bool
  | lock .conflict => true
  | _ => false

/-- Whether a missing row is the cause. -/
def isKeyNotFound : Cause → Bool
  | table e => e.isKeyNotFound
  | _ => false

/-- Whether the transaction may succeed when it is tried again. -/
def isRetryable : Cause → Bool
  | lock .conflict | lock .timeout | terminalState => true
  | _ => false

end Cause

namespace Error

/-- The error without members serves as the default. -/
instance : Inhabited Error := ⟨joined []⟩

mutual

/-- Equality of errors is decided by descent into the members. -/
def decEq : (a b : Error) → Decidable (a = b)
  | .one a, .one b =>
    if h : a = b then isTrue (h ▸ rfl) else isFalse fun e => h (Error.one.inj e)
  | .joined a, .joined b =>
    match decEqMembers a b with
    | isTrue h => isTrue (h ▸ rfl)
    | isFalse h => isFalse fun e => h (Error.joined.inj e)
  | .one _, .joined _ | .joined _, .one _ => isFalse nofun

/-- Equality of member lists is decided member by member. -/
def decEqMembers : (as bs : List Error) → Decidable (as = bs)
  | [], [] => isTrue rfl
  | a :: as, b :: bs =>
    match decEq a b with
    | isFalse h => isFalse fun e => h (List.cons.inj e).1
    | isTrue h =>
      match decEqMembers as bs with
      | isFalse h' => isFalse fun e => h' (List.cons.inj e).2
      | isTrue h' => isTrue (h ▸ h' ▸ rfl)
  | [], _ :: _ | _ :: _, [] => isFalse nofun

end

/-- Errors can be compared, though they are nested. -/
instance : DecidableEq Error := decEq

mutual

/-- The text of an error; the members of a joined error stand on lines of their own. -/
def message : Error → String
  | .one cause => cause.message
  | .joined members => messages members

/-- The texts of errors, one to a line. -/
def messages : List Error → String
  | [] => ""
  | [e] => message e
  | e :: f :: rest => message e ++ "\n" ++ messages (f :: rest)

end

/-- The errors that one call reported: the members of a joined error, else the error itself. -/
def members : Error → List Error
  | one cause => [one cause]
  | joined members => members

/-- Joins errors into one; none if there are none, and a single error as it is. Joined errors are
replaced by their members. -/
def join (errors : List Error) : Option Error :=
  match errors.flatMap members with
  | [] => none
  | [e] => some e
  | es => some (joined es)

/-- Joins an error with one that came after it, if one did. -/
def followedBy (e : Error) : Option Error → Error
  | none => e
  | some later => joined ([e, later].flatMap members)

/-- Whether some member is a single cause of the given sort. -/
def anyCause (p : Cause → Bool) (e : Error) : Bool :=
  e.members.any fun
    | one cause => p cause
    | joined _ => false

/-- Whether a lock conflict is among the causes. -/
def isLockConflict (e : Error) : Bool := e.anyCause Cause.isLockConflict

/-- Whether a missing row is among the causes. -/
def isKeyNotFound (e : Error) : Bool := e.anyCause Cause.isKeyNotFound

/-- Whether trying again may help. -/
def isRetryable (e : Error) : Bool := e.anyCause Cause.isRetryable

end Error

end TxStore
