import TxStore.Lock.Request

/-!
# Clients of one lock manager

A session runs lock requests against one manager. A request asks for its key when it is first run,
and may then wait. Requests that can go on stand in line, and `settle` runs the line until it is
empty, the first to become ready first. Time passes only by `advance`, from one deadline to the
next, and never while a request can go on.
-/

namespace TxStore.Lock

/-- A lock manager and the requests made of it. -/
structure Session where
  /-- The manager. -/
  manager : Manager
  /-- The present instant. -/
  now : Duration
  /-- All requests, in the order in which they were issued. -/
  requests : Array Request
  /-- The requests that can go on, first come first. -/
  ready : List Nat

namespace Session

/-- A session without requests. -/
def new (timeout : Option Duration) : Session := ⟨.new timeout, ⟨0⟩, #[], []⟩

/-- By default a session has no requests and no limit to waiting. -/
instance : Inhabited Session := ⟨new none⟩

/-- Puts requests in line, unless they stand there. -/
def wake (s : Session) (woken : List Nat) : Session :=
  { s with ready := s.ready ++ woken.filter fun i => i ∉ s.ready }

/-- Takes over a changed manager, and wakes the requests that it has ended. -/
def withManager (s : Session) (m : Manager) : Session :=
  let woken := (m.endedSince s.manager).filterMap fun ticket =>
    s.requests.findIdx? fun r => r.waitsOn ticket
  { s with manager := m }.wake woken

/-- Sets where a request stands. -/
def setStage (s : Session) (i : Nat) (stage : Stage) : Session :=
  match s.requests[i]? with
  | none => s
  | some r => { s with requests := s.requests.setIfInBounds i { r with stage := stage } }

/-- Issues a request, which will ask when it is its turn. -/
def submit (s : Session) (mode : Mode) (holder : Holder) (key : Key) : Session :=
  { s with requests := s.requests.push ⟨mode, holder, key, .issued⟩ }.wake [s.requests.size]

/-- Runs one request as far as it goes. -/
def resume (s : Session) (i : Nat) : Session :=
  let s := { s with ready := s.ready.erase i }
  match s.requests[i]? with
  | none => s
  | some r =>
    let (m, stage) := r.run s.manager s.now
    (s.setStage i stage).withManager m

/-- Lets the caller of a request give up. Says whether it was still waiting for an answer. -/
def cancel (s : Session) (i : Nat) : Bool × Session :=
  match s.requests[i]? with
  | none => (false, s)
  | some r =>
    match r.stage with
    | .issued => (true, s.setStage i .cancelled)
    | .waiting w =>
      (true, (s.setStage i .cancelled).withManager (s.manager.abandon w.key w.ticket))
    | .answered _ | .cancelled => (false, s)

/-- Releases the locks of a transaction. -/
def release (s : Session) (txn : TransactionId) : Session :=
  s.withManager (s.manager.release txn)

/-- Forgets that a transaction was released. -/
def forget (s : Session) (txn : TransactionId) : Session :=
  s.withManager (s.manager.forget txn)

/-- Runs the line for at most `fuel` turns. -/
def settleWithin : (fuel : Nat) → Session → Session
  | 0, s => s
  | fuel + 1, s =>
    match s.ready with
    | [] => s
    | i :: _ => settleWithin fuel (s.resume i)

/-- Runs the line until it is empty. Within a run a request joins the line at most once more, when
it is ended. -/
def settle (s : Session) : Session :=
  s.settleWithin (s.ready.length + s.requests.size)

/-- The deadlines of the queued requests. -/
def deadlines (s : Session) : List Deadline :=
  (List.range s.requests.size).filterMap fun i =>
    match s.requests[i]?.map Request.stage with
    | some (.waiting w) => w.deadline.map fun d => ⟨d, w.ticket, i⟩
    | _ => none

/-- Moves the present on to an instant; it never moves back. -/
def reach (s : Session) (instant : Duration) : Session :=
  { s with now := if s.now.nanos ≤ instant.nanos then instant else s.now }

/-- Lets the deadlines up to an instant pass, from one instant to the next, and settles the session
after each. The requests whose deadline is the same wake together, in the order in which they were
queued. At most `fuel` instants pass. -/
def passDeadlines : (fuel : Nat) → (limit : Duration) → Session → Session
  | 0, _, s => s
  | fuel + 1, limit, s =>
    match Deadline.earliest? limit s.deadlines with
    | none => s
    | some instant =>
      passDeadlines fuel limit
        ((s.reach instant).wake (Deadline.callersAt instant s.deadlines)).settle

/-- Lets time pass. What can go on goes on before the time moves, so that a request has its deadline
from the instant at which it was issued. Each request has at most one deadline. -/
def advance (s : Session) (span : Duration) : Session :=
  let target : Duration := ⟨s.now.nanos + span.nanos⟩
  (s.settle.passDeadlines s.requests.size target).reach target

end Session

end TxStore.Lock
