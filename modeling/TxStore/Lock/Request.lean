import TxStore.Lock.Manager

/-!
# Lock requests with deadlines

A queued caller looks for the word on its request whenever it is woken. A word that has arrived
counts even if the deadline has passed meanwhile; only a request without one times out.
-/

namespace TxStore.Lock

/-- A queued request as its caller knows it. -/
structure Waiting where
  /-- The key. -/
  key : Key
  /-- The ticket. -/
  ticket : Ticket
  /-- The instant at which the caller stops waiting. -/
  deadline : Option Duration
  deriving DecidableEq

/-- How far an acquisition has come. -/
inductive Acquisition where
  /-- It is over. -/
  | answered (answer : Except Refusal Unit)
  /-- It waits. -/
  | waiting (w : Waiting)

/-- Whether the deadline has come. -/
def Waiting.isDue (w : Waiting) (now : Duration) : Bool :=
  w.deadline.any fun d => d.nanos ≤ now.nanos

namespace Manager

/-- Looks how a queued request ended, and times it out if it has not ended by its deadline. -/
def poll (m : Manager) (now : Duration) (w : Waiting) : Manager × Acquisition :=
  match m.resolution? w.ticket with
  | some wake => (m, .answered wake.answer)
  | none =>
    if w.isDue now then (m.expire w.key w.ticket, .answered (.error .timeout))
    else (m, .waiting w)

/-- Asks for a key. A queued request may wait for the manager's timeout, and not at all if that is
zero. -/
def acquire (m : Manager) (now : Duration) (mode : Mode) (me : Holder) (k : Key) :
    Manager × Acquisition :=
  match m.request mode me k with
  | (m, .granted) => (m, .answered (.ok ()))
  | (m, .refused why) => (m, .answered (.error why))
  | (m, .queued ticket) =>
    m.poll now ⟨k, ticket, m.timeout.map fun d => ⟨now.nanos + d.nanos⟩⟩

end Manager

/-- The deadline of a queued request. -/
structure Deadline where
  /-- The instant at which the caller stops waiting. -/
  instant : Duration
  /-- The ticket of the request. -/
  ticket : Ticket
  /-- The number of the caller. -/
  caller : Nat
  deriving DecidableEq

namespace Deadline

/-- The earliest instant of several deadlines, up to a limit. -/
def earliest? (limit : Duration) (deadlines : List Deadline) : Option Duration :=
  ((deadlines.map fun d => d.instant.nanos).filter fun n => n ≤ limit.nanos).min?.map Duration.mk

/-- The callers whose deadline is an instant, in the order in which they were queued. -/
def callersAt (instant : Duration) (deadlines : List Deadline) : List Nat :=
  ((deadlines.filter fun d => d.instant = instant).mergeSort fun d e => d.ticket ≤ e.ticket).map
    caller

end Deadline

/-- Where a request stands. -/
inductive Stage where
  /-- It has not asked yet. -/
  | issued
  /-- It is queued. -/
  | waiting (w : Waiting)
  /-- It is over. -/
  | answered (answer : Except Refusal Unit)
  /-- Its caller gave up. -/
  | cancelled

/-- A lock request of a client. -/
structure Request where
  /-- What for. -/
  mode : Mode
  /-- On whose behalf. -/
  holder : Holder
  /-- The key. -/
  key : Key
  /-- Where it stands. -/
  stage : Stage

/-- Where a request stands after an acquisition. -/
def Stage.of : Manager × Acquisition → Manager × Stage
  | (m, .answered answer) => (m, .answered answer)
  | (m, .waiting w) => (m, .waiting w)

/-- Whether a request is queued under this ticket. -/
def Request.waitsOn (r : Request) (ticket : Ticket) : Bool :=
  match r.stage with
  | .waiting w => w.ticket = ticket
  | _ => false

/-- Runs a request as far as it goes. -/
def Request.run (r : Request) (m : Manager) (now : Duration) : Manager × Stage :=
  match r.stage with
  | .issued => Stage.of (m.acquire now r.mode r.holder r.key)
  | .waiting w => Stage.of (m.poll now w)
  | .answered _ | .cancelled => (m, r.stage)

end TxStore.Lock
