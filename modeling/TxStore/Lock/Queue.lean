import TxStore.Lock.Holders

/-!
# One key's holders and its queue

Requests that may wait stand in a queue, first come first served. When holders leave, the queue is
served: its head is judged anew, again and again, until the head has to keep waiting or the queue is
empty. Every request that leaves the queue does so with a `Wake`, the word to its caller. A caller
may have gone by then; a grant to such a caller is taken back.
-/

namespace TxStore.Lock

/-- The number of a queued request. The numbers of a manager count up from one and are natural
numbers, so that none is given out twice. A counter of 64 bits gives out the same ones as long as
fewer than `2^64` requests are queued in the life of a manager, which is assumed here. -/
abbrev Ticket := Nat

/-- How a queued request ends. -/
inductive Wake where
  /-- It holds the key. -/
  | granted
  /-- It was turned away. -/
  | conflict
  /-- Its transaction gave up its locks. -/
  | released
  /-- Its deadline passed. -/
  | timedOut
  /-- Its caller had gone. -/
  | abandoned
  deriving DecidableEq

/-- A queued request. -/
structure Waiter where
  /-- Who asks. -/
  holder : Holder
  /-- What for. -/
  mode : Mode
  /-- Its number. -/
  ticket : Ticket
  /-- Whether the caller still listens. -/
  live : Bool
  deriving DecidableEq

/-- A ticket and how its request ended. -/
abbrev Resolution := Ticket × Wake

/-- The word to a waiter's caller, if it still listens. -/
def Waiter.resolution (w : Waiter) (wake : Wake) : Resolution :=
  (w.ticket, if w.live then wake else .abandoned)

/-- The lock state of one key. -/
structure KeyLock where
  /-- Who holds it. -/
  holders : Holders
  /-- Who waits for it, first come first. -/
  queue : List Waiter
  deriving DecidableEq

namespace KeyLock

/-- Neither held nor waited for. -/
def free : KeyLock := ⟨.nobody, []⟩

/-- A key is free by default. -/
instance : Inhabited KeyLock := ⟨free⟩

/-- Judges waiters from the front of a queue against the holders `s`, until one has to keep
waiting. Waiters of released transactions are turned out on the way. -/
def serveFrom (released : List TransactionId) (s : Holders) :
    List Waiter → KeyLock × List Resolution
  | [] => (⟨s, []⟩, [])
  | w :: rest =>
    if w.holder.txn ∈ released then
      let (lock, resolved) := serveFrom released s rest
      (lock, w.resolution .released :: resolved)
    else
      match s.judge released w.holder w.mode with
      | .wait => (⟨s, w :: rest⟩, [])
      | .conflict =>
        let (lock, resolved) := serveFrom released s rest
        (lock, w.resolution .conflict :: resolved)
      | .grant =>
        let entered := s.enter w.holder w.mode
        let kept := if w.live then entered else entered.takeBack s w.holder w.mode
        let (lock, resolved) := serveFrom released kept rest
        (lock, w.resolution .granted :: resolved)

/-- Serves the queue. -/
def serve (l : KeyLock) (released : List TransactionId) : KeyLock × List Resolution :=
  serveFrom released l.holders l.queue

/-- Appends a request to the queue. -/
def append (l : KeyLock) (w : Waiter) : KeyLock :=
  { l with queue := l.queue ++ [w] }

/-- Strikes `txn` from the holders and the queue, and serves the queue. -/
def release (l : KeyLock) (txn : TransactionId) (released : List TransactionId) :
    KeyLock × List Resolution :=
  let leaving := l.queue.filter fun w => w.holder.txn = txn
  let staying := l.queue.filter fun w => w.holder.txn ≠ txn
  let (lock, resolved) := (KeyLock.mk (l.holders.drop txn) staying).serve released
  (lock, leaving.map (·.resolution .released) ++ resolved)

/-- Whether the request with this ticket is still queued. -/
def isQueued (l : KeyLock) (ticket : Ticket) : Bool :=
  l.queue.any fun w => w.ticket = ticket

/-- Removes a request whose deadline has passed, and serves the queue. A request that is no
longer queued has ended already, and nothing changes. -/
def expire (l : KeyLock) (ticket : Ticket) (released : List TransactionId) :
    KeyLock × List Resolution :=
  if l.isQueued ticket then
    let staying := l.queue.filter fun w => w.ticket ≠ ticket
    let (lock, resolved) := { l with queue := staying }.serve released
    (lock, (ticket, .timedOut) :: resolved)
  else (l, [])

/-- Notes that the caller of a queued request has gone. -/
def abandon (l : KeyLock) (ticket : Ticket) : KeyLock :=
  { l with
    queue := l.queue.map fun w => if w.ticket = ticket then { w with live := false } else w }

end KeyLock

end TxStore.Lock
