import TxStore.Transaction.Session
import TxStore.Proofs.Transaction.Calls

/-!
# The life of a transaction among its guards and waiting calls

Anyone may register with a transaction, give a guard back, begin to finish the transaction, end its
life, or wait until no operation is in flight, in any order. `Sound.move` says once what an action
can do. From it follow what happens to one transaction (`Move.known`) and to one waiting call
(`Move.call`), and the invariant `Sound`: the operations in flight are counted by the guards that
are held, calls are parked only while there are some, and each call that has not returned is parked
or in line. A transaction that is no longer active never is again and gets no more operations
(`Later.closed`), so that once it has none in flight, every call that waits for it returns in its
next turn (`Sound.returns`).
-/

namespace TxStore

/-- What is found after one transaction was replaced: the replacement, or what was there. -/
theorem Directory.of_find?_set {d : Directory} {t u : TransactionId} {txn old new : Transaction}
    (hold : d.find? u = some old) (h : (d.set u new).find? t = some txn) :
    u = t ∧ new = txn ∨ u ≠ t ∧ d.find? t = some txn := by
  rw [find?_set hold] at h
  split at h
  · rename_i heq
    exact .inl ⟨heq, Option.some.inj h⟩
  · rename_i hne
    exact .inr ⟨hne, h⟩

namespace Transaction

/-- Who leaves hands out the parked calls, and keeps none, if no operation is in flight any more.
Otherwise they stay parked. -/
theorem parked_deregister (txn : Transaction) :
    (∀ i ∈ txn.parked, i ∈ txn.deregister.1.parked ∨ i ∈ txn.deregister.2) ∧
      (txn.deregister.1.parked ≠ [] → txn.parked ≠ [] ∧ txn.inFlight ≠ 1) := by
  unfold deregister
  split
  · exact ⟨fun _ hi => .inr hi, fun hne => absurd rfl hne⟩
  · rename_i hmore
    exact ⟨fun _ hi => .inl hi, fun hne => ⟨hne, hmore⟩⟩

/-- A call that finds operations in flight is parked, and all that were stay so. -/
theorem mem_parked_awaitIdle {txn : Transaction} {i j : Nat} (hbusy : txn.inFlight ≠ 0)
    (hj : j = i ∨ j ∈ txn.parked) : j ∈ (txn.awaitIdle i).1.parked := by
  unfold awaitIdle
  rw [if_neg hbusy]
  split
  · rename_i hparked
    exact hj.elim (fun heq => heq ▸ hparked) fun hmem => hmem
  · exact hj.elim (fun heq => List.mem_append_right _ (heq ▸ List.mem_singleton_self i))
      (List.mem_append_left _)

/-- The number of guards of a transaction that are held. -/
def live (guards : Array Guard) (t : TransactionId) : Nat :=
  guards.countP fun g => g.txn = t ∧ g.held

/-- A new guard is held. -/
theorem live_push (guards : Array Guard) (t u : TransactionId) :
    live (guards.push ⟨t, true⟩) u = live guards u + if t = u then 1 else 0 := by
  unfold live
  rw [Array.countP_push]
  simp only [and_true, decide_eq_true_eq]

/-- A guard that is held counts. -/
theorem live_pos {guards : Array Guard} {g : Nat} {t : TransactionId}
    (h : guards[g]? = some ⟨t, true⟩) : 0 < live guards t :=
  Array.countP_pos_iff.mpr ⟨⟨t, true⟩, Array.mem_of_getElem? h, decide_eq_true ⟨rfl, rfl⟩⟩

/-- A guard that is given back counts no more. -/
theorem live_give {guards : Array Guard} {g : Nat} {t : TransactionId}
    (h : guards[g]? = some ⟨t, true⟩) (u : TransactionId) :
    live (guards.setIfInBounds g ⟨t, false⟩) u = live guards u - if t = u then 1 else 0 := by
  obtain ⟨hlt, hget⟩ := Array.getElem?_eq_some_iff.mp h
  -- The guard that is put in place of the other differs from it in nothing but that it is not held.
  unfold live
  rw [Array.setIfInBounds_def, dif_pos hlt, Array.countP_set, hget]
  simp

namespace Session

/-- What anyone may do. -/
inductive Action where
  /-- Start, restart or end transactions, and change their logs. -/
  | manage (call : Directory.Call)
  /-- Register an operation with a transaction. -/
  | register (t : TransactionId)
  /-- Give a guard back. -/
  | deregister (g : Nat)
  /-- Begin to finish a transaction. -/
  | turnTo (t : TransactionId) (target : Phase)
  /-- End a transaction's life. -/
  | finish (t : TransactionId)
  /-- Wait until no operation of a transaction is in flight. -/
  | drain (t : TransactionId)
  /-- Let a waiting call look at its transaction. -/
  | resume (i : Nat)

/-- The session after an action. If it is refused, nothing changes. -/
def perform (s : Session) : Action → Session
  | .manage call => { s with directory := (s.directory.perform call).2 }
  | .register t =>
    match s.register t with
    | .error _ => s
    | .ok (_, s') => s'
  | .deregister g => (s.deregister g).2
  | .turnTo t target =>
    match s.turnTo t target with
    | .error _ => s
    | .ok s' => s'
  | .finish t => s.finish t
  | .drain t => s.drain t
  | .resume i => s.resume i

/-- A transaction is turned to be committed or aborted, and only those who have it wait for it. -/
def Accepts (s : Session) : Action → Prop
  | .turnTo _ target => target.isClosing
  | .drain t => ∃ txn, s.directory.find? t = some txn
  | .manage _ | .register _ | .deregister _ | .finish _ | .resume _ => True

/-- The sessions that come after a session. -/
inductive Later (s : Session) : Session → Prop where
  /-- Nothing has happened. -/
  | refl : Later s s
  /-- One more action. -/
  | perform {s' : Session} {a : Action} (later : Later s s') (accepted : s'.Accepts a) :
      Later s (s'.perform a)

/-- The sessions that are reached by any actions from one without transactions. -/
def Reachable (s : Session) : Prop :=
  Later new s

/-! ## What an action can do -/

/-- What an action can do to a session. -/
inductive Move (s : Session) : Action → Session → Prop where
  /-- A refused action changes nothing. -/
  | refused {a : Action} : Move s a s
  /-- The directory is changed by one of its calls. -/
  | managed (call : Directory.Call) :
      Move s (.manage call) { s with directory := (s.directory.perform call).2 }
  /-- An active transaction gets a guard. -/
  | registered {t : TransactionId} {txn : Transaction} (found : s.directory.find? t = some txn)
      (active : txn.phase = .active) :
      Move s (.register t) { s with
        directory := s.directory.set t { txn with inFlight := txn.inFlight + 1 }
        guards := s.guards.push ⟨t, true⟩ }
  /-- A guard that is held is given back. -/
  | deregistered {t : TransactionId} {txn : Transaction} {g : Nat}
      (held : s.guards[g]? = some ⟨t, true⟩) (found : s.directory.find? t = some txn) :
      Move s (.deregister g) { s with
        directory := s.directory.set t txn.deregister.1
        guards := s.guards.setIfInBounds g ⟨t, false⟩
        ready := s.ready ++ txn.deregister.2 }
  /-- An active transaction is turned. -/
  | turned {t : TransactionId} {txn : Transaction} {target : Phase}
      (found : s.directory.find? t = some txn) (active : txn.phase = .active) :
      Move s (.turnTo t target)
        { s with directory := s.directory.set t { txn with phase := target } }
  /-- A transaction's life ends. -/
  | finished {t : TransactionId} {txn : Transaction} (found : s.directory.find? t = some txn) :
      Move s (.finish t) { s with directory := s.directory.set t txn.finish }
  /-- A call is issued. -/
  | issued (t : TransactionId) :
      Move s (.drain t)
        { s with calls := s.calls.push ⟨t, false⟩, ready := s.ready ++ [s.calls.size] }
  /-- There is no such call, or it has returned. -/
  | skipped {i : Nat} (gone : ∀ t, s.calls[i]? ≠ some ⟨t, false⟩) :
      Move s (.resume i) { s with ready := s.ready.erase i }
  /-- A call finds no operation in flight and returns. -/
  | returned {t : TransactionId} {txn : Transaction} {i : Nat}
      (waits : s.calls[i]? = some ⟨t, false⟩) (found : s.directory.find? t = some txn)
      (idle : txn.inFlight = 0) :
      Move s (.resume i) { s with
        ready := s.ready.erase i
        calls := s.calls.setIfInBounds i ⟨t, true⟩ }
  /-- A call finds operations in flight and is parked. -/
  | parked {t : TransactionId} {txn : Transaction} {i : Nat}
      (waits : s.calls[i]? = some ⟨t, false⟩) (found : s.directory.find? t = some txn)
      (busy : txn.inFlight ≠ 0) :
      Move s (.resume i) { s with
        ready := s.ready.erase i
        directory := s.directory.set t (txn.awaitIdle i).1 }

/-- Whether the books of a session are in order. -/
structure Sound (s : Session) : Prop where
  /-- Every guard is one of a transaction that is there. -/
  guarded : ∀ guard ∈ s.guards, ∃ txn, s.directory.find? guard.txn = some txn
  /-- Every call waits for a transaction that is there. -/
  called : ∀ call ∈ s.calls, ∃ txn, s.directory.find? call.txn = some txn
  /-- The operations in flight are those whose guards are held. -/
  counted : ∀ t txn, s.directory.find? t = some txn → txn.inFlight = live s.guards t
  /-- Calls are parked only while operations are in flight. -/
  busy : ∀ t txn, s.directory.find? t = some txn → txn.parked ≠ [] → txn.inFlight ≠ 0
  /-- A call that has not returned is in line or parked. -/
  waiting : ∀ i t txn, s.calls[i]? = some ⟨t, false⟩ → s.directory.find? t = some txn →
    i ∈ s.ready ∨ i ∈ txn.parked

variable {s s' s'' : Session} {a : Action} {t u : TransactionId} {txn : Transaction} {i j g : Nat}

/-- An active transaction registers every operation, and any other none. -/
theorem register_eq (hfound : s.directory.find? t = some txn) :
    s.register t = if txn.phase = .active then
      .ok (s.guards.size, { s with
        directory := s.directory.set t { txn with inFlight := txn.inFlight + 1 }
        guards := s.guards.push ⟨t, true⟩ })
    else .error .terminalState := by
  unfold register Transaction.register
  rw [hfound]
  dsimp only
  by_cases hactive : txn.phase = .active
  · rw [if_pos hactive, if_pos hactive]
  · rw [if_neg hactive, if_neg hactive]

/-- An active transaction can be turned, and no other. -/
theorem turnTo_eq (hfound : s.directory.find? t = some txn) (target : Phase) :
    s.turnTo t target = if txn.phase = .active then
      .ok { s with directory := s.directory.set t { txn with phase := target } }
    else .error .terminalState := by
  unfold turnTo Transaction.turnTo
  rw [hfound]
  dsimp only
  by_cases hactive : txn.phase = .active
  · rw [if_pos hactive, if_pos hactive]
  · rw [if_neg hactive, if_neg hactive]

/-- Giving back a guard does one of these things. -/
theorem Sound.move_deregister (h : s.Sound) (g : Nat) :
    Move s (.deregister g) (s.perform (.deregister g)) := by
  dsimp only [perform]
  unfold deregister
  cases hguard : s.guards[g]? with
  | none => exact .refused
  | some guard =>
    obtain ⟨t, held⟩ := guard
    cases held with
    -- A guard is given back once only.
    | false => exact .refused
    | true =>
      obtain ⟨txn, hfound⟩ := h.guarded _ (Array.mem_of_getElem? hguard)
      dsimp only at hfound ⊢
      rw [if_pos rfl, hfound]
      exact .deregistered hguard hfound

/-- The turn of a call does one of these things. -/
theorem Sound.move_resume (h : s.Sound) (i : Nat) :
    Move s (.resume i) (s.perform (.resume i)) := by
  dsimp only [perform]
  unfold resume
  dsimp only
  cases hcall : s.calls[i]? with
  | none => exact .skipped fun t => by rw [hcall]; exact nofun
  | some call =>
    obtain ⟨t, returned⟩ := call
    cases returned with
    | true => exact .skipped fun u => by rw [hcall]; exact nofun
    | false =>
      -- Its transaction is there, which is where the call looks.
      obtain ⟨txn, hfound⟩ := h.called _ (Array.mem_of_getElem? hcall)
      dsimp only at hfound ⊢
      rw [if_neg Bool.false_ne_true, hfound]
      dsimp only
      -- It returns if no operation is in flight, and is parked with the transaction otherwise.
      by_cases hidle : txn.inFlight = 0
      · have hawait : txn.awaitIdle i = (txn, true) := if_pos hidle
        rw [hawait]
        exact .returned hcall hfound hidle
      · have hawait : txn.awaitIdle i = ((txn.awaitIdle i).1, false) := by
          unfold awaitIdle
          rw [if_neg hidle]
          split <;> rfl
        rw [hawait]
        exact .parked hcall hfound hidle

/-- An action does one of these things. -/
theorem Sound.move (h : s.Sound) (a : Action) : Move s a (s.perform a) := by
  -- By cases on the action. What is refused changes nothing; that the transaction of a guard or of a
  -- call is there is what the books are needed for.
  cases a with
  | manage call => exact .managed call
  | register t =>
    dsimp only [perform]
    -- Whether it is registered depends on the phase of its transaction alone.
    cases hfound : s.directory.find? t with
    | none =>
      unfold register
      rw [hfound]
      exact .refused
    | some txn =>
      rw [register_eq hfound]
      by_cases hactive : txn.phase = .active
      · rw [if_pos hactive]
        exact .registered hfound hactive
      · rw [if_neg hactive]
        exact .refused
  | deregister g => exact h.move_deregister g
  | turnTo t target =>
    dsimp only [perform]
    cases hfound : s.directory.find? t with
    | none =>
      unfold turnTo
      rw [hfound]
      exact .refused
    | some txn =>
      rw [turnTo_eq hfound]
      by_cases hactive : txn.phase = .active
      · rw [if_pos hactive]
        exact .turned hfound hactive
      · rw [if_neg hactive]
        exact .refused
  | finish t =>
    dsimp only [perform]
    unfold finish Directory.modify
    cases hfound : s.directory.find? t with
    | none => exact .refused
    | some txn => exact .finished hfound
  | drain t => exact .issued t
  | resume i => exact h.move_resume i

/-! ## One transaction -/

/-- How an action may change a transaction. -/
structure Goes (a : Action) (t : TransactionId) (txn txn' : Transaction) : Prop where
  /-- An active transaction may be turned, and any may end. -/
  phase : txn'.phase = txn.phase ∨ txn.phase = .active ∧ a = .turnTo t txn'.phase ∨
    txn'.phase = .ready ∧ a = .finish t
  /-- Operations come only while it is active. -/
  inFlight : txn'.inFlight ≤ txn.inFlight ∨ txn.phase = .active

/-- A transaction need not change. -/
theorem Goes.same : Goes a t txn txn :=
  ⟨.inl rfl, .inl (Nat.le_refl _)⟩

namespace Move

/-- A transaction stays there, and changes in these ways only. -/
theorem known (move : Move s a s') (hfound : s.directory.find? t = some txn) :
    ∃ txn', s'.directory.find? t = some txn' ∧ Goes a t txn txn' := by
  -- Most actions replace one transaction, which may be this one.
  have hset : ∀ {u old new}, s.directory.find? u = some old → Goes a u old new →
      ∃ txn', (s.directory.set u new).find? t = some txn' ∧ Goes a t txn txn' := by
    intro u old new hold hgoes
    by_cases hut : u = t
    · subst hut
      cases hold.symm.trans hfound
      exact ⟨new, (Directory.find?_set hold new u).trans (if_pos rfl), hgoes⟩
    · exact ⟨txn, (Directory.find?_set hold new t).trans ((if_neg hut).trans hfound), .same⟩
  -- By cases on what the action does: only a registration raises the number in flight, and only
  -- turning and finishing change the phase.
  cases move with
  | refused => exact ⟨txn, hfound, .same⟩
  | managed call =>
    obtain ⟨log, hlog⟩ := Directory.find?_perform hfound call
    exact ⟨_, hlog, .inl rfl, .inl (Nat.le_refl _)⟩
  | registered found active => exact hset found ⟨.inl rfl, .inr active⟩
  | deregistered held found =>
    refine hset found ⟨.inl (deregister_spec _).2.1, .inl ?_⟩
    rw [inFlight_deregister]
    exact Nat.sub_le _ _
  | turned found active => exact hset found ⟨.inr (.inl ⟨active, rfl⟩), .inl (Nat.le_refl _)⟩
  | finished found => exact hset found ⟨.inr (.inr ⟨rfl, rfl⟩), .inl (Nat.le_refl _)⟩
  | issued t => exact ⟨txn, hfound, .same⟩
  | skipped gone => exact ⟨txn, hfound, .same⟩
  | returned waits found idle => exact ⟨txn, hfound, .same⟩
  | parked waits found busy =>
    have hspec := awaitIdle_spec
    exact hset found ⟨.inl (hspec _ _).1, .inl (Nat.le_of_eq (hspec _ _).2.1)⟩

/-! ## One call -/

variable {b : Bool}

/-- A call is not lost, and returns only in its own turn and when no operation is in flight. -/
theorem call (move : Move s a s') (hcall : s.calls[i]? = some ⟨t, b⟩) :
    s'.calls[i]? = some ⟨t, b⟩ ∨ s'.calls[i]? = some ⟨t, true⟩ ∧ a = .resume i ∧
      ∃ txn, s.directory.find? t = some txn ∧ txn.inFlight = 0 := by
  have hlt : i < s.calls.size := (Array.getElem?_eq_some_iff.mp hcall).1
  -- No action but a new call and a return touches the calls.
  cases move with
  | issued u => exact .inl (Array.getElem?_push.trans ((if_neg (Nat.ne_of_lt hlt)).trans hcall))
  | @returned u txn j waits found idle =>
    by_cases hji : j = i
    · subst hji
      cases waits.symm.trans hcall
      refine .inr ⟨?_, rfl, txn, found, idle⟩
      exact Array.getElem?_setIfInBounds.trans ((if_pos rfl).trans (if_pos hlt))
    · exact .inl (Array.getElem?_setIfInBounds.trans ((if_neg hji).trans hcall))
  | refused | managed | registered | deregistered | turned | finished | skipped | parked =>
    exact .inl hcall

/-- A call that waits has waited before, or is new and in line. -/
theorem call_before (move : Move s a s') (hcall : s'.calls[i]? = some ⟨t, false⟩) :
    s.calls[i]? = some ⟨t, false⟩ ∨ i ∈ s'.ready := by
  cases move with
  | issued u =>
    rw [Array.getElem?_push] at hcall
    split at hcall
    · rename_i heq
      cases hcall
      exact .inr (List.mem_append_right _ (heq ▸ List.mem_singleton_self _))
    · exact .inl hcall
  | @returned u txn j waits found idle =>
    rw [Array.getElem?_setIfInBounds] at hcall
    split at hcall
    · split at hcall <;> cases hcall
    · exact .inl hcall
  | refused | managed | registered | deregistered | turned | finished | skipped | parked =>
    exact .inl hcall

/-- A call leaves the line only in its own turn. -/
theorem ready (move : Move s a s') (hi : i ∈ s.ready) : i ∈ s'.ready ∨ a = .resume i := by
  have herase : ∀ j, i ∈ s.ready.erase j ∨ Action.resume j = .resume i := by
    intro j
    by_cases hij : i = j
    · exact .inr (congrArg Action.resume hij.symm)
    · exact .inl ((List.mem_erase_of_ne hij).mpr hi)
  cases move with
  | deregistered => exact .inl (List.mem_append_left _ hi)
  | issued => exact .inl (List.mem_append_left _ hi)
  | skipped => exact herase _
  | returned => exact herase _
  | parked => exact herase _
  | refused | managed | registered | turned | finished => exact .inl hi

/-! ## The books stay in order -/

/-- The guards stay those of transactions that are there. -/
theorem guarded (move : Move s a s') (h : s.Sound) :
    ∀ guard ∈ s'.guards, ∃ txn, s'.directory.find? guard.txn = some txn := by
  -- The transactions of the guards were there before the action, that of a new guard, too; and no
  -- transaction is lost.
  have hbefore : ∀ guard ∈ s'.guards, ∃ txn, s.directory.find? guard.txn = some txn := by
    intro guard hmem
    cases move with
    | @registered t txn found active =>
      rcases Array.mem_push.mp hmem with hmem | rfl
      · exact h.guarded guard hmem
      · exact ⟨txn, found⟩
    | @deregistered t txn g held found =>
      rcases Array.mem_or_eq_of_mem_setIfInBounds hmem with hmem | rfl
      · exact h.guarded guard hmem
      · exact ⟨txn, found⟩
    | refused | managed | turned | finished | issued | skipped | returned | parked =>
      exact h.guarded guard hmem
  intro guard hmem
  obtain ⟨txn, hfound⟩ := hbefore guard hmem
  obtain ⟨txn', hfound', -⟩ := move.known hfound
  exact ⟨txn', hfound'⟩

/-- The calls stay those that wait for transactions that are there. -/
theorem called (move : Move s a s') (h : s.Sound) (accepted : s.Accepts a) :
    ∀ call ∈ s'.calls, ∃ txn, s'.directory.find? call.txn = some txn := by
  -- It is the same with the calls, where a new one is accepted only for a transaction that is
  -- there.
  have hbefore : ∀ call ∈ s'.calls, ∃ txn, s.directory.find? call.txn = some txn := by
    intro call hmem
    cases move with
    | issued t =>
      rcases Array.mem_push.mp hmem with hmem | rfl
      · exact h.called call hmem
      · exact accepted
    | @returned t txn i waits found idle =>
      rcases Array.mem_or_eq_of_mem_setIfInBounds hmem with hmem | rfl
      · exact h.called call hmem
      · exact ⟨txn, found⟩
    | refused | managed | registered | deregistered | turned | finished | skipped | parked =>
      exact h.called call hmem
  intro call hmem
  obtain ⟨txn, hfound⟩ := hbefore call hmem
  obtain ⟨txn', hfound', -⟩ := move.known hfound
  exact ⟨txn', hfound'⟩

/-- A transaction that is new has no guards. -/
theorem live_eq_zero (h : s.Sound) (hnone : s.directory.find? t = none) : live s.guards t = 0 := by
  refine Nat.eq_zero_of_not_pos fun hpos => ?_
  -- A guard of it would be one of a transaction that is there.
  obtain ⟨guard, hmem, hguard⟩ := Array.countP_pos_iff.mp hpos
  obtain ⟨txn, hfound⟩ := h.guarded guard hmem
  rw [(of_decide_eq_true hguard).1, hnone] at hfound
  cases hfound

/-- The operations in flight are still those whose guards are held. -/
theorem counted (move : Move s a s') (h : s.Sound) (t : TransactionId) (txn : Transaction)
    (hfound : s'.directory.find? t = some txn) : txn.inFlight = live s'.guards t := by
  -- A replaced transaction is counted like the one before, and the others do not change.
  have hset : ∀ {u old new}, s.directory.find? u = some old →
      (s.directory.set u new).find? t = some txn → new.inFlight = old.inFlight →
      txn.inFlight = live s.guards t := by
    intro u old new hold hnew hsame
    rcases Directory.of_find?_set hold hnew with ⟨rfl, rfl⟩ | ⟨-, hfound⟩
    · exact hsame.trans (h.counted u old hold)
    · exact h.counted t txn hfound
  cases move with
  -- The directory may make a new transaction, which nobody has registered with, or change the log
  -- of one.
  | managed call =>
    cases hbefore : s.directory.find? t with
    | none =>
      obtain ⟨c, ts, origin, rfl⟩ := Directory.new_of_find?_perform hbefore hfound
      exact (live_eq_zero h hbefore).symm
    | some old =>
      obtain ⟨log, hlog⟩ := Directory.find?_perform hbefore call
      cases hlog.symm.trans hfound
      exact h.counted t old hbefore
  | @registered u old found active =>
    dsimp only
    rw [live_push]
    rcases Directory.of_find?_set found hfound with ⟨rfl, rfl⟩ | ⟨hne, hfound⟩
    · rw [if_pos rfl, ← h.counted u old found]
    · rw [if_neg hne]
      exact h.counted t txn hfound
  | @deregistered u old g held found =>
    dsimp only
    rw [live_give held]
    rcases Directory.of_find?_set found hfound with ⟨rfl, rfl⟩ | ⟨hne, hfound⟩
    · rw [if_pos rfl, inFlight_deregister, h.counted u old found]
    · rw [if_neg hne]
      exact h.counted t txn hfound
  | turned found active => exact hset found hfound rfl
  | finished found => exact hset found hfound rfl
  | parked waits found busy => exact hset found hfound (awaitIdle_spec _ _).2.1
  | refused | issued | skipped | returned => exact h.counted t txn hfound

/-- Calls are still parked only while operations are in flight. -/
theorem busy (move : Move s a s') (h : s.Sound) (t : TransactionId) (txn : Transaction)
    (hfound : s'.directory.find? t = some txn) (hparked : txn.parked ≠ []) : txn.inFlight ≠ 0 := by
  -- One transaction is replaced at most, and the others stay busy.
  have hset : ∀ {u old new}, s.directory.find? u = some old →
      (s.directory.set u new).find? t = some txn → (new.parked ≠ [] → new.inFlight ≠ 0) →
      txn.inFlight ≠ 0 := by
    intro u old new hold hnew hbusy
    rcases Directory.of_find?_set hold hnew with ⟨rfl, rfl⟩ | ⟨-, hfound⟩
    · exact hbusy hparked
    · exact h.busy t txn hfound hparked
  cases move with
  | managed call =>
    cases hbefore : s.directory.find? t with
    | none =>
      obtain ⟨c, ts, origin, rfl⟩ := Directory.new_of_find?_perform hbefore hfound
      exact absurd rfl hparked
    | some old =>
      obtain ⟨log, hlog⟩ := Directory.find?_perform hbefore call
      cases hlog.symm.trans hfound
      exact h.busy t old hbefore hparked
  | registered found active => exact hset found hfound fun _ => Nat.succ_ne_zero _
  -- Who leaves last takes all parked calls along; who does not leaves somebody behind.
  | @deregistered u old g held found =>
    refine hset found hfound fun hkept => ?_
    obtain ⟨hwere, hmore⟩ := old.parked_deregister.2 hkept
    have hsome := h.busy u old found hwere
    rw [inFlight_deregister]
    omega
  | @turned u old target found active => exact hset found hfound (h.busy u old found)
  | @finished u old found => exact hset found hfound (h.busy u old found)
  | parked waits found hbusy =>
    refine hset found hfound fun _ => ?_
    rw [(awaitIdle_spec _ _).2.1]
    exact hbusy
  | refused | issued | skipped | returned => exact h.busy t txn hfound hparked

/-- A parked call stays parked until it is put in line. -/
theorem parked_or_ready {txn' : Transaction} (move : Move s a s')
    (hfound : s.directory.find? t = some txn) (hfound' : s'.directory.find? t = some txn')
    (hi : i ∈ txn.parked) : i ∈ s'.ready ∨ i ∈ txn'.parked := by
  -- The call is parked with the transaction that is replaced, or with another one, which stays.
  have hset : ∀ {u old new}, s.directory.find? u = some old →
      (s.directory.set u new).find? t = some txn' →
      (i ∈ old.parked → i ∈ s'.ready ∨ i ∈ new.parked) → i ∈ s'.ready ∨ i ∈ txn'.parked := by
    intro u old new hold hnew hkept
    rcases Directory.of_find?_set hold hnew with ⟨rfl, rfl⟩ | ⟨-, hsame⟩
    · cases hold.symm.trans hfound
      exact hkept hi
    · cases hsame.symm.trans hfound
      exact .inr hi
  cases move with
  | managed call =>
    obtain ⟨log, hlog⟩ := Directory.find?_perform hfound call
    cases hlog.symm.trans hfound'
    exact .inr hi
  | registered found active => exact hset found hfound' .inr
  -- Those who are handed out are put in line by the same action.
  | @deregistered u old g held found =>
    refine hset found hfound' fun hi => ?_
    exact (old.parked_deregister.1 i hi).symm.imp_left (List.mem_append_right _)
  | turned found active => exact hset found hfound' .inr
  | finished found => exact hset found hfound' .inr
  | parked waits found busy =>
    exact hset found hfound' fun hi => .inr (mem_parked_awaitIdle busy (.inr hi))
  | refused | issued | skipped | returned =>
    cases hfound.symm.trans hfound'
    exact .inr hi

/-- A call that has not returned is still in line or parked. -/
theorem waiting (move : Move s a s') (h : s.Sound) (i : Nat) (t : TransactionId)
    (txn : Transaction) (hcall : s'.calls[i]? = some ⟨t, false⟩)
    (hfound : s'.directory.find? t = some txn) : i ∈ s'.ready ∨ i ∈ txn.parked := by
  -- It was in line or parked before the action, if it was there; a new call is in line.
  rcases move.call_before hcall with hwaited | hnew
  · obtain ⟨old, hold⟩ := h.called _ (Array.mem_of_getElem? hwaited)
    rcases h.waiting i t old hwaited hold with hready | hparked
    · rcases move.ready hready with hready | rfl
      · exact .inl hready
      · -- The call has had its turn, and if it has not returned it is parked.
        cases move with
        | refused => exact .inl hready
        | skipped gone => exact absurd hwaited (gone t)
        | returned waits found idle =>
          rw [Array.getElem?_setIfInBounds, if_pos rfl] at hcall
          split at hcall <;> cases hcall
        | parked waits found busy =>
          cases waits.symm.trans hwaited
          rcases Directory.of_find?_set found hfound with ⟨-, rfl⟩ | ⟨hne, -⟩
          · exact .inr (mem_parked_awaitIdle busy (.inl rfl))
          · exact absurd rfl hne
    · exact move.parked_or_ready hold hfound hparked
  · exact .inl hnew

end Move

/-- The books of a new session are in order. -/
theorem Sound.new : Session.new.Sound where
  guarded guard hmem := absurd hmem (Array.not_mem_empty guard)
  called call hmem := absurd hmem (Array.not_mem_empty call)
  counted t txn hfound := by cases hfound
  busy t txn hfound := by cases hfound
  waiting i t txn hcall := by cases hcall

/-- An action keeps the books in order. -/
theorem Sound.perform (h : s.Sound) (accepted : s.Accepts a) : (s.perform a).Sound where
  guarded := (h.move a).guarded h
  called := (h.move a).called h accepted
  counted := (h.move a).counted h
  busy := (h.move a).busy h
  waiting := (h.move a).waiting h

/-! ## What comes later -/

namespace Later

/-- What comes later comes later than what was before. -/
theorem trans (h : Later s s') (h' : Later s' s'') : Later s s'' := by
  induction h' with
  | refl => exact h
  | perform _ accepted ih => exact ih.perform accepted

/-- The books stay in order. -/
theorem sound (later : Later s s') (h : s.Sound) : s'.Sound := by
  induction later with
  | refl => exact h
  | perform _ accepted ih => exact ih.perform accepted

/-- A transaction that is no longer active never is again, and no operation comes. -/
theorem closed (later : Later s s') (h : s.Sound) (hfound : s.directory.find? t = some txn)
    (hover : txn.phase ≠ .active) : ∃ txn', s'.directory.find? t = some txn' ∧
      txn'.phase ≠ .active ∧ txn'.inFlight ≤ txn.inFlight := by
  -- By induction on the actions since then: no action leads back to the active phase.
  induction later with
  | refl => exact ⟨txn, hfound, hover, Nat.le_refl _⟩
  | perform later accepted ih =>
    obtain ⟨mid, hmid, hclosed, hle⟩ := ih
    obtain ⟨txn', hfound', hgoes⟩ := ((later.sound h).move _).known hmid
    refine ⟨txn', hfound', fun hactive => ?_, ?_⟩
    · rcases hgoes.phase with hsame | ⟨hwas, -⟩ | ⟨hready, -⟩
      · exact hclosed (hsame.symm.trans hactive)
      · exact hclosed hwas
      · cases hready.symm.trans hactive
    · exact Nat.le_trans (hgoes.inFlight.resolve_right hclosed) hle

/-- No call is lost. -/
theorem call {b : Bool} (later : Later s s') (h : s.Sound) (hcall : s.calls[i]? = some ⟨t, b⟩) :
    ∃ b', s'.calls[i]? = some ⟨t, b'⟩ := by
  induction later with
  | refl => exact ⟨b, hcall⟩
  | perform later accepted ih =>
    obtain ⟨b', hmid⟩ := ih
    rcases ((later.sound h).move _).call hmid with hsame | ⟨hreturned, -⟩
    · exact ⟨b', hsame⟩
    · exact ⟨true, hreturned⟩

end Later

/-! ## Calls return -/

/-- A turn takes the call out of the line, once. -/
theorem ready_resume (s : Session) (i : Nat) : (s.resume i).ready = s.ready.erase i := by
  unfold resume
  dsimp only
  split
  · rfl
  · split
    · rfl
    · split
      · rfl
      · split <;> rfl

/-- A call that has its turn when no operation is in flight returns. -/
theorem call_resume (hcall : s.calls[i]? = some ⟨t, false⟩)
    (hfound : s.directory.find? t = some txn) (hidle : txn.inFlight = 0) :
    (s.resume i).calls[i]? = some ⟨t, true⟩ := by
  have hawait : txn.awaitIdle i = (txn, true) := if_pos hidle
  have hlt : i < s.calls.size := (Array.getElem?_eq_some_iff.mp hcall).1
  unfold resume
  dsimp only
  rw [hcall]
  dsimp only
  rw [if_neg Bool.false_ne_true, hfound]
  dsimp only
  rw [hawait]
  exact Array.getElem?_setIfInBounds.trans ((if_pos rfl).trans (if_pos hlt))

/-- If no operation is in flight, all calls that have not returned are in line. -/
theorem Sound.in_line (h : s.Sound) (hfound : s.directory.find? t = some txn)
    (hidle : txn.inFlight = 0) (hcall : s.calls[i]? = some ⟨t, false⟩) : i ∈ s.ready := by
  refine (h.waiting i t txn hcall hfound).resolve_right fun hparked => ?_
  exact h.busy t txn hfound (List.ne_nil_of_mem hparked) hidle

/-- If there are none in line, they have all returned. -/
theorem Sound.returned_of_ready_nil {b : Bool} (h : s.Sound)
    (hfound : s.directory.find? t = some txn) (hidle : txn.inFlight = 0)
    (hcall : s.calls[i]? = some ⟨t, b⟩) (hready : s.ready = []) :
    s.calls[i]? = some ⟨t, true⟩ := by
  cases b with
  | true => exact hcall
  | false =>
    have hline := h.in_line hfound hidle hcall
    rw [hready] at hline
    cases hline

/-- If a transaction is not active and no operation is in flight, all calls that wait for it have
returned when those in line have had their turns. -/
theorem Sound.returned_settleWithin {b : Bool} {fuel : Nat} (h : s.Sound)
    (hfound : s.directory.find? t = some txn) (hover : txn.phase ≠ .active)
    (hidle : txn.inFlight = 0) (hcall : s.calls[i]? = some ⟨t, b⟩)
    (hfuel : s.ready.length ≤ fuel) : (s.settleWithin fuel).calls[i]? = some ⟨t, true⟩ := by
  -- Each turn shortens the line by its head, and the transaction stays over and without operations.
  induction fuel generalizing s txn b with
  | zero => exact h.returned_of_ready_nil hfound hidle hcall (List.length_eq_zero_iff.mp (by omega))
  | succ fuel ih =>
    unfold settleWithin
    split
    · rename_i hready
      exact h.returned_of_ready_nil hfound hidle hcall hready
    · rename_i j rest hready
      have hlater : Later s (s.resume j) := Later.refl.perform (a := .resume j) trivial
      obtain ⟨txn', hfound', hover', hle⟩ := hlater.closed h hfound hover
      obtain ⟨b', hcall'⟩ := hlater.call h hcall
      refine ih (hlater.sound h) hfound' hover' (by omega) hcall' ?_
      rw [ready_resume, hready, List.erase_cons_head]
      rw [hready, List.length_cons] at hfuel
      omega

/-- What becomes of a call that waits for such a transaction: at any later time it has returned, or
it is in line and returns in its next turn, and it has returned when all in line have had theirs. -/
theorem Sound.returns {b : Bool} (h : s.Sound) (hfound : s.directory.find? t = some txn)
    (hover : txn.phase ≠ .active) (hidle : txn.inFlight = 0) (hcall : s.calls[i]? = some ⟨t, b⟩)
    (later : Later s s') :
    (s'.calls[i]? = some ⟨t, true⟩ ∨ s'.calls[i]? = some ⟨t, false⟩ ∧ i ∈ s'.ready ∧
        (s'.resume i).calls[i]? = some ⟨t, true⟩) ∧
      s'.settle.calls[i]? = some ⟨t, true⟩ := by
  have hsound := later.sound h
  obtain ⟨txn', hfound', hover', hle⟩ := later.closed h hfound hover
  -- The transaction stays over, and no operation has come since.
  have hidle' : txn'.inFlight = 0 := by omega
  obtain ⟨b', hcall'⟩ := later.call h hcall
  refine ⟨?_, hsound.returned_settleWithin hfound' hover' hidle' hcall' (Nat.le_refl _)⟩
  cases b' with
  | true => exact .inl hcall'
  | false =>
    exact .inr ⟨hcall', hsound.in_line hfound' hidle' hcall', call_resume hcall' hfound' hidle'⟩

/-- Once a transaction has been turned, it refuses all who register with it or turn it. -/
theorem Sound.refuses {target : Phase} (h : s.Sound) (hfound : s.directory.find? t = some txn)
    (hclosing : target.isClosing) (hturned : s.turnTo t target = .ok s') (later : Later s' s'') :
    s''.register t = .error .terminalState ∧
      ∀ target', s''.turnTo t target' = .error .terminalState := by
  -- The phase that it has been turned to is not the active one, and it never comes back to that.
  have hover : target ≠ .active := by
    rintro rfl
    cases hclosing
  have hsound : s'.Sound := by
    have hperform := h.perform (a := .turnTo t target) hclosing
    dsimp only [Session.perform] at hperform
    rwa [hturned] at hperform
  rw [turnTo_eq hfound] at hturned
  split at hturned
  · cases hturned
    obtain ⟨txn', hfound', hover', -⟩ :=
      later.closed hsound ((Directory.find?_set hfound _ t).trans (if_pos rfl)) hover
    rw [register_eq hfound', if_neg hover']
    refine ⟨rfl, fun target' => ?_⟩
    rw [turnTo_eq hfound', if_neg hover']
  · cases hturned

/-- An operation has left when its guard is given back. -/
theorem find?_deregister (held : s.guards[g]? = some ⟨t, true⟩)
    (hfound : s.directory.find? t = some txn) :
    (s.deregister g).2.directory.find? t = some txn.deregister.1 := by
  -- The guard is found and held, so that it is its transaction that is replaced.
  unfold deregister
  rw [held]
  dsimp only
  rw [if_pos rfl, hfound]
  exact (Directory.find?_set hfound _ t).trans (if_pos rfl)

/-- A transaction whose life is ended is there, with its life ended. -/
theorem find?_finish (hfound : s.directory.find? t = some txn) :
    (s.finish t).directory.find? t = some txn.finish := by
  unfold finish Directory.modify
  rw [hfound]
  exact (Directory.find?_set hfound _ t).trans (if_pos rfl)

/-- In whatever order a transaction is used: its phase moves only from active to committing or
aborting, and from there to ready, unless its life is ended before it was turned; and it is ready
once its life has been ended. While it is active every operation that registers gets a guard of its
own that is held, and it can be turned; once it has been turned it never accepts either again. Its
operations in flight are exactly the guards that are held, and there is at least one whenever a
guard that is held is given back. A call that waits for it returns only in its own turn, and only if
no guard is held then; if the transaction is not active at that time, none is in flight ever after.
A call that has not returned is in line, or it is parked and some guard is held. When the last guard
of a transaction that is not active is given back, all calls that wait for it are put in line, and
whatever happens then, they stay there until their next turn, in which they return. -/
theorem life_cycle (reachable : s.Reachable) (hfound : s.directory.find? t = some txn) :
    ((∀ a, s.Accepts a → (a = .finish t → txn.phase ≠ .active) →
        ∃ txn', (s.perform a).directory.find? t = some txn' ∧
          (txn'.phase = txn.phase ∨
            txn.phase = .active ∧ txn'.phase.isClosing ∧ a = .turnTo t txn'.phase ∨
            txn.phase.isClosing ∧ txn'.phase = .ready ∧ a = .finish t)) ∧
      ∃ txn', (s.finish t).directory.find? t = some txn' ∧ txn'.phase = .ready) ∧
    ((txn.phase = .active →
        (∃ g s', s.register t = .ok (g, s') ∧ s.guards[g]? = none ∧
          s'.guards[g]? = some ⟨t, true⟩) ∧
        ∀ target, ∃ s', s.turnTo t target = .ok s' ∧
          ∃ txn', s'.directory.find? t = some txn' ∧ txn'.phase = target) ∧
      ∀ target s', target.isClosing → s.turnTo t target = .ok s' → ∀ s'', Later s' s'' →
        s''.register t = .error .terminalState ∧
          ∀ target', s''.turnTo t target' = .error .terminalState) ∧
    (txn.inFlight = live s.guards t ∧
      ∀ g, s.guards[g]? = some ⟨t, true⟩ → 0 < txn.inFlight ∧
        ∃ txn', (s.deregister g).2.directory.find? t = some txn' ∧
          txn'.inFlight + 1 = txn.inFlight) ∧
    (∀ a i, s.calls[i]? = some ⟨t, false⟩ → (s.perform a).calls[i]? = some ⟨t, true⟩ →
      a = .resume i ∧ live s.guards t = 0 ∧
        (txn.phase ≠ .active → ∀ s', Later (s.perform a) s' →
          ∃ txn', s'.directory.find? t = some txn' ∧ txn'.inFlight = 0)) ∧
    (∀ i, s.calls[i]? = some ⟨t, false⟩ →
      i ∈ s.ready ∨ i ∈ txn.parked ∧ 0 < live s.guards t) ∧
    ∀ g, s.guards[g]? = some ⟨t, true⟩ → live s.guards t = 1 → txn.phase ≠ .active →
      ∀ i, s.calls[i]? = some ⟨t, false⟩ → i ∈ (s.deregister g).2.ready ∧
        ∀ s', Later (s.deregister g).2 s' →
          (s'.calls[i]? = some ⟨t, true⟩ ∨ s'.calls[i]? = some ⟨t, false⟩ ∧ i ∈ s'.ready ∧
            (s'.resume i).calls[i]? = some ⟨t, true⟩) ∧
          s'.settle.calls[i]? = some ⟨t, true⟩ := by
  -- All parts follow from the books being in order, now and after every further action.
  have h : s.Sound := Later.sound reachable .new
  have hcounted := h.counted t txn hfound
  refine ⟨⟨fun a accepted hfinish => ?_, txn.finish, find?_finish hfound, rfl⟩,
    ⟨fun hactive => ?_, fun target s' hclosing hturned => ?_⟩, ⟨hcounted, fun g held => ?_⟩,
    fun a i hcall hreturned => ?_, fun i hcall => ?_, fun g held hlast hover i hcall => ?_⟩
  · obtain ⟨txn', hfound', hgoes⟩ := (h.move a).known hfound
    refine ⟨txn', hfound', ?_⟩
    rcases hgoes.phase with hsame | ⟨hactive, rfl⟩ | ⟨hready, rfl⟩
    · exact .inl hsame
    · exact .inr (.inl ⟨hactive, accepted, rfl⟩)
    · cases hphase : txn.phase with
      | active => exact absurd hphase (hfinish rfl)
      | committing | aborting => exact .inr (.inr ⟨rfl, hready, rfl⟩)
      | ready => exact .inl hready
  · rw [register_eq hfound, if_pos hactive]
    refine ⟨⟨_, _, rfl, Array.getElem?_eq_none (Nat.le_refl _), Array.getElem?_push_size⟩,
      fun target => ?_⟩
    rw [turnTo_eq hfound, if_pos hactive]
    exact ⟨_, rfl, _, (Directory.find?_set hfound _ t).trans (if_pos rfl), rfl⟩
  · exact fun s'' later => h.refuses hfound hclosing hturned later
  · have hpos : 0 < txn.inFlight := hcounted ▸ live_pos held
    refine ⟨hpos, _, find?_deregister held hfound, ?_⟩
    rw [inFlight_deregister]
    omega
  · -- A call that has returned was the one whose turn it was, and found no operation in flight.
    rcases (h.move a).call hcall with hsame | ⟨-, rfl, txn', hfound', hidle⟩
    · cases hsame.symm.trans hreturned
    · cases hfound.symm.trans hfound'
      refine ⟨rfl, hcounted.symm.trans hidle, fun hover s' later => ?_⟩
      have hlater : Later s s' := (Later.refl.perform (a := .resume i) trivial).trans later
      obtain ⟨txn', hfound', -, hle⟩ := hlater.closed h hfound hover
      exact ⟨txn', hfound', by omega⟩
  · rcases h.waiting i t txn hcall hfound with hready | hparked
    · exact .inl hready
    · refine .inr ⟨hparked, hcounted ▸ Nat.pos_of_ne_zero ?_⟩
      exact h.busy t txn hfound (List.ne_nil_of_mem hparked)
  · -- The last guard leaves a transaction over and without operations, so that all of its calls are
    -- in line; from there they return.
    have hsound : (s.deregister g).2.Sound := h.perform (a := .deregister g) trivial
    have hfound' := find?_deregister held hfound
    have hover' : txn.deregister.1.phase ≠ .active := by
      rw [txn.deregister_spec.2.1]
      exact hover
    have hidle : txn.deregister.1.inFlight = 0 := by
      rw [inFlight_deregister]
      omega
    have hcall' : (s.deregister g).2.calls[i]? = some ⟨t, false⟩ := by
      rcases (h.move (.deregister g)).call hcall with hsame | ⟨-, heq, -⟩
      · exact hsame
      · cases heq
    exact ⟨hsound.in_line hfound' hidle hcall',
      fun s' later => hsound.returns hfound' hover' hidle hcall' later⟩

/-- A call is parked while an operation is in flight. -/
def busied : Session :=
  [Action.manage (.start 0 ⟨1⟩ .explicit), .register ⟨0⟩, .drain ⟨0⟩, .resume 0].foldl perform new

/-- And then the transaction is turned. -/
def draining : Session := busied.perform (.turnTo ⟨0⟩ .committing)

/-- From then on nobody can register, and when the operation leaves, the call is put in line and
returns. The transaction is ready when its life is ended. -/
theorem life_cycle_draining :
    busied.turnTo ⟨0⟩ .committing = .ok draining ∧
      (∃ txn, (draining.finish ⟨0⟩).directory.find? ⟨0⟩ = some txn ∧ txn.phase = .ready) ∧
      draining.register ⟨0⟩ = .error .terminalState ∧
      draining.guards[0]? = some ⟨⟨0⟩, true⟩ ∧ live draining.guards ⟨0⟩ = 1 ∧
      draining.calls[0]? = some ⟨⟨0⟩, false⟩ ∧ 0 ∉ draining.ready ∧
      0 ∈ (draining.deregister 0).2.ready ∧
      (draining.deregister 0).2.settle.calls[0]? = some ⟨⟨0⟩, true⟩ := by
  have hbusied : busied.Reachable :=
    (((Later.refl.perform (a := .manage (.start 0 ⟨1⟩ .explicit)) trivial).perform
      (a := .register ⟨0⟩) trivial).perform (a := .drain ⟨0⟩) ⟨_, rfl⟩).perform
      (a := .resume 0) trivial
  have hdraining : draining.Reachable := hbusied.perform (a := .turnTo ⟨0⟩ .committing) rfl
  obtain ⟨-, ⟨-, hturned⟩, -⟩ := life_cycle (t := ⟨0⟩) hbusied rfl
  obtain ⟨⟨-, hfinished⟩, -, -, -, -, hlast⟩ := life_cycle (t := ⟨0⟩) hdraining rfl
  have hlive : live draining.guards ⟨0⟩ = 1 := by decide +kernel
  obtain ⟨hready, hreturns⟩ := hlast 0 rfl hlive nofun 0 rfl
  exact ⟨rfl, hfinished, (hturned .committing draining rfl rfl draining .refl).1, rfl, hlive, rfl,
    by decide +kernel, hready, (hreturns _ .refl).2⟩

end Session

end Transaction

end TxStore
