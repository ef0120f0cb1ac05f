import TxStore.Proofs.Lock.Consistency

/-!
# The head of every queue is blocked

A queue is served whenever its key loses a holder or its head may have changed: at a release, and
when a request is struck out at its deadline. Serving stops at a request that has just been judged
and has to wait. Between two servings holders are only added, and nobody joins but at the end, so
the head stays blocked (`KeyLock.Fronted`). A caller that goes away does not matter either: its
request keeps its place, and a grant to it is taken back before the next request is judged.

So no wake-up is lost (`head_blocked`): a request at the head of a queue waits for a holder that is
still there, and where nobody holds the key nobody waits for it.
-/

namespace TxStore.Lock

variable {released : List TransactionId}

namespace KeyLock

variable {l : KeyLock}

/-- The head of the queue is opposed by a holder younger than itself. -/
def Fronted (l : KeyLock) : Prop :=
  ∀ w rest, l.queue = w :: rest →
    ∃ b, l.holders.Opposes b w.mode ∧ b.txn ≠ w.holder.txn ∧
      w.holder.timestamp.isBefore b.timestamp

/-- Serving a queue leaves at its head a waiter that has just been judged. -/
theorem fronted_serve (l : KeyLock) (released : List TransactionId) :
    (l.serve released).1.Fronted := by
  intro w rest hqueue
  exact Holders.opposed_of_wait (serveFrom_front hqueue).2

/-- Serving a queue serves it to the end if nobody holds the key. -/
theorem Fronted.queue_eq_nil (h : l.Fronted) (hfree : ∀ t, ¬ l.holders.holds t .read) :
    l.queue = [] := by
  cases hqueue : l.queue with
  | nil => rfl
  | cons w rest =>
    obtain ⟨b, hb, -, -⟩ := h w rest hqueue
    have hholds : l.holders.holds b.txn .read :=
      Holders.holds_read_iff_excludes.mpr (Holders.excludes_iff.mpr ⟨b, hb.write, rfl⟩)
    exact absurd hholds (hfree b.txn)

end KeyLock

namespace Manager

variable {m : Manager} {k : Key} {call : Call} {l' : KeyLock}

/-- A call leaves at the head of a queue a waiter with a younger opponent. -/
theorem Consistent.fronted (h : m.Consistent) (htouches : m.Touches (m.lockOf k) call l')
    (hfronted : (m.lockOf k).Fronted) : l'.Fronted := by
  cases htouches with
  | none => exact hfronted
  | enter free granted =>
    -- No holder leaves, so the opponent of the head is still there.
    intro w rest hqueue
    obtain ⟨b, hb, hne, hbefore⟩ := hfronted w rest hqueue
    have hheld : (m.lockOf k).holders.holds b.txn .read :=
      Holders.holds_read_iff_excludes.mpr (Holders.excludes_iff.mpr ⟨b, hb.write, rfl⟩)
    have hfree : b.txn ∉ m.released := (h.sound k).unreleased b.txn hheld
    exact ⟨b, Holders.opposes_enter granted hfree hb, hne, hbefore⟩
  | append free waits =>
    intro w rest hqueue
    -- Only a request that finds the queue empty becomes its head, and it has just been judged.
    cases hq : (m.lockOf k).queue with
    | nil =>
      simp only [KeyLock.append, hq, List.nil_append] at hqueue
      cases hqueue
      exact Holders.opposed_of_wait waits
    | cons v tail =>
      simp only [KeyLock.append, hq, List.cons_append] at hqueue
      cases hqueue
      exact hfronted w tail hq
  | release => exact KeyLock.fronted_serve _ _
  | expire =>
    unfold KeyLock.expire
    split
    · exact KeyLock.fronted_serve _ _
    · exact hfronted
  | abandon =>
    intro w rest hqueue
    cases hq : (m.lockOf k).queue with
    | nil => simp [KeyLock.abandon, hq] at hqueue
    | cons v tail =>
      simp only [KeyLock.abandon, hq, List.map_cons] at hqueue
      obtain ⟨hw, -⟩ := List.cons_eq_cons.mp hqueue
      have hhead := hfronted v tail hq
      rw [← hw]
      split
      · exact hhead
      · exact hhead

/-- After any run the head of every queue has a younger opponent. -/
theorem Run.fronted {P : Manager → Call → Prop} {timeout : Option Duration}
    (run : Run P timeout m) (k : Key) : (m.lockOf k).Fronted := by
  induction run with
  | new => exact nofun
  | perform run haccepts _ ih => exact run.consistent.fronted (lockOf_perform haccepts k) ih

/-- The head of a queue is blocked: judging it would not grant it, and another transaction, which
has not released its locks, holds the key in a mode that conflicts with it. -/
theorem Run.blocked_of_head {P : Manager → Call → Prop} {timeout : Option Duration} {w : Waiter}
    {rest : List Waiter} (run : Run P timeout m) (hqueue : (m.lockOf k).queue = w :: rest) :
    (m.lockOf k).holders.judge m.released w.holder w.mode ≠ .grant ∧
      ∃ t, t ≠ w.holder.txn ∧ t ∉ m.released ∧ (m.lockOf k).holders.Excludes t w.mode := by
  have hsound := run.consistent.sound k
  obtain ⟨b, hb, hne, -⟩ := run.fronted k w rest hqueue
  have hexcludes : (m.lockOf k).holders.Excludes b.txn w.mode :=
    Holders.excludes_iff.mpr ⟨b, hb, rfl⟩
  have hholds : (m.lockOf k).holders.holds b.txn .read :=
    Holders.holds_read_iff_excludes.mpr (Holders.excludes_iff.mpr ⟨b, hb.write, rfl⟩)
  refine ⟨fun hgrant => ?_, b.txn, hne, hsound.unreleased _ hholds, hexcludes⟩
  exact Holders.not_excludes_of_grant hsound.exclusive hsound.unreleased hgrant hne hexcludes

/-- After any calls the request at the head of a queue is blocked: judging it would not grant it, as
another transaction, which has not released its locks, holds the key in a mode that conflicts with
it. In particular nobody waits for a key that nobody holds. -/
theorem head_blocked {timeout : Option Duration} (run : Reachable timeout m) (k : Key) :
    (∀ w rest, (m.lockOf k).queue = w :: rest →
      (m.lockOf k).holders.judge m.released w.holder w.mode ≠ .grant ∧
      ∃ t, t ≠ w.holder.txn ∧ t ∉ m.released ∧ (m.lockOf k).holders.Excludes t w.mode) ∧
    ((∀ t, ¬ (m.lockOf k).holders.holds t .read) → (m.lockOf k).queue = []) :=
  ⟨fun _ _ hqueue => run.blocked_of_head hqueue, (run.fronted k).queue_eq_nil⟩

/-- For instance, the caller of the first of three waiters goes away. When the writer releases the
key, the grant to the first one is taken back, the second one has the key, and the third one waits
for that. -/
theorem head_blocked_takenBack :
    let k : Key := ⟨⟨1⟩, .integer 1⟩
    let m : Manager :=
      [ .request .write ⟨⟨10⟩, ⟨10⟩⟩ k, .request .write ⟨⟨5⟩, ⟨5⟩⟩ k, .request .read ⟨⟨3⟩, ⟨3⟩⟩ k,
        .request .write ⟨⟨2⟩, ⟨2⟩⟩ k, .abandon k 1, .release ⟨10⟩ [k] ].foldl perform (new none)
    Reachable none m ∧ (m.lockOf k).queue = [⟨⟨⟨2⟩, ⟨2⟩⟩, .write, 3, true⟩] ∧
      m.resolved = [(1, .abandoned), (2, .granted)] ∧
      ∃ t, t ≠ ⟨2⟩ ∧ t ∉ m.released ∧ (m.lockOf k).holders.Excludes t .write := by
  intro k m
  have run : Reachable none m := Run.performAll .new
    ⟨⟨trivial, trivial⟩, ⟨trivial, trivial⟩, ⟨trivial, trivial⟩, ⟨trivial, trivial⟩,
      ⟨trivial, trivial⟩, ⟨.of_eq (by decide), trivial⟩, trivial⟩
  have hqueue : (m.lockOf k).queue = [⟨⟨⟨2⟩, ⟨2⟩⟩, .write, 3, true⟩] := by decide
  exact ⟨run, hqueue, by decide, ((head_blocked run k).1 _ _ hqueue).2⟩

end Manager

end TxStore.Lock
