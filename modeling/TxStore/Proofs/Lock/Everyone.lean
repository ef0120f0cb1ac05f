import TxStore.Proofs.Lock.Consistency

/-!
# What is true of everyone at a key

Only requests bring holders and waiters to a key, and a waiter that is let in has the key in the
mode for which it asked. So what is true of every requester in the mode of its request is true of
every holder in the mode in which it has the key, and of every waiter (`KeyLock.Everyone`,
`Run.everyone`).
-/

namespace TxStore.Lock

variable {released : List TransactionId} {me : Holder} {mode : Mode} {t : TransactionId}

namespace KeyLock

variable {P Q : Holder → Mode → Prop} {s : Holders} {q : List Waiter} {l : KeyLock}

/-- Whether `P` is true of every holder in the mode in which it has the key, and of every waiter in
the mode for which it asks. -/
structure Everyone (P : Holder → Mode → Prop) (l : KeyLock) : Prop where
  /-- It is true of the writer. -/
  writer : ∀ b, l.holders.writer = some b → P b .write
  /-- It is true of the readers. -/
  readers : ∀ b ∈ l.holders.readers, P b .read
  /-- It is true of the waiters. -/
  waiters : ∀ w ∈ l.queue, P w.holder w.mode

/-- Everything is true of everyone at a free key. -/
theorem everyone_free : free.Everyone P :=
  ⟨nofun, nofun, nofun⟩

/-- What follows for those who are involved with the key follows for everyone. -/
theorem Everyone.mono (h : l.Everyone P)
    (himp : ∀ b mode, l.Involves b.txn → P b mode → Q b mode) : l.Everyone Q where
  writer b hb := by
    have hwrites : l.holders.writes b.txn := Holders.writes_iff.mpr ⟨b, hb, rfl⟩
    exact himp b _ (.inl (Holders.holds_read_iff.mpr (.inl hwrites))) (h.writer b hb)
  readers b hb := by
    have hreads : l.holders.reads b.txn := Holders.reads_iff.mpr ⟨b, hb, rfl⟩
    exact himp b _ (.inl (Holders.holds_read_iff.mpr (.inr hreads))) (h.readers b hb)
  waiters w hw := himp w.holder w.mode (.inr ⟨w, hw, rfl⟩) (h.waiters w hw)

/-- Whoever has the key has it in a mode in which `P` is true of it. -/
theorem Everyone.of_holds (h : l.Everyone P) (ht : l.holders.holds t mode) :
    ∃ b mode', b.txn = t ∧ P b mode' ∧ (mode' = .write ∨ mode = .read) := by
  cases mode with
  | write =>
    obtain ⟨b, hb, htxn⟩ := Holders.writes_iff.mp (Holders.holds_write_iff.mp ht)
    exact ⟨b, .write, htxn, h.writer b hb, .inl rfl⟩
  | read =>
    rcases Holders.holds_read_iff.mp ht with ht | ht
    · obtain ⟨b, hb, htxn⟩ := Holders.writes_iff.mp ht
      exact ⟨b, .write, htxn, h.writer b hb, .inr rfl⟩
    · obtain ⟨b, hb, htxn⟩ := Holders.reads_iff.mp ht
      exact ⟨b, .read, htxn, h.readers b hb, .inr rfl⟩

/-- What is true of everyone in whatever mode is true of the opponents of a request. -/
theorem Everyone.of_opposes {P : Holder → Prop} {b : Holder} (h : l.Everyone fun b _ => P b)
    (hb : l.holders.Opposes b mode) : P b := by
  rcases hb with hb | ⟨-, hb⟩
  · exact h.writer b hb
  · exact h.readers b hb

/-- Among fewer waiters it is still true of everyone. -/
theorem Everyone.of_subset {q' : List Waiter} (h : (KeyLock.mk s q).Everyone P) (hq : q' ⊆ q) :
    (KeyLock.mk s q').Everyone P :=
  ⟨h.writer, h.readers, fun w hw => h.waiters w (hq hw)⟩

/-- Entering a requester of whom it is true. -/
theorem Everyone.enter (h : (KeyLock.mk s q).Everyone P) (hme : P me mode) :
    (KeyLock.mk (s.enter me mode) q).Everyone P := by
  unfold Holders.enter
  split
  · exact h
  · cases mode with
    | read =>
      dsimp only
      split
      · exact h
      · refine ⟨h.writer, fun b hb => ?_, h.waiters⟩
        rcases List.mem_append.mp hb with hb | hb
        · exact h.readers b hb
        · exact List.mem_singleton.mp hb ▸ hme
    | write => exact ⟨fun b hb => Option.some.inj hb ▸ hme, h.readers, h.waiters⟩

/-- Appending a request of which it is true. -/
theorem Everyone.append {w : Waiter} (h : l.Everyone P) (hw : P w.holder w.mode) :
    (l.append w).Everyone P := by
  refine ⟨h.writer, h.readers, fun v hv => ?_⟩
  rcases List.mem_append.mp hv with hv | hv
  · exact h.waiters v hv
  · exact List.mem_singleton.mp hv ▸ hw

/-- Serving a queue brings nobody to the key. -/
theorem Everyone.serve (hs : l.Sound released) (h : l.Everyone P) :
    (l.serve released).1.Everyone P :=
  (serveFrom_induction (P := fun s q => (KeyLock.mk s q).Everyone P)
    (fun _ _ _ h => h.of_subset (List.subset_cons_self ..))
    (fun _ w _ _ _ _ _ h =>
      (h.enter (h.waiters w List.mem_cons_self)).of_subset (List.subset_cons_self ..))
    hs h).2

/-- Striking out a transaction brings nobody to the key. -/
theorem Everyone.without (h : l.Everyone P) (t : TransactionId) : (l.without t).Everyone P where
  writer b hb := h.writer b (Option.filter_eq_some_iff.mp hb).1
  readers b hb := h.readers b (List.mem_filter.mp hb).1
  waiters w hw := h.waiters w (List.mem_filter.mp hw).1

/-- A deadline brings nobody to the key. -/
theorem Everyone.expire (hs : l.Sound released) (h : l.Everyone P) (ticket : Ticket) :
    (l.expire ticket released).1.Everyone P := by
  unfold KeyLock.expire
  split
  · exact Everyone.serve ⟨hs.exclusive, hs.unreleased⟩ (h.of_subset List.filter_sublist.subset)
  · exact h

/-- Nor does a caller that goes away. -/
theorem Everyone.abandon (h : l.Everyone P) (ticket : Ticket) : (l.abandon ticket).Everyone P := by
  refine ⟨h.writer, h.readers, fun w hw => ?_⟩
  obtain ⟨v, hv, rfl⟩ := List.mem_map.mp hw
  split
  · exact h.waiters v hv
  · exact h.waiters v hv

end KeyLock

namespace Manager

variable {P : Holder → Mode → Prop} {m : Manager} {k : Key} {call : Call} {l' : KeyLock}

/-- A call brings nobody to a key of whom it is not true, if it is true of a requester. -/
theorem Consistent.everyone (h : m.Consistent) (htouches : m.Touches (m.lockOf k) call l')
    (hcall : ∀ mode me j, call = .request mode me j → P me mode)
    (heveryone : (m.lockOf k).Everyone P) : l'.Everyone P := by
  cases htouches with
  | none => exact heveryone
  | enter => exact heveryone.enter (hcall _ _ _ rfl)
  | append => exact heveryone.append (hcall _ _ _ rfl)
  | @release t _ =>
    have hsound := KeyLock.sound_without (t := t) (h.exclusive k)
      fun _ hu hne => h.not_mem_releasedWith hu hne
    exact (heveryone.without t).serve hsound
  | expire => exact heveryone.expire (h.sound k) _
  | abandon => exact heveryone.abandon _

/-- In a run whose requesters all have a property everyone has it. -/
theorem Run.everyone {Permitted : Manager → Call → Prop} {timeout : Option Duration}
    (run : Run Permitted timeout m)
    (hpermitted : ∀ m mode me j, Permitted m (.request mode me j) → P me mode) (k : Key) :
    (m.lockOf k).Everyone P := by
  induction run with
  | new => exact KeyLock.everyone_free
  | perform run haccepts hcall ih =>
    refine run.consistent.everyone (lockOf_perform haccepts k) (fun mode me j heq => ?_) ih
    subst heq
    exact hpermitted _ mode me j hcall

end Manager

end TxStore.Lock
