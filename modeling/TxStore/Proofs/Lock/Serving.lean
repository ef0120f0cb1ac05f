import TxStore.Proofs.Lock.Holders

/-!
# Serving the queue of one key

Whenever holders leave a key or a queued request times out, the requests in its queue are judged
anew from the front (`KeyLock.serveFrom`). The waiters that leave the queue either go without the
key or are entered as holders, and so a property of holders and queue survives the serving if it
survives these two steps (`serveFrom_induction`). What is left of the queue is an end of it
(`serveFrom_suffix`) whose first waiter has to keep waiting (`serveFrom_front`), and the word to
each waiter that left tells the truth about the holders at the end (`serveFrom_resolved`).
-/

namespace TxStore.Lock

namespace KeyLock

variable {s : Holders} {released : List TransactionId} {q : List Waiter} {l : KeyLock}
  {t u : TransactionId} {mode : Mode}

/-- Whether `t` holds the key or waits for it. -/
def Involves (l : KeyLock) (t : TransactionId) : Prop :=
  l.holders.holds t .read ∨ ∃ w ∈ l.queue, w.holder.txn = t

/-- The writer is alone, and no holder has released its locks. -/
structure Sound (l : KeyLock) (released : List TransactionId) : Prop where
  /-- The writer is alone. -/
  exclusive : l.holders.Exclusive
  /-- No holder has released its locks. -/
  unreleased : l.holders.Unreleased released

/-- Nobody is involved with a free key. -/
theorem not_involves_free (t : TransactionId) : ¬ free.Involves t := by
  rintro (h | ⟨w, hw, -⟩)
  · simp [free, Holders.nobody, Holders.holds, Holders.writes, Holders.reads] at h
  · cases hw

/-- The holders after a waiter has been granted the key: with it, if its caller still listens, and
else unchanged. -/
theorem granted_holders {w : Waiter} (hr : s.Unreleased released)
    (h : s.judge released w.holder w.mode = .grant) :
    (if w.live then s.enter w.holder w.mode
      else (s.enter w.holder w.mode).takeBack s w.holder w.mode) =
      if w.live then s.enter w.holder w.mode else s := by
  rw [Holders.takeBack_enter hr h]

/-- Granting adds no released holder. -/
theorem unreleased_enter {me : Holder} (hr : s.Unreleased released) (hme : me.txn ∉ released) :
    (s.enter me mode).Unreleased released := by
  intro t ht
  rcases Holders.holds_of_holds_enter ht with ht | rfl
  · exact hr t ht
  · exact hme

/-- What survives every step of serving survives the serving: waiters that leave without the key,
and waiters that are entered. -/
theorem serveFrom_induction {P : Holders → List Waiter → Prop}
    (skip : ∀ s w rest, P s (w :: rest) → P s rest)
    (enter : ∀ s w rest, s.Exclusive → s.Unreleased released → w.holder.txn ∉ released →
      s.judge released w.holder w.mode = .grant → P s (w :: rest) →
      P (s.enter w.holder w.mode) rest)
    (hs : (KeyLock.mk s q).Sound released) (h : P s q) :
    (serveFrom released s q).1.Sound released ∧
      P (serveFrom released s q).1.holders (serveFrom released s q).1.queue := by
  induction q generalizing s with
  | nil => exact ⟨hs, h⟩
  | cons w rest ih =>
    have hrest : (KeyLock.mk s rest).Sound released := ⟨hs.exclusive, hs.unreleased⟩
    unfold serveFrom
    split
    · exact ih hrest (skip s w rest h)
    · rename_i hfree
      split
      · exact ⟨hs, h⟩
      · exact ih hrest (skip s w rest h)
      · rename_i hgrant
        dsimp only
        rw [granted_holders hs.unreleased hgrant]
        split
        · exact ih ⟨hs.exclusive.enter hs.unreleased hgrant, unreleased_enter hs.unreleased hfree⟩
            (enter s w rest hs.exclusive hs.unreleased hfree hgrant h)
        · -- The caller is gone, and the grant has been taken back.
          exact ih hrest (skip s w rest h)

/-- Serving keeps a key sound. -/
theorem serveFrom_sound (hs : (KeyLock.mk s q).Sound released) :
    (serveFrom released s q).1.Sound released :=
  (serveFrom_induction (P := fun _ _ => True) (fun _ _ _ _ => trivial)
    (fun _ _ _ _ _ _ _ _ => trivial) hs trivial).1

/-- Serving takes the key from no holder. -/
theorem holds_serveFrom (hs : (KeyLock.mk s q).Sound released) (hfree : t ∉ released)
    (ht : s.holds t mode) : (serveFrom released s q).1.holders.holds t mode :=
  (serveFrom_induction (P := fun s _ => s.holds t mode) (fun _ _ _ h => h)
    (fun _ _ _ _ _ _ hgrant h => Holders.holds_enter_of_holds hgrant hfree h) hs ht).2

/-- Serving involves nobody who was not involved. -/
theorem involves_serveFrom (hs : (KeyLock.mk s q).Sound released)
    (ht : (serveFrom released s q).1.Involves t) : (KeyLock.mk s q).Involves t := by
  have hP := serveFrom_induction
    (P := fun s' q' => (KeyLock.mk s' q').Involves t → (KeyLock.mk s q).Involves t)
    (fun s' w rest h => ?skip) (fun s' w rest _ _ _ _ h => ?enter) hs id
  · exact hP.2 ht
  case skip =>
    rintro (hh | ⟨v, hv, rfl⟩)
    · exact h (.inl hh)
    · exact h (.inr ⟨v, List.mem_cons_of_mem _ hv, rfl⟩)
  case enter =>
    rintro (hh | ⟨v, hv, rfl⟩)
    · rcases Holders.holds_of_holds_enter hh with hh | rfl
      · exact h (.inl hh)
      · exact h (.inr ⟨w, List.mem_cons_self, rfl⟩)
    · exact h (.inr ⟨v, List.mem_cons_of_mem _ hv, rfl⟩)

/-- What is left of a queue after serving is an end of it. -/
theorem serveFrom_suffix (released : List TransactionId) (s : Holders) (q : List Waiter) :
    (serveFrom released s q).1.queue <:+ q := by
  induction q generalizing s with
  | nil => exact List.suffix_refl _
  | cons w rest ih =>
    unfold serveFrom
    split
    · exact (ih s).trans (List.suffix_cons w rest)
    · split
      · exact List.suffix_refl _
      · exact (ih s).trans (List.suffix_cons w rest)
      · exact (ih _).trans (List.suffix_cons w rest)

/-- The first of the waiters that serving leaves in the queue has to keep waiting. -/
theorem serveFrom_front {w : Waiter} {rest : List Waiter}
    (h : (serveFrom released s q).1.queue = w :: rest) :
    w.holder.txn ∉ released ∧
      (serveFrom released s q).1.holders.judge released w.holder w.mode = .wait := by
  induction q generalizing s with
  | nil => cases h
  | cons v tail ih =>
    unfold serveFrom at h ⊢
    by_cases hv : v.holder.txn ∈ released
    · rw [if_pos hv] at h ⊢
      exact ih h
    · rw [if_neg hv] at h ⊢
      cases hjudge : s.judge released v.holder v.mode with
      | wait =>
        rw [hjudge] at h
        cases h
        exact ⟨hv, hjudge⟩
      | conflict =>
        rw [hjudge] at h
        exact ih h
      | grant =>
        rw [hjudge] at h
        exact ih h

/-- Whether the holders bear out a word to the caller of `w`: a granted request holds its key, one
that is told of its release is released, and nobody listens to an abandoned one. -/
def BearsOut (s : Holders) (released : List TransactionId) (w : Waiter) : Wake → Prop
  | .granted => s.holds w.holder.txn w.mode
  | .released => w.holder.txn ∈ released
  | .abandoned => w.live = false
  | .conflict | .timedOut => True

/-- A true word stays true when it is replaced because nobody listens. -/
theorem bearsOut_word {w : Waiter} {wake : Wake} (h : BearsOut s released w wake) :
    BearsOut s released w (w.resolution wake).2 := by
  unfold Waiter.resolution
  cases hlive : w.live with
  | true => exact h
  | false => exact hlive

/-- What is found in the rest of a queue is found in the queue. -/
theorem mem_cons_of {w : Waiter} {P : Waiter → Prop} (h : ∃ v ∈ q, P v) :
    ∃ v ∈ w :: q, P v := by
  obtain ⟨v, hv, hP⟩ := h
  exact ⟨v, List.mem_cons_of_mem _ hv, hP⟩

/-- The word to a waiter that leaves the queue is true of the holders at the end of the serving. -/
theorem serveFrom_resolved (hs : (KeyLock.mk s q).Sound released) {r : Resolution}
    (hr : r ∈ (serveFrom released s q).2) :
    ∃ w ∈ q, r.1 = w.ticket ∧ BearsOut (serveFrom released s q).1.holders released w r.2 := by
  -- The head is told now, and what it is told must still be true when the rest has been served.
  induction q generalizing s with
  | nil => cases hr
  | cons w rest ih =>
    have hrest : (KeyLock.mk s rest).Sound released := ⟨hs.exclusive, hs.unreleased⟩
    unfold serveFrom at hr ⊢
    by_cases hw : w.holder.txn ∈ released
    · rw [if_pos hw] at hr ⊢
      rcases List.mem_cons.mp hr with rfl | hr
      · exact ⟨w, List.mem_cons_self, rfl, bearsOut_word hw⟩
      · exact mem_cons_of (ih hrest hr)
    · rw [if_neg hw] at hr ⊢
      cases hjudge : s.judge released w.holder w.mode with
      | wait =>
        rw [hjudge] at hr
        cases hr
      | conflict =>
        rw [hjudge] at hr
        rcases List.mem_cons.mp hr with rfl | hr
        · exact ⟨w, List.mem_cons_self, rfl, bearsOut_word trivial⟩
        · exact mem_cons_of (ih hrest hr)
      | grant =>
        rw [hjudge] at hr
        dsimp only at hr ⊢
        rw [granted_holders hs.unreleased hjudge] at hr ⊢
        -- A grant to somebody who has gone is taken back at once, and the word says so; any other
        -- grant stays true, since serving takes nobody's lock.
        cases hlive : w.live with
        | false =>
          simp only [hlive, Bool.false_eq_true, if_false] at hr ⊢
          rcases List.mem_cons.mp hr with rfl | hr
          · refine ⟨w, List.mem_cons_self, rfl, ?_⟩
            simp only [Waiter.resolution, hlive, Bool.false_eq_true, if_false]
            exact hlive
          · exact mem_cons_of (ih hrest hr)
        | true =>
          have hentered : (KeyLock.mk (s.enter w.holder w.mode) rest).Sound released :=
            ⟨hs.exclusive.enter hs.unreleased hjudge, unreleased_enter hs.unreleased hw⟩
          simp only [hlive, if_true] at hr ⊢
          rcases List.mem_cons.mp hr with rfl | hr
          · exact ⟨w, List.mem_cons_self, rfl, bearsOut_word
              (holds_serveFrom hentered hw (Holders.holds_enter s w.holder w.mode))⟩
          · exact mem_cons_of (ih hentered hr)

/-! ## Changes of one key -/

/-- What a change of a key's lock is that serves its queue: the lock stays sound, nobody who is not
released loses the key, nobody new is involved, and the callers of the waiters that leave are told
the truth. -/
structure Evolves (l : KeyLock) (released : List TransactionId)
    (change : KeyLock × List Resolution) : Prop where
  /-- The lock is sound afterwards. -/
  sound : change.1.Sound released
  /-- A holder that is not released keeps the key. -/
  holds : ∀ t mode, t ∉ released → l.holders.holds t mode → change.1.holders.holds t mode
  /-- Nobody new holds the key or waits for it. -/
  involves : ∀ t, change.1.Involves t → l.Involves t
  /-- Nobody joins the queue, and nobody overtakes anybody in it. -/
  queue : change.1.queue.Sublist l.queue
  /-- Every request that ended was queued, and the word to its caller is true. -/
  resolved : ∀ r ∈ change.2, ∃ w ∈ l.queue,
    r.1 = w.ticket ∧ BearsOut change.1.holders released w r.2

/-- Leaving a sound lock alone is such a change. -/
theorem Sound.evolves (h : l.Sound released) : l.Evolves released (l, []) :=
  ⟨h, fun _ _ _ ht => ht, fun _ ht => ht, List.Sublist.refl _, nofun⟩

/-- Serving the queue is such a change. -/
theorem evolves_serve (h : l.Sound released) : l.Evolves released (l.serve released) where
  sound := serveFrom_sound h
  holds _ _ hfree ht := holds_serveFrom h hfree ht
  involves _ ht := involves_serveFrom h ht
  queue := (serveFrom_suffix released l.holders l.queue).sublist
  resolved _ hr := serveFrom_resolved h hr

/-- The lock without a transaction, before its queue is served. -/
def without (l : KeyLock) (txn : TransactionId) : KeyLock :=
  ⟨l.holders.drop txn, l.queue.filter fun w => w.holder.txn ≠ txn⟩

/-- A key from which a transaction is struck involves those it involved before, without it. -/
theorem involves_without : (l.without t).Involves u ↔ l.Involves u ∧ u ≠ t := by
  unfold Involves without
  rw [Holders.holds_drop, or_and_right]
  apply or_congr Iff.rfl
  constructor
  · rintro ⟨w, hw, rfl⟩
    obtain ⟨hw, hne⟩ := List.mem_filter.mp hw
    exact ⟨⟨w, hw, rfl⟩, by simpa using hne⟩
  · rintro ⟨⟨w, hw, rfl⟩, hne⟩
    exact ⟨w, List.mem_filter.mpr ⟨hw, by simpa using hne⟩, rfl⟩

/-- A key from which the only released transaction is struck is sound. -/
theorem sound_without (hs : l.holders.Exclusive)
    (hr : ∀ u, l.Involves u → u ≠ t → u ∉ released) : (l.without t).Sound released where
  exclusive := hs.drop t
  unreleased u hu := by
    obtain ⟨hu, hne⟩ := Holders.holds_drop.mp hu
    exact hr u (.inl hu) hne

/-- Releasing a transaction that is marked as released is such a change. -/
theorem evolves_release (hs : l.holders.Exclusive)
    (hr : ∀ u, l.Involves u → u ≠ t → u ∉ released) (ht : t ∈ released) :
    l.Evolves released (l.release t released) := by
  have h := evolves_serve (sound_without hs hr)
  refine ⟨h.sound, fun u mode hu hholds => ?_, fun u hu => ?_, ?_, fun r hmem => ?_⟩
  · exact h.holds u mode hu (Holders.holds_drop.mpr ⟨hholds, fun e => hu (e ▸ ht)⟩)
  · exact (involves_without.mp (h.involves u hu)).1
  · exact h.queue.trans List.filter_sublist
  · rcases List.mem_append.mp hmem with hmem | hmem
    · obtain ⟨w, hw, rfl⟩ := List.mem_map.mp hmem
      obtain ⟨hw, htxn⟩ := List.mem_filter.mp hw
      refine ⟨w, hw, rfl, bearsOut_word ?_⟩
      rw [decide_eq_true_eq] at htxn
      exact htxn ▸ ht
    · obtain ⟨w, hw, hr⟩ := h.resolved r hmem
      exact ⟨w, (List.mem_filter.mp hw).1, hr⟩

/-- A released transaction is not involved with the key any more. -/
theorem not_involves_release (hs : l.holders.Exclusive)
    (hr : ∀ u, l.Involves u → u ≠ t → u ∉ released) : ¬ (l.release t released).1.Involves t :=
  fun h => (involves_without.mp ((evolves_serve (sound_without hs hr)).involves t h)).2 rfl

/-- Ending a request whose deadline has passed is such a change. -/
theorem evolves_expire (h : l.Sound released) (ticket : Ticket) :
    l.Evolves released (l.expire ticket released) := by
  unfold expire
  split
  · rename_i hqueued
    have hstaying : (KeyLock.mk l.holders (l.queue.filter fun w => w.ticket ≠ ticket)).Sound
        released := ⟨h.exclusive, h.unreleased⟩
    have hserve := evolves_serve hstaying
    refine ⟨hserve.sound, hserve.holds, fun t ht => ?_, ?_, fun r hmem => ?_⟩
    · rcases hserve.involves t ht with ht | ⟨w, hw, htxn⟩
      · exact .inl ht
      · exact .inr ⟨w, (List.mem_filter.mp hw).1, htxn⟩
    · exact hserve.queue.trans List.filter_sublist
    · rcases List.mem_cons.mp hmem with rfl | hmem
      · obtain ⟨w, hw, hticket⟩ := List.any_eq_true.mp hqueued
        exact ⟨w, hw, (of_decide_eq_true hticket).symm, trivial⟩
      · obtain ⟨w, hw, hr⟩ := hserve.resolved r hmem
        exact ⟨w, (List.mem_filter.mp hw).1, hr⟩
  · exact h.evolves

/-- Noting that a caller has gone involves nobody new. -/
theorem involves_abandon (ticket : Ticket) :
    (l.abandon ticket).Involves t ↔ l.Involves t := by
  unfold Involves abandon
  apply or_congr Iff.rfl
  constructor
  · rintro ⟨w, hw, rfl⟩
    obtain ⟨v, hv, rfl⟩ := List.mem_map.mp hw
    exact ⟨v, hv, by split <;> rfl⟩
  · rintro ⟨v, hv, rfl⟩
    exact ⟨_, List.mem_map.mpr ⟨v, hv, rfl⟩, by split <;> rfl⟩

end KeyLock

end TxStore.Lock
