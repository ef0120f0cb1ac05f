import TxStore.Lock.Queue

/-!
# What a request finds at a key, and what a grant leaves

`Holders.judge` asks four questions in turn: whether the requester holds the key already, whether
there is a writer, whether there are other readers, and whether the requester is older. This module
says what its answers mean where no transaction shares the key with its writer (`Exclusive`) and no
holder has released its locks (`Unreleased`): a granted request has no rival left
(`not_excludes_of_grant`), and a request that may wait has a younger one (`opposed_of_wait`).

Entering a granted request keeps the writer alone (`Exclusive.enter`), and taking it back, because
its caller has gone, leaves the holders as they were (`takeBack_enter`).
-/

namespace TxStore.Lock

namespace Holders

variable {s : Holders} {released : List TransactionId} {me : Holder} {mode : Mode}
  {t u : TransactionId}

/-- Whether the hold of `t` keeps every other transaction from having the key in `mode`. -/
def Excludes (s : Holders) (t : TransactionId) (mode : Mode) : Prop :=
  s.writes t ∨ mode = .write ∧ s.reads t

/-- Whether `b` is entered as a holder whose hold keeps others from having the key in `mode`. -/
def Opposes (s : Holders) (b : Holder) (mode : Mode) : Prop :=
  s.writer = some b ∨ mode = .write ∧ b ∈ s.readers

/-- A writer shares the key with nobody but itself, and no transaction is a reader twice. -/
structure Exclusive (s : Holders) : Prop where
  /-- If there is a writer, it is the only reader. -/
  alone : ∀ w, s.writer = some w → ∀ r ∈ s.readers, r.txn = w.txn
  /-- The readers are distinct transactions. -/
  nodup : (s.readers.map Holder.txn).Nodup

/-- No holder has released its locks. -/
def Unreleased (s : Holders) (released : List TransactionId) : Prop :=
  ∀ t, s.holds t .read → t ∉ released

/-- The writer is the transaction in the writer's place. -/
theorem writes_iff : s.writes t ↔ ∃ w, s.writer = some w ∧ w.txn = t := by
  unfold writes
  cases s.writer <;> simp

/-- The readers are the transactions on the readers' list. -/
theorem reads_iff : s.reads t ↔ ∃ r ∈ s.readers, r.txn = t := by
  unfold reads
  simp

/-- Holding for reading is holding at all. -/
theorem holds_read_iff : s.holds t .read ↔ s.writes t ∨ s.reads t := by
  simp [holds]

/-- Holding for writing is being the writer. -/
theorem holds_write_iff : s.holds t .write ↔ s.writes t := by
  simp [holds]

/-- Two writers are one. -/
theorem eq_of_writes (ht : s.writes t) (hu : s.writes u) : t = u := by
  obtain ⟨w, hw, rfl⟩ := writes_iff.mp ht
  obtain ⟨v, hv, rfl⟩ := writes_iff.mp hu
  rw [hw] at hv
  cases hv
  rfl

/-- A reader beside a writer is the writer. -/
theorem Exclusive.eq_of_reads (hs : s.Exclusive) (ht : s.writes t) (hu : s.reads u) : u = t := by
  obtain ⟨w, hw, rfl⟩ := writes_iff.mp ht
  obtain ⟨r, hr, rfl⟩ := reads_iff.mp hu
  exact hs.alone w hw r hr

/-- Whoever excludes others from a mode that `t` holds is `t`. -/
theorem Exclusive.eq_of_excludes (hs : s.Exclusive) (ht : s.holds t mode)
    (hu : s.Excludes u mode) : u = t := by
  cases mode with
  | read =>
    rcases hu with hu | ⟨hmode, -⟩
    · rcases holds_read_iff.mp ht with ht | ht
      · exact eq_of_writes hu ht
      · exact (hs.eq_of_reads hu ht).symm
    · cases hmode
  | write =>
    have ht := holds_write_iff.mp ht
    rcases hu with hu | ⟨-, hu⟩
    · exact eq_of_writes hu ht
    · exact hs.eq_of_reads ht hu

/-- Nobody holds a key that is held by nobody. -/
theorem exclusive_nobody : Exclusive nobody where
  alone := nofun
  nodup := List.nodup_nil

/-- A transaction excludes others if it is entered as an opponent. -/
theorem excludes_iff : s.Excludes t mode ↔ ∃ b, s.Opposes b mode ∧ b.txn = t := by
  unfold Excludes Opposes
  rw [writes_iff, reads_iff]
  constructor
  · rintro (⟨w, hw, rfl⟩ | ⟨hmode, r, hr, rfl⟩)
    · exact ⟨w, .inl hw, rfl⟩
    · exact ⟨r, .inr ⟨hmode, hr⟩, rfl⟩
  · rintro ⟨b, hb | ⟨hmode, hb⟩, rfl⟩
    · exact .inl ⟨b, hb, rfl⟩
    · exact .inr ⟨hmode, b, hb, rfl⟩

/-- Whoever opposes some request opposes requests to write. -/
theorem Opposes.write {b : Holder} (h : s.Opposes b mode) : s.Opposes b .write :=
  h.imp id fun hr => ⟨rfl, hr.2⟩

/-- Holding at all is excluding others from writing. -/
theorem holds_read_iff_excludes : s.holds t .read ↔ s.Excludes t .write := by
  rw [holds_read_iff]
  exact or_congr Iff.rfl ⟨fun h => ⟨rfl, h⟩, And.right⟩

/-- Holding for writing is excluding others from reading. -/
theorem holds_write_iff_excludes : s.holds t .write ↔ s.Excludes t .read := by
  rw [holds_write_iff]
  exact ⟨.inl, fun h => h.elim id fun h => by cases h.1⟩

/-! ## Judging -/

/-- A blocker is an opponent of the request; a reader blocks only others than itself. -/
theorem opposes_of_mem_blockers {b : Holder} (hb : b ∈ s.blockers released me mode) :
    s.Opposes b mode ∧ (s.writer = some b ∨ b.txn ≠ me.txn) := by
  unfold blockers at hb
  split at hb
  · rename_i w hw
    obtain ⟨hw, -⟩ := Option.filter_eq_some_iff.mp hw
    rw [List.mem_singleton] at hb
    exact ⟨.inl (hb ▸ hw), .inl (hb ▸ hw)⟩
  · cases mode with
    | read => simp at hb
    | write =>
      simp only [List.mem_filter, Bool.and_eq_true, decide_eq_true_eq] at hb
      exact ⟨.inr ⟨rfl, hb.1⟩, .inr hb.2.1⟩

/-- Where no holder is released, whoever excludes the requester is among the blockers. -/
theorem exists_mem_blockers (hs : s.Exclusive) (hr : s.Unreleased released)
    (hu : s.Excludes u mode) (hne : u ≠ me.txn) :
    ∃ b ∈ s.blockers released me mode, b.txn = u := by
  unfold blockers
  -- No holder is released, so the blockers are taken from all holders.
  have hfilter : (s.writer.filter fun w => w.txn ∉ released) = s.writer := by
    cases hw : s.writer with
    | none => rfl
    | some w =>
      have hw' : w.txn ∉ released :=
        hr w.txn (holds_read_iff.mpr (.inl (writes_iff.mpr ⟨w, hw, rfl⟩)))
      simp [Option.filter, hw']
  rw [hfilter]
  cases hw : s.writer with
  | some w =>
    refine ⟨w, List.mem_singleton.mpr rfl, ?_⟩
    have hwrites : s.writes w.txn := writes_iff.mpr ⟨w, hw, rfl⟩
    rcases hu with hu | ⟨-, hu⟩
    · exact eq_of_writes hwrites hu
    · exact (hs.eq_of_reads hwrites hu).symm
  | none =>
    rcases hu with hu | ⟨rfl, hu⟩
    · obtain ⟨w, hw', -⟩ := writes_iff.mp hu
      rw [hw] at hw'
      cases hw'
    · obtain ⟨r, hmem, rfl⟩ := reads_iff.mp hu
      have hfree : r.txn ∉ released := hr r.txn (holds_read_iff.mpr (.inr hu))
      exact ⟨r, by simp [hmem, hne, hfree], rfl⟩

/-- What a granted requester has: the key already, or no blocker. -/
theorem judge_eq_grant (h : s.judge released me mode = .grant) :
    s.holds me.txn mode ∨ s.blockers released me mode = [] := by
  unfold judge at h
  split at h
  · rename_i hholds
    exact .inl hholds
  · split at h
    · rename_i hnil
      exact .inr hnil
    · split at h <;> cases h

/-- What a waiting requester has: not the key, but a blocker, and only blockers younger than
itself. -/
theorem judge_eq_wait (h : s.judge released me mode = .wait) :
    ¬ s.holds me.txn mode ∧ s.blockers released me mode ≠ [] ∧
      ∀ b ∈ s.blockers released me mode, me.timestamp.isBefore b.timestamp := by
  unfold judge at h
  split at h
  · cases h
  · rename_i hholds
    split at h
    · cases h
    · rename_i hne
      split at h
      · rename_i hall
        exact ⟨hholds, fun e => hne e, by simpa using hall⟩
      · cases h

/-- A granted request has no rival among the holders. -/
theorem not_excludes_of_grant (hs : s.Exclusive) (hr : s.Unreleased released)
    (h : s.judge released me mode = .grant) (hne : u ≠ me.txn) : ¬ s.Excludes u mode := by
  intro hu
  rcases judge_eq_grant h with hholds | hnil
  · exact hne (hs.eq_of_excludes hholds hu)
  · obtain ⟨b, hb, -⟩ := exists_mem_blockers hs hr hu hne
    rw [hnil] at hb
    cases hb

/-- A request that may wait is opposed by a younger holder. -/
theorem opposed_of_wait (h : s.judge released me mode = .wait) :
    ∃ b, s.Opposes b mode ∧ b.txn ≠ me.txn ∧ me.timestamp.isBefore b.timestamp := by
  obtain ⟨hholds, hne, hyounger⟩ := judge_eq_wait h
  obtain ⟨b, hb⟩ := List.exists_mem_of_ne_nil _ hne
  obtain ⟨hopposes, hother⟩ := opposes_of_mem_blockers hb
  refine ⟨b, hopposes, ?_, hyounger b hb⟩
  rcases hother with hwriter | hother
  · intro heq
    have hwrites : s.writes me.txn := writes_iff.mpr ⟨b, hwriter, heq⟩
    cases mode with
    | read => exact hholds (holds_read_iff.mpr (.inl hwrites))
    | write => exact hholds (holds_write_iff.mpr hwrites)
  · exact hother

/-! ## Entering -/

/-- Entering gives the requester the mode it asked for. -/
theorem holds_enter (s : Holders) (me : Holder) (mode : Mode) :
    (s.enter me mode).holds me.txn mode := by
  unfold enter
  split
  · rename_i hwrites
    cases mode with
    | read => exact holds_read_iff.mpr (.inl hwrites)
    | write => exact holds_write_iff.mpr hwrites
  · cases mode with
    | read =>
      dsimp only
      split
      · rename_i hreads
        exact holds_read_iff.mpr (.inr hreads)
      · exact holds_read_iff.mpr (.inr (reads_iff.mpr ⟨me, by simp, rfl⟩))
    | write => exact holds_write_iff.mpr (writes_iff.mpr ⟨me, rfl, rfl⟩)

/-- Entering adds no opponent but the requester. -/
theorem opposes_of_opposes_enter {b : Holder} {mode' : Mode}
    (h : (s.enter me mode').Opposes b mode) : s.Opposes b mode ∨ b = me := by
  unfold enter at h
  split at h
  · exact .inl h
  · cases mode' with
    | read =>
      dsimp only at h
      split at h
      · exact .inl h
      · rcases h with hw | ⟨hmode, hr⟩
        · exact .inl (.inl hw)
        · rcases List.mem_append.mp hr with hr | hr
          · exact .inl (.inr ⟨hmode, hr⟩)
          · exact .inr (List.mem_singleton.mp hr)
    | write =>
      rcases h with hw | hr
      · exact .inr (Option.some.inj hw).symm
      · exact .inl (.inr hr)

/-- Entering adds nobody but the requester. -/
theorem holds_of_holds_enter (h : (s.enter me mode).holds t .read) :
    s.holds t .read ∨ t = me.txn := by
  obtain ⟨b, hb, rfl⟩ := excludes_iff.mp (holds_read_iff_excludes.mp h)
  rcases opposes_of_opposes_enter hb with hb | rfl
  · exact .inl (holds_read_iff_excludes.mpr (excludes_iff.mpr ⟨b, hb, rfl⟩))
  · exact .inr rfl

/-- A granted request removes no opponent that is not released. -/
theorem opposes_enter {b : Holder} {mode' : Mode} (h : s.judge released me mode' = .grant)
    (hfree : b.txn ∉ released) (hb : s.Opposes b mode) : (s.enter me mode').Opposes b mode := by
  unfold enter
  split
  · exact hb
  · rename_i hme
    cases mode' with
    | read =>
      dsimp only
      split
      · exact hb
      · exact hb.imp id fun hr => ⟨hr.1, List.mem_append_left _ hr.2⟩
    | write =>
      rcases hb with hb | hb
      · -- The writer `b` would have blocked the request.
        rcases judge_eq_grant h with hholds | hnil
        · exact absurd (holds_write_iff.mp hholds) hme
        · unfold blockers at hnil
          rw [hb] at hnil
          simp [Option.filter, hfree] at hnil
      · exact .inr hb

/-- A granted request takes the key from no holder that is not released. -/
theorem holds_enter_of_holds {mode' : Mode} (h : s.judge released me mode' = .grant)
    (hfree : t ∉ released) (ht : s.holds t mode) : (s.enter me mode').holds t mode := by
  cases mode with
  | read =>
    obtain ⟨b, hb, rfl⟩ := excludes_iff.mp (holds_read_iff_excludes.mp ht)
    exact holds_read_iff_excludes.mpr (excludes_iff.mpr ⟨b, opposes_enter h hfree hb, rfl⟩)
  | write =>
    obtain ⟨b, hb, rfl⟩ := excludes_iff.mp (holds_write_iff_excludes.mp ht)
    exact holds_write_iff_excludes.mpr (excludes_iff.mpr ⟨b, opposes_enter h hfree hb, rfl⟩)

/-- Granting keeps the writer alone. -/
theorem Exclusive.enter (hs : s.Exclusive) (hr : s.Unreleased released)
    (h : s.judge released me mode = .grant) : (s.enter me mode).Exclusive := by
  have hrival := fun u => not_excludes_of_grant (u := u) hs hr h
  unfold Holders.enter
  split
  · exact hs
  · cases mode with
    | read =>
      dsimp only
      split
      · exact hs
      · rename_i hwrites hreads
        -- A writer other than the requester would have excluded it, and it was no reader before.
        refine ⟨fun w hw r hmem => ?_, ?_⟩
        · have hw' : s.writes w.txn := writes_iff.mpr ⟨w, hw, rfl⟩
          refine absurd (.inl hw') (hrival w.txn fun heq => hwrites ?_)
          rw [← heq]
          exact hw'
        · rw [List.map_append, List.nodup_append]
          refine ⟨hs.nodup, List.pairwise_singleton _ _, fun a ha b hb heq => hreads ?_⟩
          obtain ⟨r, hmem, rfl⟩ := List.mem_map.mp ha
          rw [List.map_singleton, List.mem_singleton] at hb
          exact reads_iff.mpr ⟨r, hmem, heq.trans hb⟩
    | write =>
      refine ⟨fun w hw r hmem => ?_, hs.nodup⟩
      cases hw
      -- A reader other than the requester would have excluded it.
      refine Decidable.byContradiction fun hne => hrival r.txn hne ?_
      exact .inr ⟨rfl, reads_iff.mpr ⟨r, hmem, rfl⟩⟩

/-- Taking a granted request back leaves the holders as they were. -/
theorem takeBack_enter (hr : s.Unreleased released)
    (h : s.judge released me mode = .grant) : (s.enter me mode).takeBack s me mode = s := by
  unfold takeBack
  cases mode with
  | write =>
    dsimp only
    split
    · rename_i hwrites
      simp [enter, hwrites]
    · rename_i hwrites
      -- A writer would be a blocker, since it is not released.
      have hnone : s.writer = none := by
        rcases judge_eq_grant h with hholds | hnil
        · exact absurd (holds_write_iff.mp hholds) hwrites
        · cases hw : s.writer with
          | none => rfl
          | some w =>
            have hfree := hr w.txn (holds_read_iff.mpr (.inl (writes_iff.mpr ⟨w, hw, rfl⟩)))
            unfold blockers at hnil
            rw [hw] at hnil
            simp [Option.filter, hfree] at hnil
      simp only [enter, hwrites, Bool.false_eq_true, if_false]
      rw [← hnone]
  | read =>
    dsimp only
    split
    · rename_i hreads
      simp [enter, hreads]
    · rename_i hreads
      -- The requester was no reader, so striking it out touches no other entry.
      have hfilter : (s.readers.filter fun r => !decide (r.txn = me.txn)) = s.readers := by
        rw [List.filter_eq_self]
        intro r hmem
        rw [Bool.not_eq_true', decide_eq_false_iff_not]
        exact fun heq => hreads (reads_iff.mpr ⟨r, hmem, heq⟩)
      unfold enter
      split
      · simp [hfilter]
      · simp [List.filter_append, hfilter]

/-! ## Striking out -/

/-- Striking a transaction out leaves every other writer. -/
theorem writes_drop : (s.drop t).writes u ↔ s.writes u ∧ u ≠ t := by
  simp only [writes_iff, drop, Option.filter_eq_some_iff, decide_eq_true_eq, ne_eq]
  constructor
  · rintro ⟨w, ⟨hw, hne⟩, rfl⟩
    exact ⟨⟨w, hw, rfl⟩, hne⟩
  · rintro ⟨⟨w, hw, rfl⟩, hne⟩
    exact ⟨w, ⟨hw, hne⟩, rfl⟩

/-- Striking a transaction out leaves every other reader. -/
theorem reads_drop : (s.drop t).reads u ↔ s.reads u ∧ u ≠ t := by
  simp only [reads_iff, drop, List.mem_filter, decide_eq_true_eq, ne_eq]
  constructor
  · rintro ⟨r, ⟨hr, hne⟩, rfl⟩
    exact ⟨⟨r, hr, rfl⟩, hne⟩
  · rintro ⟨⟨r, hr, rfl⟩, hne⟩
    exact ⟨r, ⟨hr, hne⟩, rfl⟩

/-- Striking a transaction out leaves every other holder. -/
theorem holds_drop : (s.drop t).holds u mode ↔ s.holds u mode ∧ u ≠ t := by
  cases mode with
  | read => rw [holds_read_iff, holds_read_iff, writes_drop, reads_drop, or_and_right]
  | write => rw [holds_write_iff, holds_write_iff, writes_drop]

/-- Striking a transaction out keeps the writer alone. -/
theorem Exclusive.drop (hs : s.Exclusive) (t : TransactionId) : (s.drop t).Exclusive where
  alone w hw r hmem :=
    hs.alone w (Option.filter_eq_some_iff.mp hw).1 r (List.mem_filter.mp hmem).1
  nodup := hs.nodup.sublist (List.filter_sublist.map _)

end Holders

end TxStore.Lock
