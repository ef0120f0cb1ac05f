import TxStore.Proofs.Lock.Everyone
import TxStore.Proofs.Lock.Redundancy
import TxStore.Proofs.Lock.Seclusion

/-!
# The priority rule

`Holders.judge` decides by a cascade of cases. Where every transaction always comes with the same
timestamp (`Manager.Dated`), the cascade comes to one rule (`Holders.judge_eq_of_dated`), which
compares the requester with its rivals, the other holders that its request conflicts with: without
rivals it is granted, it waits if it is older than all of them, and else it is refused. The cascade
looks at fewer holders. It passes over readers where there is a writer, and over holders that have
released their locks; but a reader beside a writer is the same transaction, of the same age, and no
holder has released its locks.

`request_by_priority` says what a request does to the whole manager. A request for what its
transaction has already changes nothing at all, since the index knows the mode of every holder
(`Run.recorded`).
-/

namespace TxStore.Lock

variable {released : List TransactionId} {t : TransactionId} {mode mode' : Mode} {me : Holder}

namespace Mode

/-- The stronger of two modes that are in order is the first. -/
theorem Covers.max_eq (h : mode.Covers mode') : mode.max mode' = mode := by
  rcases h with rfl | rfl
  · rfl
  · cases mode <;> rfl

/-- The stronger of two modes covers the second. -/
theorem covers_max_right (mode mode' : Mode) : (mode.max mode').Covers mode' := by
  cases mode with
  | read => cases mode' <;> simp [Mode.max, Covers]
  | write => exact .inl rfl

/-- What is covered by a mode is covered by the stronger of it and another. -/
theorem Covers.max {mode'' : Mode} (h : mode.Covers mode'') (mode' : Mode) :
    (mode.max mode').Covers mode'' := by
  rcases h with rfl | rfl
  · exact .inl rfl
  · exact .inr rfl

/-- Covering is transitive. -/
theorem Covers.trans {mode'' : Mode} (h : mode.Covers mode') (h' : mode'.Covers mode'') :
    mode.Covers mode'' := by
  rcases h' with rfl | rfl
  · exact .inl (h.resolve_right nofun)
  · exact .inr rfl

end Mode

namespace Holders

variable {s : Holders}

/-- The holders other than `txn` with which a request for `mode` conflicts: the writer, and for
writing all of them. -/
def rivals (s : Holders) (txn : TransactionId) (mode : Mode) : List Holder :=
  (match mode with
    | .read => s.writer.toList
    | .write => s.writer.toList ++ s.readers).filter fun b => b.txn ≠ txn

/-- The rivals are the opponents that are other transactions. -/
theorem mem_rivals {b : Holder} : b ∈ s.rivals t mode ↔ s.Opposes b mode ∧ b.txn ≠ t := by
  unfold rivals Opposes
  cases mode with
  | read => simp
  | write => simp [← or_and_right]

/-- Whoever has the key already has no rival for it. -/
theorem Exclusive.rivals_eq_nil (hs : s.Exclusive) (ht : s.holds t mode) :
    s.rivals t mode = [] := by
  refine List.eq_nil_iff_forall_not_mem.mpr fun b hb => ?_
  obtain ⟨hopposes, hne⟩ := mem_rivals.mp hb
  exact hne (hs.eq_of_excludes ht (excludes_iff.mpr ⟨b, hopposes, rfl⟩))

/-- The blockers of a request for what its transaction does not have are rivals. -/
theorem mem_rivals_of_mem_blockers {b : Holder} (hneeds : ¬ s.holds me.txn mode)
    (hb : b ∈ s.blockers released me mode) : b ∈ s.rivals me.txn mode := by
  obtain ⟨hopposes, hother⟩ := opposes_of_mem_blockers hb
  refine mem_rivals.mpr ⟨hopposes, ?_⟩
  rcases hother with hwriter | hne
  · rintro htxn
    have hwrites : s.holds me.txn .write :=
      holds_write_iff.mpr (writes_iff.mpr ⟨b, hwriter, htxn⟩)
    exact hneeds (holds_of_covers hwrites (.inl rfl))
  · exact hne

/-- Where all holders have the timestamps of their transactions, a request is granted without
rivals, waits if it is older than all of them, and is refused else. -/
theorem judge_eq_of_dated {age : TransactionId → Timestamp} (hs : s.Exclusive)
    (hr : s.Unreleased released) (hage : ∀ b, s.Opposes b .write → b.timestamp = age b.txn)
    (me : Holder) (mode : Mode) :
    s.judge released me mode =
      if s.rivals me.txn mode = [] then .grant
      else if (s.rivals me.txn mode).all fun b => me.timestamp.isBefore b.timestamp then .wait
      else .conflict := by
  unfold judge
  by_cases hholds : s.holds me.txn mode
  · rw [if_pos hholds, if_pos (hs.rivals_eq_nil hholds)]
  -- Every rival is a blocker, or is the same transaction as one.
  have hblocks : ∀ b ∈ s.rivals me.txn mode, ∃ c ∈ s.blockers released me mode,
      c.timestamp = b.timestamp := by
    intro b hb
    obtain ⟨hopposes, hne⟩ := mem_rivals.mp hb
    obtain ⟨c, hc, htxn⟩ := exists_mem_blockers hs hr (excludes_iff.mpr ⟨b, hopposes, rfl⟩) hne
    refine ⟨c, hc, ?_⟩
    rw [hage c (opposes_of_mem_blockers hc).1.write, hage b hopposes.write, htxn]
  have hrivals : ∀ b ∈ s.blockers released me mode, b ∈ s.rivals me.txn mode :=
    fun b hb => mem_rivals_of_mem_blockers hholds hb
  rw [if_neg hholds]
  split
  · rename_i hnil
    refine (if_pos (List.eq_nil_iff_forall_not_mem.mpr fun b hb => ?_)).symm
    obtain ⟨c, hc, -⟩ := hblocks b hb
    rw [hnil] at hc
    cases hc
  · rename_i hne
    obtain ⟨b, hb⟩ := List.exists_mem_of_ne_nil _ fun hnil => hne hnil
    have hall : (s.blockers released me mode).all
          (fun b => me.timestamp.isBefore b.timestamp) =
        (s.rivals me.txn mode).all fun b => me.timestamp.isBefore b.timestamp := by
      rw [Bool.eq_iff_iff, List.all_eq_true, List.all_eq_true]
      constructor
      · intro hbefore c hc
        obtain ⟨d, hd, htime⟩ := hblocks c hc
        exact htime ▸ hbefore d hd
      · exact fun hbefore c hc => hbefore c (hrivals c hc)
    rw [if_neg (List.ne_nil_of_mem (hrivals b hb)), hall]

/-- A granted request gives its key to the requester, and takes it from nobody. -/
theorem holds_enter_iff (hr : s.Unreleased released) (h : s.judge released me mode = .grant) :
    (s.enter me mode).holds t mode' ↔ s.holds t mode' ∨ t = me.txn ∧ mode.Covers mode' := by
  constructor
  · exact fun ht => (covers_of_holds_enter ht).imp id fun ⟨htxn, hcovers⟩ => ⟨htxn.symm, hcovers⟩
  · rintro (ht | ⟨rfl, hcovers⟩)
    · exact holds_enter_of_holds h (hr t (holds_of_covers ht (.inr rfl))) ht
    · exact holds_of_covers (holds_enter s me mode) hcovers

end Holders

namespace Manager

variable {m m' : Manager} {k j : Key} {age : TransactionId → Timestamp} {timeout : Option Duration}

/-- What clients do of whom each transaction uses one timestamp. -/
def Dated (age : TransactionId → Timestamp) (_ : Manager) : Call → Prop
  | .request _ me _ => me.timestamp = age me.txn
  | .release _ _ | .forget _ | .expire _ _ | .abandon _ _ => True

/-- The holders of a key have the timestamps of their transactions. -/
theorem Run.dated (run : Run (Dated age) timeout m) (k : Key) {b : Holder}
    (hb : (m.lockOf k).holders.Opposes b .write) : b.timestamp = age b.txn :=
  KeyLock.Everyone.of_opposes (run.everyone (fun _ _ _ _ hdated => hdated) k) hb

/-! ## What the index knows of the modes -/

/-- Whether a transaction is recorded with a key in `mode` or a stronger one. -/
def Records (m : Manager) (k : Key) (t : TransactionId) (mode : Mode) : Prop :=
  ∃ recorded, (m.held.getD t ∅).get? k = some recorded ∧ recorded.Covers mode

/-- A request is recorded in its mode. -/
theorem records_record (m : Manager) (t : TransactionId) (k : Key) (mode : Mode) :
    (m.record t k mode).Records k t mode := by
  refine ⟨_, ?_, Mode.covers_max_right (((m.held.getD t ∅).getD k mode)) mode⟩
  unfold record
  simp only [Dict.getD, Dict.get?_insert_self, Option.getD_some]

/-- And no record is lost or weakened. -/
theorem Records.record (h : m.Records k t mode) (u : TransactionId) (j : Key) (mode' : Mode) :
    (m.record u j mode').Records k t mode := by
  obtain ⟨recorded, hfound, hcovers⟩ := h
  unfold Records Manager.record
  by_cases hut : u = t
  · subst hut
    by_cases hjk : j = k
    · subst hjk
      refine ⟨recorded.max mode', ?_, hcovers.max mode'⟩
      have hasked : (m.held.getD u ∅).getD j mode' = recorded := by
        unfold Dict.getD at hfound ⊢
        rw [hfound]
        rfl
      simp only [hasked]
      simp only [Dict.getD, Dict.get?_insert_self, Option.getD_some]
    · refine ⟨recorded, ?_, hcovers⟩
      simp only [Dict.getD, Dict.get?_insert_self, Option.getD_some]
      rw [Dict.get?_insert, if_neg hjk]
      exact hfound
  · refine ⟨recorded, ?_, hcovers⟩
    simp only [Dict.getD]
    rw [Dict.get?_insert, if_neg hut]
    exact hfound

/-- The records of a request that is granted, refused or queued. -/
theorem records_request (hfree : me.txn ∉ m.released) :
    (m.request mode me k).1.Records j t mode' ↔ (m.record me.txn k mode).Records j t mode' := by
  rcases m.request_cases mode me k with ⟨hreleased, -⟩ | ⟨-, ⟨-, heq⟩ | ⟨-, heq⟩ | ⟨-, heq⟩⟩
  · exact absurd hreleased hfree
  all_goals
    rw [heq]
    exact Iff.rfl

/-- A request is recorded for everyone at a key. -/
theorem Consistent.recorded_request (h : m.Consistent) (mode : Mode) (me : Holder) (j : Key)
    (hrecorded : (m.lockOf k).Everyone fun b mode => m.Records k b.txn mode) :
    ((m.request mode me j).1.lockOf k).Everyone
      fun b mode' => (m.request mode me j).1.Records k b.txn mode' := by
  by_cases hreleased : me.txn ∈ m.released
  · rcases m.request_cases mode me j with ⟨-, heq⟩ | ⟨hfree, -⟩
    · rw [heq]
      exact hrecorded
    · exact absurd hreleased hfree
  have hbefore : (m.lockOf k).Everyone fun b mode' =>
      (m.request mode me j).1.Records k b.txn mode' :=
    hrecorded.mono fun b _ _ hb => (records_request hreleased).mpr (hb.record me.txn j mode)
  by_cases hjk : j = k
  · subst hjk
    refine h.everyone (lockOf_perform_request mode me j j) (fun mode' me' _ heq => ?_) hbefore
    cases heq
    exact (records_request hreleased).mpr (records_record ..)
  · rw [lockOf_request_of_ne hjk]
    exact hbefore

/-- After any run everyone at a key is recorded with it, in its mode or a stronger one. -/
theorem Run.recorded {Permitted : Manager → Call → Prop} (run : Run Permitted timeout m)
    (k : Key) : (m.lockOf k).Everyone fun b mode => m.Records k b.txn mode := by
  induction run with
  | new => exact KeyLock.everyone_free
  | @perform m call run haccepts _ ih =>
    have hconsistent := run.consistent
    -- A call that is no request brings nobody to the key, and touches no record of those there.
    have hstay : (∀ mode me j, call ≠ .request mode me j) →
        (∀ t, ((m.perform call).lockOf k).Involves t →
          (m.perform call).held.get? t = m.held.get? t) →
        ((m.perform call).lockOf k).Everyone
          fun b mode => (m.perform call).Records k b.txn mode := by
      intro hcall hheld
      have hafter := hconsistent.everyone (lockOf_perform haccepts k)
        (fun mode me j heq => absurd heq (hcall mode me j)) ih
      refine hafter.mono fun b mode hinvolves hb => ?_
      unfold Records Dict.getD
      rw [hheld b.txn hinvolves]
      exact hb
    cases call with
    | request mode me j => exact hconsistent.recorded_request mode me j ih
    | release t order =>
      refine hstay nofun fun u hinvolves => ?_
      have hne : t ≠ u := by
        rintro rfl
        exact hconsistent.not_involves_release haccepts k hinvolves
      show (m.releaseInOrder t order).held.get? u = _
      rw [releaseInOrder_eq, (foldl_releaseKey_frame ..).2.1]
      unfold mark
      rw [Dict.get?_erase, if_neg hne]
    | forget t => exact hstay nofun fun _ _ => rfl
    | expire j ticket =>
      have hheld : (m.expire j ticket).held = m.held := held_visit ..
      exact hstay nofun fun t _ => congrArg (·.get? t) hheld
    | abandon j ticket =>
      have hheld : (m.abandon j ticket).held = m.held := held_visit ..
      exact hstay nofun fun t _ => congrArg (·.get? t) hheld

/-- Recording again what is recorded changes nothing. -/
theorem Records.record_eq (h : m.Records k t mode) : m.record t k mode = m := by
  obtain ⟨recorded, hfound, hcovers⟩ := h
  have hasked : (m.held.getD t ∅).getD k mode = recorded := by
    show ((m.held.getD t ∅).get? k).getD mode = recorded
    rw [hfound]
    rfl
  have hheld : m.held.get? t = some (m.held.getD t ∅) := by
    unfold Dict.getD at hfound ⊢
    cases hget : m.held.get? t with
    | none =>
      rw [hget] at hfound
      cases hfound
    | some asked => rfl
  unfold Manager.record
  dsimp only
  rw [hasked, hcovers.max_eq, Dict.insert_of_get? hfound, Dict.insert_of_get? hheld]

/-- A request that is judged so is granted. -/
theorem request_of_grant (hfree : me.txn ∉ m.released)
    (hjudge : (m.lockOf k).holders.judge m.released me mode = .grant) :
    m.request mode me k = ((m.record me.txn k mode).update k
      (⟨(m.lockOf k).holders.enter me mode, (m.lockOf k).queue⟩, []), .granted) := by
  rcases m.request_cases mode me k with
    ⟨hreleased, -⟩ | ⟨-, ⟨-, heq⟩ | ⟨hother, -⟩ | ⟨hother, -⟩⟩
  · exact absurd hreleased hfree
  · exact heq
  · cases hjudge.symm.trans hother
  · cases hjudge.symm.trans hother

/-- A request that is judged so is queued. -/
theorem request_of_wait (hfree : me.txn ∉ m.released)
    (hjudge : (m.lockOf k).holders.judge m.released me mode = .wait) :
    m.request mode me k = ({ (m.record me.txn k mode).update k
      ((m.lockOf k).append ⟨me, mode, m.nextTicket, true⟩, []) with
        nextTicket := m.nextTicket + 1 }, .queued m.nextTicket) := by
  rcases m.request_cases mode me k with
    ⟨hreleased, -⟩ | ⟨-, ⟨hother, -⟩ | ⟨hother, -⟩ | ⟨-, heq⟩⟩
  · exact absurd hreleased hfree
  · cases hjudge.symm.trans hother
  · cases hjudge.symm.trans hother
  · exact heq

/-- A request that is judged so is refused. -/
theorem request_of_conflict (hfree : me.txn ∉ m.released)
    (hjudge : (m.lockOf k).holders.judge m.released me mode = .conflict) :
    m.request mode me k =
      ((m.record me.txn k mode).update k (m.lockOf k, []), .refused .conflict) := by
  rcases m.request_cases mode me k with
    ⟨hreleased, -⟩ | ⟨-, ⟨hother, -⟩ | ⟨-, heq⟩ | ⟨hother, -⟩⟩
  · exact absurd hreleased hfree
  · cases hjudge.symm.trans hother
  · exact heq
  · cases hjudge.symm.trans hother

/-- A transaction that asks again for what it has changes nothing. -/
theorem Run.request_of_holds {Permitted : Manager → Call → Prop} (run : Run Permitted timeout m)
    (hholds : (m.lockOf k).holders.holds me.txn mode) : m.request mode me k = (m, .granted) := by
  have hfree : me.txn ∉ m.released :=
    (run.consistent.sound k).unreleased _ (Holders.holds_of_covers hholds (.inr rfl))
  have hgrant : (m.lockOf k).holders.judge m.released me mode = .grant :=
    Holders.judge_of_holds hholds
  have hrecords : m.Records k me.txn mode := by
    obtain ⟨b, mode', htxn, ⟨recorded, hfound, hcovers⟩, hmode⟩ := (run.recorded k).of_holds hholds
    exact ⟨recorded, htxn ▸ hfound, hcovers.trans hmode⟩
  -- Somebody holds the key, so it has an entry.
  have hentry : m.locks.get? k = some (m.lockOf k) := by
    unfold lockOf Dict.getD at hholds ⊢
    cases hget : m.locks.get? k with
    | none =>
      rw [hget] at hholds
      exact absurd (.inl (Holders.holds_of_covers hholds (.inr rfl))) (KeyLock.not_involves_free _)
    | some lock => rfl
  rw [request_of_grant hfree hgrant, Holders.enter_of_holds hholds, hrecords.record_eq]
  unfold update
  rw [Dict.insert_of_get? hentry, List.append_nil]

/-! ## What a request does -/

/-- What a request of `t` for a key leaves as it was: the other keys, who is released, what the
callers were told, and the index, but for the note that `t` has asked for the key. -/
structure Notes (m m' : Manager) (t : TransactionId) (k : Key) : Prop where
  /-- The locks of the other keys are as they were. -/
  locks : ∀ j, j ≠ k → m'.lockOf j = m.lockOf j
  /-- Nobody is released, and nobody forgotten. -/
  released : m'.released = m.released
  /-- No caller is told anything. -/
  resolved : m'.resolved = m.resolved
  /-- The timeout is as it was. -/
  timeout : m'.timeout = m.timeout
  /-- The key is among those for which `t` has asked. -/
  keysOf : ∀ u j, j ∈ m'.keysOf u ↔ j ∈ m.keysOf u ∨ t = u ∧ k = j

/-- A request that is recorded touches nothing else than its key. -/
theorem notes_request (hfree : me.txn ∉ m.released) :
    m.Notes (m.request mode me k).1 me.txn k := by
  have hlocks : ∀ j, j ≠ k → (m.request mode me k).1.lockOf j = m.lockOf j :=
    fun j hne => lockOf_request_of_ne (Ne.symm hne) mode me
  rcases m.request_cases mode me k with ⟨hreleased, -⟩ | ⟨-, ⟨-, heq⟩ | ⟨-, heq⟩ | ⟨-, heq⟩⟩
  · exact absurd hreleased hfree
  all_goals
    rw [heq] at hlocks ⊢
    exact ⟨hlocks, rfl, List.append_nil _, rfl, fun _ _ => mem_keysOf_record⟩

/-- Asking for a key that is granted at once. -/
theorem acquire_of_granted (h : m.request mode me k = (m', .granted)) (now : Duration) :
    m.acquire now mode me k = (m', .answered (.ok ())) := by
  unfold acquire
  rw [h]

/-- Asking for a key that is refused at once. -/
theorem acquire_of_refused {why : Refusal} (h : m.request mode me k = (m', .refused why))
    (now : Duration) : m.acquire now mode me k = (m', .answered (.error why)) := by
  unfold acquire
  rw [h]

/-- Asking for a key for which one has to wait: there is no answer yet, and the caller waits unless
its deadline has come already. -/
theorem Ticketed.acquire_of_queued (h : m.Ticketed)
    (hqueued : m.request mode me k = (m', .queued m.nextTicket)) {now : Duration} {w : Waiting}
    (hw : w = ⟨k, m.nextTicket, m'.timeout.map fun d => ⟨now.nanos + d.nanos⟩⟩)
    (hdue : w.isDue now = false) : m.acquire now mode me k = (m', .waiting w) := by
  obtain ⟨-, -, hresolved⟩ := ticket_of_queued hqueued
  have hnone : m'.resolution? w.ticket = none := by
    refine resolution?_eq_none.mpr fun wake hmem => ?_
    rw [hresolved, hw] at hmem
    exact Nat.lt_irrefl _ (h.resolved _ hmem)
  unfold acquire
  rw [hqueued]
  dsimp only
  rw [← hw]
  unfold poll
  rw [hnone, hdue]
  rfl

/-- The priority rule. After any calls in which each transaction uses one timestamp, let a
transaction that has not released its locks ask for a key, and let its rivals be the other holders
that its request conflicts with. Without rivals it is granted at once; everybody else keeps what it
has, and if the requester had the key in that mode already nothing changes at all. If it is older
than all of its rivals, it waits at the end of the queue. In any other case it is refused, and no
lock changes. The locks of the other keys never do. -/
theorem request_by_priority (run : Run (Dated age) timeout m) (mode : Mode) (me : Holder)
    (hfree : me.txn ∉ m.released) (k : Key) :
    let l := m.lockOf k
    let rivals := l.holders.rivals me.txn mode
    let m' := (m.request mode me k).1
    let reply := (m.request mode me k).2
    m.Notes m' me.txn k ∧
    (rivals = [] →
      reply = .granted ∧ (∀ now, m.acquire now mode me k = (m', .answered (.ok ()))) ∧
      (∀ t mode', (m'.lockOf k).holders.holds t mode' ↔
        l.holders.holds t mode' ∨ t = me.txn ∧ mode.Covers mode') ∧
      (m'.lockOf k).queue = l.queue ∧ m'.nextTicket = m.nextTicket ∧
      (l.holders.holds me.txn mode → m' = m)) ∧
    (rivals ≠ [] → (∀ b ∈ rivals, me.timestamp.isBefore b.timestamp) →
      reply = .queued m.nextTicket ∧
      (∀ now w, w = ⟨k, m.nextTicket, m.timeout.map fun d => ⟨now.nanos + d.nanos⟩⟩ →
        w.isDue now = false → m.acquire now mode me k = (m', .waiting w)) ∧
      m'.lockOf k = l.append ⟨me, mode, m.nextTicket, true⟩ ∧
      m'.nextTicket = m.nextTicket + 1) ∧
    ((∃ b ∈ rivals, ¬ me.timestamp.isBefore b.timestamp) →
      reply = .refused .conflict ∧
      (∀ now, m.acquire now mode me k = (m', .answered (.error .conflict))) ∧
      m'.lockOf k = l ∧ m'.nextTicket = m.nextTicket) := by
  -- The judgement of the manager is that of the rivals.
  have hsound := run.consistent.sound k
  have hjudge := Holders.judge_eq_of_dated hsound.exclusive hsound.unreleased
    (fun _ => run.dated k) me mode
  -- What is written back to the key is what the manager has there, whatever was recorded before.
  have hrecorded : ∀ lock : KeyLock,
      ((m.record me.txn k mode).update k (lock, [])).lockOf k = lock :=
    fun lock => (lockOf_update ..).trans (if_pos rfl)
  intro l rivals m' reply
  have hnotes : m.Notes m' me.txn k := notes_request hfree
  -- Each case is a judgement, and the judgement decides what the request does.
  refine ⟨hnotes, fun hnil => ?granted, fun hne hyounger => ?queued,
    fun ⟨b, hb, hbefore⟩ => ?refused⟩
  case granted =>
    have hgrant : l.holders.judge m.released me mode = .grant := hjudge.trans (if_pos hnil)
    have heq := request_of_grant hfree hgrant
    have hlock : m'.lockOf k = ⟨l.holders.enter me mode, l.queue⟩ := by
      show (m.request mode me k).1.lockOf k = _
      rw [heq]
      exact hrecorded _
    have hreply : reply = .granted := congrArg Prod.snd heq
    refine ⟨hreply, acquire_of_granted (Prod.ext rfl hreply), fun t mode' => ?_, ?_, ?_,
      fun hholds => ?_⟩
    · rw [hlock]
      exact Holders.holds_enter_iff hsound.unreleased hgrant
    · rw [hlock]
    · exact congrArg (·.1.nextTicket) heq
    · exact congrArg Prod.fst (run.request_of_holds hholds)
  case queued =>
    have hall : rivals.all fun b => me.timestamp.isBefore b.timestamp :=
      List.all_eq_true.mpr hyounger
    have hwait : l.holders.judge m.released me mode = .wait :=
      hjudge.trans ((if_neg hne).trans (if_pos hall))
    have heq := request_of_wait hfree hwait
    have hreply : reply = .queued m.nextTicket := congrArg Prod.snd heq
    refine ⟨hreply, fun now w hw hdue => ?_, ?_, congrArg (·.1.nextTicket) heq⟩
    · rw [← hnotes.timeout] at hw
      exact run.tallied.ticketed.acquire_of_queued (Prod.ext rfl hreply) hw hdue
    · show (m.request mode me k).1.lockOf k = _
      rw [heq]
      exact hrecorded _
  case refused =>
    have hnall : ¬ rivals.all fun b => me.timestamp.isBefore b.timestamp :=
      fun hall => hbefore (List.all_eq_true.mp hall b hb)
    have hconflict : l.holders.judge m.released me mode = .conflict :=
      hjudge.trans ((if_neg (List.ne_nil_of_mem hb)).trans (if_neg hnall))
    have heq := request_of_conflict hfree hconflict
    have hreply : reply = .refused .conflict := congrArg Prod.snd heq
    refine ⟨hreply, acquire_of_refused (Prod.ext rfl hreply), ?_, congrArg (·.1.nextTicket) heq⟩
    show (m.request mode me k).1.lockOf k = _
    rw [heq]
    exact hrecorded _

/-- For instance, 7 and 5 read a key. If 5 asks to write it, it has to wait for 7, which is younger;
9 is refused, since it is younger than both; and 7 may read the key again, which changes nothing. -/
theorem request_by_priority_readers :
    let k : Key := ⟨⟨1⟩, .integer 1⟩
    let m : Manager :=
      [.request .read ⟨⟨7⟩, ⟨7⟩⟩ k, .request .read ⟨⟨5⟩, ⟨5⟩⟩ k].foldl perform (new none)
    Run (Dated fun t => ⟨.ofNat t.number⟩) none m ∧ m.released = [] ∧
      (m.request .write ⟨⟨5⟩, ⟨5⟩⟩ k).2 = .queued 1 ∧
      (m.request .write ⟨⟨9⟩, ⟨9⟩⟩ k).2 = .refused .conflict ∧
      m.request .read ⟨⟨7⟩, ⟨7⟩⟩ k = (m, .granted) := by
  intro k m
  have run : Run (Dated fun t => ⟨.ofNat t.number⟩) none m :=
    Run.performAll .new ⟨⟨trivial, rfl⟩, ⟨trivial, rfl⟩, trivial⟩
  have hfree : ∀ t : TransactionId, t ∉ m.released := fun _ => nofun
  obtain ⟨-, -, hqueued, -⟩ := request_by_priority run .write ⟨⟨5⟩, ⟨5⟩⟩ (hfree _) k
  obtain ⟨-, -, -, hrefused⟩ := request_by_priority run .write ⟨⟨9⟩, ⟨9⟩⟩ (hfree _) k
  obtain ⟨-, hgranted, -⟩ := request_by_priority run .read ⟨⟨7⟩, ⟨7⟩⟩ (hfree _) k
  obtain ⟨hreply, -, -, -, -, hsame⟩ := hgranted (by decide)
  exact ⟨run, rfl, (hqueued (by decide) (by decide)).1,
    (hrefused ⟨⟨⟨7⟩, ⟨7⟩⟩, by decide, by decide⟩).1, Prod.ext (hsame (by decide)) hreply⟩

end Manager

end TxStore.Lock
