import TxStore.Proofs.Lock.Writers

/-!
# How a key is handed over

When the last holder of a key releases it, the queue is served, and what becomes of each waiter
depends on whom the waiters ahead of it have made a holder. If the first one asks to write it has
the key, and the others are refused up to the first one that is older
(`KeyLock.serveFrom_behind_writer`). If the first one asks to read, the readers among the others
join it, and each writer is refused, up to the first one that is older than all readers so far
(`KeyLock.serveFrom_behind_readers`). Whoever comes after the one that waits on is not looked at.

Both are shown for a queue of different transactions that hold nothing of the key, whose callers
still listen. `handed_over` puts them together for the release of a key by its last holder.
-/

namespace TxStore.Lock

variable {released : List TransactionId} {me b : Holder}

namespace Holders

/-- How a request is judged where another transaction is the writer and nobody reads. -/
theorem judge_of_other_writer (hfree : b.txn ∉ released) (hne : b.txn ≠ me.txn) (mode : Mode) :
    (Holders.mk (some b) []).judge released me mode =
      if me.timestamp.isBefore b.timestamp then .wait else .conflict := by
  have hneeds : ¬ (Holders.mk (some b) []).holds me.txn mode := by
    simp [holds, writes, reads, hne]
  have hblockers : (Holders.mk (some b) []).blockers released me mode = [b] := by
    simp [blockers, Option.filter, hfree]
  unfold judge
  rw [if_neg hneeds, hblockers]
  simp

/-- Where nobody has the key every request is granted. -/
theorem judge_nobody (mode : Mode) : nobody.judge released me mode = .grant := by
  cases mode <;> rfl

/-- A request to read is granted where nobody writes. -/
theorem judge_read_of_readers (readers : List Holder) :
    (Holders.mk none readers).judge released me .read = .grant := by
  unfold judge
  split
  · rfl
  · rfl

/-- How a request to write is judged where others read and nobody writes. -/
theorem judge_write_of_readers {readers : List Holder} (hsome : readers ≠ [])
    (hfree : ∀ r ∈ readers, r.txn ∉ released) (hne : ∀ r ∈ readers, r.txn ≠ me.txn) :
    (Holders.mk none readers).judge released me .write =
      if readers.all fun r => me.timestamp.isBefore r.timestamp then .wait else .conflict := by
  have hneeds : ¬ (Holders.mk none readers).holds me.txn .write := by
    simp [holds, writes]
  have hblockers : (Holders.mk none readers).blockers released me .write = readers := by
    refine List.filter_eq_self.mpr fun r hr => ?_
    simp [hfree r hr, hne r hr]
  unfold judge
  rw [if_neg hneeds, hblockers]
  split
  · exact absurd rfl hsome
  · rfl

/-- Entering a reader where nobody writes and it does not read. -/
theorem enter_read {readers : List Holder} (hne : ∀ r ∈ readers, r.txn ≠ me.txn) :
    (Holders.mk none readers).enter me .read = ⟨none, readers ++ [me]⟩ := by
  have hreads : ¬ (Holders.mk none readers).reads me.txn := by
    rw [reads_iff]
    rintro ⟨r, hr, htxn⟩
    exact hne r hr htxn
  unfold enter
  rw [if_neg (by simp [writes])]
  exact if_neg hreads

end Holders

namespace KeyLock

variable {l : KeyLock} {s : Holders} {q : List Waiter} {readers : List Holder}
  {t : TransactionId}

/-- The waiters that ask to read, as holders. -/
def readersOf (q : List Waiter) : List Holder :=
  (q.filter fun w => w.mode = .read).map Waiter.holder

/-- The word to a waiter that is served where nobody writes: a reader is granted the key, and a
writer is refused. -/
def wordAmongReaders (w : Waiter) : Resolution :=
  (w.ticket, match w.mode with
    | .read => .granted
    | .write => .conflict)

/-- What a waiter is told whose caller listens. -/
theorem resolution_of_live {w : Waiter} (hlive : w.live) (wake : Wake) :
    w.resolution wake = (w.ticket, wake) := by
  unfold Waiter.resolution
  rw [if_pos hlive]

/-- Behind a writer the waiters are refused, up to the first one that is older. -/
theorem serveFrom_behind_writer (hfree : b.txn ∉ released)
    (hothers : ∀ w ∈ q, w.holder.txn ∉ released ∧ b.txn ≠ w.holder.txn) :
    serveFrom released ⟨some b, []⟩ q =
      (⟨⟨some b, []⟩, q.dropWhile fun w => !w.holder.timestamp.isBefore b.timestamp⟩,
        (q.takeWhile fun w => !w.holder.timestamp.isBefore b.timestamp).map
          (·.resolution .conflict)) := by
  induction q with
  | nil => rfl
  | cons w rest ih =>
    obtain ⟨hunreleased, hne⟩ := hothers w List.mem_cons_self
    have hserved := ih fun v hv => hothers v (List.mem_cons_of_mem _ hv)
    unfold serveFrom
    rw [if_neg hunreleased, Holders.judge_of_other_writer hfree hne]
    by_cases hbefore : w.holder.timestamp.isBefore b.timestamp
    · rw [if_pos hbefore]
      simp [hbefore]
    · rw [if_neg hbefore]
      simp [hbefore, hserved]

/-- What serving a queue comes to where `readers` have the key. -/
structure LetsIn (readers : List Holder) (q : List Waiter) (served : KeyLock × List Resolution)
    (reached staying : List Waiter) : Prop where
  /-- The waiters that are reached stand in front of those that stay. -/
  queue : q = reached ++ staying
  /-- The readers that are reached join the others. -/
  lock : served.1 = ⟨⟨none, readers ++ readersOf reached⟩, staying⟩
  /-- They are granted the key, and the writers that are reached are refused. -/
  words : served.2 = reached.map wordAmongReaders
  /-- A writer that is reached is not older than every reader by then. -/
  refused : ∀ before w after, reached = before ++ w :: after → w.mode = .write →
    ∃ r ∈ readers ++ readersOf before, ¬ w.holder.timestamp.isBefore r.timestamp
  /-- The first one that stays is a writer older than all readers. -/
  stays : ∀ w behind, staying = w :: behind → w.mode = .write ∧
    ∀ r ∈ readers ++ readersOf reached, w.holder.timestamp.isBefore r.timestamp

section LetsIn

variable {w : Waiter} {served : KeyLock × List Resolution} {reached staying : List Waiter}

/-- A reader at the front joins the readers. -/
theorem LetsIn.read (h : LetsIn (readers ++ [w.holder]) q served reached staying)
    (hmode : w.mode = .read) :
    LetsIn readers (w :: q) (served.1, (w.ticket, .granted) :: served.2) (w :: reached)
      staying := by
  have hjoins : ∀ q, readers ++ readersOf (w :: q) = readers ++ [w.holder] ++ readersOf q := by
    intro q
    simp [readersOf, hmode]
  refine ⟨congrArg (w :: ·) h.queue, ?_, ?_, fun before v after heq hwrite => ?_, ?_⟩
  · rw [hjoins]
    exact h.lock
  · rw [List.map_cons, ← h.words, wordAmongReaders, hmode]
  · cases before with
    | nil =>
      cases heq
      rw [hmode] at hwrite
      cases hwrite
    | cons _ before =>
      cases heq
      rw [hjoins]
      exact h.refused before v after rfl hwrite
  · rw [hjoins]
    exact h.stays

/-- A writer at the front is refused, if it is not older than every reader. -/
theorem LetsIn.refuse (h : LetsIn readers q served reached staying) (hmode : w.mode = .write)
    (hage : ∃ r ∈ readers, ¬ w.holder.timestamp.isBefore r.timestamp) :
    LetsIn readers (w :: q) (served.1, (w.ticket, .conflict) :: served.2) (w :: reached)
      staying := by
  have hjoins : ∀ q, readersOf (w :: q) = readersOf q := by
    intro q
    simp [readersOf, hmode]
  refine ⟨congrArg (w :: ·) h.queue, ?_, ?_, fun before v after heq hwrite => ?_, ?_⟩
  · rw [hjoins]
    exact h.lock
  · rw [List.map_cons, ← h.words, wordAmongReaders, hmode]
  · cases before with
    | nil =>
      cases heq
      obtain ⟨r, hr, hbefore⟩ := hage
      exact ⟨r, List.mem_append_left _ hr, hbefore⟩
    | cons _ before =>
      cases heq
      rw [hjoins]
      exact h.refused before v after rfl hwrite
  · rw [hjoins]
    exact h.stays

/-- Nobody is reached behind a writer that is older than every reader. -/
theorem letsIn_stay (hmode : w.mode = .write)
    (hage : ∀ r ∈ readers, w.holder.timestamp.isBefore r.timestamp) :
    LetsIn readers (w :: q) (⟨⟨none, readers⟩, w :: q⟩, []) [] (w :: q) := by
  refine ⟨rfl, ?_, rfl, fun before _ _ heq => ?_, fun v behind heq => ?_⟩
  · rw [show readersOf [] = [] from rfl, List.append_nil]
  · cases before <;> cases heq
  · cases heq
    rw [show readersOf [] = [] from rfl, List.append_nil]
    exact ⟨hmode, hage⟩

/-- Behind readers the waiters to read join them, and the waiters to write are refused, up to the
first one that is older than all readers so far. -/
theorem serveFrom_behind_readers (hsome : readers ≠ [])
    (hfree : ∀ r ∈ readers, r.txn ∉ released)
    (hwaiters : ∀ w ∈ q, w.holder.txn ∉ released ∧ w.live)
    (hdistinct : (readers.map Holder.txn ++ q.map (·.holder.txn)).Nodup) :
    ∃ reached staying,
      LetsIn readers q (serveFrom released ⟨none, readers⟩ q) reached staying := by
  -- The induction is on the queue, for all readers, since each reader that is reached joins them.
  induction q generalizing readers with
  | nil => exact ⟨[], [], rfl, by simp [readersOf, serveFrom], rfl, by simp, by simp⟩
  | cons w rest ih =>
    obtain ⟨hunreleased, hlive⟩ := hwaiters w List.mem_cons_self
    have hrest : ∀ v ∈ rest, v.holder.txn ∉ released ∧ v.live :=
      fun v hv => hwaiters v (List.mem_cons_of_mem _ hv)
    have hother : ∀ r ∈ readers, r.txn ≠ w.holder.txn := fun r hr =>
      (List.nodup_append.mp hdistinct).2.2 _ (List.mem_map_of_mem hr) _ List.mem_cons_self
    unfold serveFrom
    rw [if_neg hunreleased]
    cases hmode : w.mode with
    | read =>
      have hjoined : ((readers ++ [w.holder]).map Holder.txn ++
          rest.map (·.holder.txn)).Nodup := by
        simpa using hdistinct
      have hunreleased' : ∀ r ∈ readers ++ [w.holder], r.txn ∉ released := by
        intro r hr
        rcases List.mem_append.mp hr with hr | hr
        · exact hfree r hr
        · exact List.mem_singleton.mp hr ▸ hunreleased
      obtain ⟨reached, staying, h⟩ := ih (by simp) hunreleased' hrest hjoined
      refine ⟨w :: reached, staying, ?_⟩
      rw [Holders.judge_read_of_readers]
      dsimp only
      rw [if_pos hlive, Holders.enter_read hother, resolution_of_live hlive]
      exact h.read hmode
    | write =>
      rw [Holders.judge_write_of_readers hsome hfree hother]
      by_cases hage : readers.all fun r => w.holder.timestamp.isBefore r.timestamp
      · rw [if_pos hage]
        exact ⟨[], w :: rest, letsIn_stay hmode (List.all_eq_true.mp hage)⟩
      · -- The readers are still the same for the others.
        have hnodup : (readers.map Holder.txn ++ rest.map (·.holder.txn)).Nodup :=
          hdistinct.sublist ((List.sublist_cons_self ..).append_left _)
        obtain ⟨reached, staying, h⟩ := ih hsome hfree hrest hnodup
        refine ⟨w :: reached, staying, ?_⟩
        rw [if_neg hage]
        dsimp only
        rw [resolution_of_live hlive]
        refine h.refuse hmode ?_
        simpa using hage

end LetsIn

/-- Where nobody has the key and the first waiter asks to write, it is granted the key, and the
others stand behind a writer. -/
theorem serveFrom_nobody_write {first : Waiter} (hmode : first.mode = .write)
    (hwaiters : ∀ w ∈ first :: q, w.holder.txn ∉ released ∧ w.live)
    (hdistinct : ((first :: q).map (·.holder.txn)).Nodup) :
    serveFrom released .nobody (first :: q) =
      (⟨⟨some first.holder, []⟩,
          q.dropWhile fun w => !w.holder.timestamp.isBefore first.holder.timestamp⟩,
        (first.ticket, .granted) ::
          (q.takeWhile fun w => !w.holder.timestamp.isBefore first.holder.timestamp).map
            fun w => (w.ticket, .conflict)) := by
  obtain ⟨hunreleased, hlive⟩ := hwaiters first List.mem_cons_self
  obtain ⟨hnotin, -⟩ := List.nodup_cons.mp hdistinct
  have hbehind := serveFrom_behind_writer hunreleased fun w hw =>
    ⟨(hwaiters w (List.mem_cons_of_mem _ hw)).1, fun htxn =>
      hnotin (List.mem_map.mpr ⟨w, hw, htxn.symm⟩)⟩
  have hwords : ∀ w ∈ q.takeWhile fun w => !w.holder.timestamp.isBefore first.holder.timestamp,
      w.resolution .conflict = (w.ticket, .conflict) := fun w hw =>
    resolution_of_live
      (hwaiters w (List.mem_cons_of_mem _ ((List.takeWhile_prefix _).subset hw))).2 _
  unfold serveFrom
  rw [if_neg hunreleased, hmode, Holders.judge_nobody]
  dsimp only
  rw [if_pos hlive, resolution_of_live hlive, ← List.map_congr_left hwords]
  show ((serveFrom released ⟨some first.holder, []⟩ q).1, _) = _
  rw [show Holders.nobody.enter first.holder .write = ⟨some first.holder, []⟩ from rfl, hbehind]

/-- Where nobody has the key and the first waiter asks to read, readers are let in. -/
theorem serveFrom_nobody_read {first : Waiter} (hmode : first.mode = .read)
    (hwaiters : ∀ w ∈ first :: q, w.holder.txn ∉ released ∧ w.live)
    (hdistinct : ((first :: q).map (·.holder.txn)).Nodup) :
    ∃ reached staying,
      LetsIn [] (first :: q) (serveFrom released .nobody (first :: q)) reached staying := by
  obtain ⟨hunreleased, hlive⟩ := hwaiters first List.mem_cons_self
  obtain ⟨reached, staying, h⟩ := serveFrom_behind_readers (List.cons_ne_nil first.holder [])
    (by simpa using hunreleased) (fun w hw => hwaiters w (List.mem_cons_of_mem _ hw)) hdistinct
  refine ⟨first :: reached, staying, ?_⟩
  unfold serveFrom
  rw [if_neg hunreleased, hmode, Holders.judge_nobody]
  dsimp only
  rw [if_pos hlive, resolution_of_live hlive]
  exact h.read hmode

/-- When its last holder releases a key for which it does not wait, the queue is served from the
front for a key that nobody has. -/
theorem release_of_last (honly : ∀ u, l.holders.holds u .read → u = t)
    (hqueue : ∀ w ∈ l.queue, w.holder.txn ≠ t) :
    l.release t released = serveFrom released .nobody l.queue := by
  have hdrop : l.holders.drop t = .nobody := by
    have hwriter : (l.holders.writer.filter fun w => w.txn ≠ t) = none := by
      rw [Option.filter_eq_none_iff]
      intro w hw
      simpa using honly w.txn
        (Holders.holds_read_iff.mpr (.inl (Holders.writes_iff.mpr ⟨w, hw, rfl⟩)))
    have hreaders : (l.holders.readers.filter fun r => r.txn ≠ t) = [] := by
      rw [List.filter_eq_nil_iff]
      intro r hr
      simpa using honly r.txn
        (Holders.holds_read_iff.mpr (.inr (Holders.reads_iff.mpr ⟨r, hr, rfl⟩)))
    unfold Holders.drop
    rw [hwriter, hreaders]
    rfl
  -- Nobody leaves the queue before it is served.
  have hleaving : (l.queue.filter fun w => w.holder.txn = t) = [] := by
    simpa [List.filter_eq_nil_iff] using hqueue
  have hstaying : (l.queue.filter fun w => w.holder.txn ≠ t) = l.queue := by
    simpa [List.filter_eq_self] using hqueue
  unfold KeyLock.release serve
  rw [hleaving, hstaying, hdrop]
  rfl

end KeyLock

namespace Manager

variable {m : Manager} {k : Key} {t : TransactionId} {order : List Key}
  {Permitted : Manager → Call → Prop} {timeout : Option Duration}

/-- When its last holder releases a key for which it does not wait, the queue is served from the
front for a key that nobody has, and the callers of those that leave it are told. -/
theorem Run.release_of_last (run : Run Permitted timeout m) (horder : order.Perm (m.keysOf t))
    (hholds : (m.lockOf k).holders.holds t .read)
    (honly : ∀ u, (m.lockOf k).holders.holds u .read → u = t)
    (hqueue : ∀ w ∈ (m.lockOf k).queue, w.holder.txn ≠ t) :
    let served := KeyLock.serveFrom (m.releasedWith t) .nobody (m.lockOf k).queue
    (m.releaseInOrder t order).lockOf k = served.1 ∧
      (∀ r ∈ served.2, (m.releaseInOrder t order).resolution? r.1 = some r.2) ∧
      ∀ w ∈ served.1.queue, (m.releaseInOrder t order).resolution? w.ticket = none := by
  intro served
  have hnodup : order.Nodup := horder.nodup_iff.mpr (m.held.getD t ∅).nodup_keys
  have hvisited : k ∈ order := horder.mem_iff.mpr (run.consistent.indexed k t (.inl hholds))
  have hserved : (m.lockOf k).release t (m.releasedWith t) = served :=
    KeyLock.release_of_last honly hqueue
  have hlock : (m.releaseInOrder t order).lockOf k = served.1 := by
    rw [releaseInOrder_eq, lockOf_foldl_releaseKey (m.mark t) t order hnodup, if_pos hvisited]
    exact congrArg Prod.fst hserved
  have htallied : (m.releaseInOrder t order).Tallied := run.tallied.release t order
  refine ⟨hlock, fun r hr => htallied.resolution?_eq ?_, fun w hw => ?_⟩
  · rw [releaseInOrder_eq, resolved_foldl_releaseKey (m.mark t) t order hnodup]
    refine List.mem_append_right _ (List.mem_flatMap.mpr ⟨k, hvisited, ?_⟩)
    exact hserved ▸ hr
  · refine resolution?_eq_none.mpr fun wake hmem => ?_
    refine htallied.untold k w.ticket ?_ (List.mem_map.mpr ⟨_, hmem, rfl⟩)
    rw [hlock]
    exact List.mem_map_of_mem hw

/-- Hand-over by priority. After any calls, let the last holder of a key release its locks while
other transactions, each of them once and none of them a holder, wait for the key. If the first one
asks to write, it has the key, all up to the first one that is older than it are refused, and the
queue goes on from there. If the first one asks to read, the waiters are reached one after the
other: every reader is granted the key, and every writer is refused that is not older than all
readers before it, up to the first writer that is older than all readers reached. -/
theorem handed_over (run : Run Permitted timeout m) {first : Waiter} {rest : List Waiter}
    (hqueue : (m.lockOf k).queue = first :: rest)
    (hlive : ∀ w ∈ first :: rest, w.live)
    (hdistinct : ((first :: rest).map (·.holder.txn)).Nodup)
    (hneeds : ∀ w ∈ first :: rest, ¬ (m.lockOf k).holders.holds w.holder.txn .read)
    (hholds : (m.lockOf k).holders.holds t .read)
    (honly : ∀ u, (m.lockOf k).holders.holds u .read → u = t)
    (horder : order.Perm (m.keysOf t)) :
    let m' := m.releaseInOrder t order
    (first.mode = .write →
      let isOlder := fun w : Waiter => w.holder.timestamp.isBefore first.holder.timestamp
      m'.lockOf k = ⟨⟨some first.holder, []⟩, rest.dropWhile fun w => !isOlder w⟩ ∧
      m'.resolution? first.ticket = some .granted ∧
      (∀ w ∈ rest.takeWhile fun w => !isOlder w, m'.resolution? w.ticket = some .conflict) ∧
      ∀ w ∈ rest.dropWhile fun w => !isOlder w, m'.resolution? w.ticket = none) ∧
    (first.mode = .read → ∃ reached staying, first :: rest = reached ++ staying ∧
      m'.lockOf k = ⟨⟨none, KeyLock.readersOf reached⟩, staying⟩ ∧
      (∀ before w after, reached = before ++ w :: after →
        (w.mode = .read → m'.resolution? w.ticket = some .granted) ∧
        (w.mode = .write → m'.resolution? w.ticket = some .conflict ∧
          ∃ r ∈ KeyLock.readersOf before, ¬ w.holder.timestamp.isBefore r.timestamp)) ∧
      (∀ w behind, staying = w :: behind → w.mode = .write ∧
        ∀ r ∈ KeyLock.readersOf reached, w.holder.timestamp.isBefore r.timestamp) ∧
      ∀ w ∈ staying, m'.resolution? w.ticket = none) := by
  intro m'
  -- Whoever waits holds nothing, so nobody in the queue leaves with the last holder.
  have hothers : ∀ w ∈ (m.lockOf k).queue, w.holder.txn ≠ t := by
    rw [hqueue]
    rintro w hw rfl
    exact hneeds w hw hholds
  have hwaiters : ∀ w ∈ first :: rest, w.holder.txn ∉ m.releasedWith t ∧ w.live := fun w hw =>
    have hw' : w ∈ (m.lockOf k).queue := hqueue ▸ hw
    ⟨run.consistent.not_mem_releasedWith (.inr ⟨w, hw', rfl⟩) (hothers w hw'), hlive w hw⟩
  obtain ⟨hlock, htold, huntold⟩ := run.release_of_last horder hholds honly hothers
  rw [hqueue] at hlock htold huntold
  refine ⟨fun hmode => ?_, fun hmode => ?_⟩
  · intro isOlder
    have hserved := KeyLock.serveFrom_nobody_write hmode hwaiters hdistinct
    rw [hserved] at hlock htold huntold
    refine ⟨hlock, htold _ List.mem_cons_self, fun w hw => ?_, huntold⟩
    exact htold _ (List.mem_cons_of_mem _ (List.mem_map_of_mem hw))
  · obtain ⟨reached, staying, h⟩ := KeyLock.serveFrom_nobody_read hmode hwaiters hdistinct
    rw [h.lock] at hlock huntold
    rw [h.words] at htold
    refine ⟨reached, staying, h.queue, hlock, fun before w after heq => ?_, h.stays, huntold⟩
    have hreached : w ∈ reached := heq ▸ List.mem_append_right _ List.mem_cons_self
    have hword := htold _ (List.mem_map_of_mem hreached)
    refine ⟨fun hread => ?_, fun hwrite => ⟨?_, h.refused before w after heq hwrite⟩⟩
    · rw [KeyLock.wordAmongReaders, hread] at hword
      exact hword
    · rw [KeyLock.wordAmongReaders, hwrite] at hword
      exact hword

/-- For instance, 20 writes a key, and then 10 asks to read it, 15 and 12 to write it, 8 to read it
and 5 and 18 to write it. When 20 releases the key, 10 and 8 read it, 15 and 12 are refused, since
they are younger than 10, and 5 waits, with 18 behind it. -/
theorem handed_over_readers :
    let k : Key := ⟨⟨1⟩, .integer 1⟩
    let m : Manager :=
      [ .request .write ⟨⟨20⟩, ⟨20⟩⟩ k, .request .read ⟨⟨10⟩, ⟨10⟩⟩ k,
        .request .write ⟨⟨15⟩, ⟨15⟩⟩ k, .request .write ⟨⟨12⟩, ⟨12⟩⟩ k,
        .request .read ⟨⟨8⟩, ⟨8⟩⟩ k, .request .write ⟨⟨5⟩, ⟨5⟩⟩ k,
        .request .write ⟨⟨18⟩, ⟨18⟩⟩ k ].foldl perform (new none)
    let m' := m.releaseInOrder ⟨20⟩ [k]
    let fifth : Waiter := ⟨⟨⟨5⟩, ⟨5⟩⟩, .write, 5, true⟩
    let last : Waiter := ⟨⟨⟨18⟩, ⟨18⟩⟩, .write, 6, true⟩
    Reachable none m ∧ (m'.lockOf k).queue = [fifth, last] ∧
      ∃ reached, (m.lockOf k).queue = reached ++ [fifth, last] ∧
        (m'.lockOf k).holders = ⟨none, KeyLock.readersOf reached⟩ ∧
        ∀ r ∈ KeyLock.readersOf reached, fifth.holder.timestamp.isBefore r.timestamp := by
  intro k m m' fifth last
  have run : Reachable none m := Run.performAll .new
    ⟨⟨trivial, trivial⟩, ⟨trivial, trivial⟩, ⟨trivial, trivial⟩, ⟨trivial, trivial⟩,
      ⟨trivial, trivial⟩, ⟨trivial, trivial⟩, ⟨trivial, trivial⟩, trivial⟩
  have hholders : (m.lockOf k).holders = ⟨some ⟨⟨20⟩, ⟨20⟩⟩, []⟩ := by decide
  have hqueue : (m.lockOf k).queue =
      [⟨⟨⟨10⟩, ⟨10⟩⟩, .read, 1, true⟩, ⟨⟨⟨15⟩, ⟨15⟩⟩, .write, 2, true⟩,
        ⟨⟨⟨12⟩, ⟨12⟩⟩, .write, 3, true⟩, ⟨⟨⟨8⟩, ⟨8⟩⟩, .read, 4, true⟩, fifth, last] := by decide
  have hrest : (m'.lockOf k).queue = [fifth, last] := by decide
  have honly : ∀ u, (m.lockOf k).holders.holds u .read → u = ⟨20⟩ := by
    rw [hholders]
    simp [Holders.holds, Holders.writes, Holders.reads, eq_comm]
  have horder : [k].Perm (m.keysOf ⟨20⟩) := .of_eq (by decide)
  obtain ⟨-, hread⟩ := handed_over run hqueue (by decide) (by decide) (by decide)
    (by decide) honly horder
  obtain ⟨reached, staying, hsplit, hlock, -, hstays, -⟩ := hread rfl
  obtain rfl : staying = [fifth, last] := (congrArg KeyLock.queue hlock).symm.trans hrest
  exact ⟨run, hrest, reached, hqueue.trans hsplit, congrArg KeyLock.holders hlock,
    (hstays fifth [last] rfl).2⟩

end Manager

end TxStore.Lock
