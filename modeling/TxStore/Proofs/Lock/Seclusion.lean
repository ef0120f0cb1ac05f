import TxStore.Proofs.Lock.Absence

/-!
# Keys that nobody else asks for

Whatever is done with the locks, only the transaction that asks for a key is newly involved with it
(`Consistent.involves_acquire`), and where nobody waits for a key nobody does unless it is asked for
(`Consistent.queue_acquire_of_ne`). A request by the only transaction that is involved with a key is
granted at once, whatever the timeout is (`acquire_of_sole`): it neither waits nor is refused.
-/

namespace TxStore.Lock

variable {me : Holder} {mode : Mode} {now : Duration}

/-- A request is granted where nobody but its own transaction holds the key. -/
theorem Holders.judge_of_sole {s : Holders} {released : List TransactionId}
    (hsole : ∀ t, s.holds t .read → t = me.txn) : s.judge released me mode = .grant := by
  cases hjudge : s.judge released me mode with
  | grant => rfl
  | wait =>
    obtain ⟨b, hopposes, hne, -⟩ := opposed_of_wait hjudge
    have hholds : s.holds b.txn .read :=
      holds_read_iff_excludes.mpr (excludes_iff.mpr ⟨b, hopposes.write, rfl⟩)
    exact absurd (hsole b.txn hholds) hne
  | conflict =>
    -- Some blocker is there, and it is not the requester, who would hold the key already.
    unfold Holders.judge at hjudge
    split at hjudge
    · cases hjudge
    · rename_i hfree
      split at hjudge
      · cases hjudge
      · rename_i blockers hblockers
        obtain ⟨b, hb⟩ := List.exists_mem_of_ne_nil _ hblockers
        obtain ⟨hopposes, hwriter⟩ := opposes_of_mem_blockers hb
        have hholds : s.holds b.txn .read :=
          holds_read_iff_excludes.mpr (excludes_iff.mpr ⟨b, hopposes.write, rfl⟩)
        have hsame : b.txn = me.txn := hsole b.txn hholds
        have hwrites : s.writes me.txn :=
          writes_iff.mpr ⟨b, hwriter.resolve_right fun hne => hne hsame, hsame⟩
        refine absurd ?_ hfree
        unfold Holders.holds
        rw [hwrites]
        rfl

namespace Manager

variable {m m' : Manager} {k j : Key} {t : TransactionId}

/-- A request for another key does not touch it. -/
theorem lockOf_request_of_ne (hne : j ≠ k) (mode : Mode) (me : Holder) :
    (m.request mode me j).1.lockOf k = m.lockOf k := by
  have hupdate : ∀ change : KeyLock × List Resolution,
      ((m.record me.txn j mode).update j change).lockOf k = m.lockOf k := fun change =>
    (lockOf_update ..).trans (if_neg hne)
  rcases m.request_cases mode me j with ⟨-, heq⟩ | ⟨-, ⟨-, heq⟩ | ⟨-, heq⟩ | ⟨-, heq⟩⟩
  · rw [heq]
  · rw [heq]
    exact hupdate _
  · rw [heq]
    exact hupdate _
  · rw [heq]
    exact hupdate _

/-- Only the requester is newly involved with a key that is requested. -/
theorem involves_request (hinvolves : ((m.request mode me k).1.lockOf k).Involves t) :
    (m.lockOf k).Involves t ∨ t = me.txn := by
  have hupdate : ∀ lock : KeyLock,
      ((m.record me.txn k mode).update k (lock, [])).lockOf k = lock := fun lock =>
    (lockOf_update ..).trans (if_pos rfl)
  rcases m.request_cases mode me k with ⟨-, heq⟩ | ⟨-, ⟨-, heq⟩ | ⟨-, heq⟩ | ⟨-, heq⟩⟩
  · rw [heq] at hinvolves
    exact .inl hinvolves
  · rw [heq, hupdate] at hinvolves
    rcases hinvolves with hholds | hwaits
    · exact (Holders.holds_of_holds_enter hholds).imp .inl id
    · exact .inl (.inr hwaits)
  · rw [heq, hupdate] at hinvolves
    exact .inl hinvolves
  · rw [heq] at hinvolves
    have hinvolves : (((m.record me.txn k mode).update k ((m.lockOf k).append
        ⟨me, mode, m.nextTicket, true⟩, [])).lockOf k).Involves t := hinvolves
    rw [hupdate] at hinvolves
    rcases hinvolves with hholds | ⟨w, hw, rfl⟩
    · exact .inl (.inl hholds)
    · rcases List.mem_append.mp hw with hw | hw
      · exact .inl (.inr ⟨w, hw, rfl⟩)
      · exact .inr (by rw [List.mem_singleton.mp hw])

/-! ## Who is involved -/

/-- A caller that looks for an answer involves nobody. -/
theorem Consistent.involves_poll (h : m.Consistent) {w : Waiting}
    (hinvolves : ((m.poll now w).1.lockOf k).Involves t) : (m.lockOf k).Involves t := by
  unfold Manager.poll at hinvolves
  split at hinvolves
  · exact hinvolves
  · split at hinvolves
    · exact (h.evolves_expire w.key w.ticket).involves k t hinvolves
    · exact hinvolves

/-- Asking for a key involves the requester, and with no other key. -/
theorem Consistent.involves_acquire (h : m.Consistent)
    (hinvolves : ((m.acquire now mode me j).1.lockOf k).Involves t) :
    (m.lockOf k).Involves t ∨ j = k ∧ t = me.txn := by
  have hrequest : ((m.request mode me j).1.lockOf k).Involves t := by
    rcases m.acquire_fst now mode me j with heq | ⟨w, heq⟩
    · rwa [heq] at hinvolves
    · rw [heq] at hinvolves
      exact (h.request mode me j).involves_poll hinvolves
  by_cases hkey : j = k
  · subst hkey
    exact (involves_request hrequest).imp id fun hme => ⟨rfl, hme⟩
  · rw [lockOf_request_of_ne hkey] at hrequest
    exact .inl hrequest

/-- A release involves nobody. -/
theorem Consistent.involves_release (h : m.Consistent) {u : TransactionId}
    (hinvolves : ((m.release u).lockOf k).Involves t) : (m.lockOf k).Involves t :=
  (h.evolves_release (List.Perm.refl (m.keysOf u))).involves k t hinvolves

/-! ## Keys that nobody waits for -/

/-- Calls that serve queues let nobody wait. -/
theorem Evolves.queue_eq_nil (h : m.Evolves m') (hfree : (m.lockOf k).queue = []) :
    (m'.lockOf k).queue = [] :=
  List.sublist_nil.mp (hfree ▸ h.queue k)

/-- Nor does a caller that looks for an answer. -/
theorem Consistent.queue_poll (h : m.Consistent) (hfree : (m.lockOf k).queue = [])
    (now : Duration) (w : Waiting) : ((m.poll now w).1.lockOf k).queue = [] := by
  unfold Manager.poll
  split
  · exact hfree
  · split
    · exact (h.evolves_expire w.key w.ticket).queue_eq_nil hfree
    · exact hfree

/-- Nor does a release. -/
theorem Consistent.queue_release (h : m.Consistent) (hfree : (m.lockOf k).queue = [])
    (u : TransactionId) : ((m.release u).lockOf k).queue = [] :=
  (h.evolves_release (List.Perm.refl (m.keysOf u))).queue_eq_nil hfree

/-- Nor does asking for another key. -/
theorem Consistent.queue_acquire_of_ne (h : m.Consistent) (hfree : (m.lockOf k).queue = [])
    (hne : j ≠ k) : ((m.acquire now mode me j).1.lockOf k).queue = [] := by
  have hrequest : ((m.request mode me j).1.lockOf k).queue = [] := by
    rw [lockOf_request_of_ne hne]
    exact hfree
  rcases m.acquire_fst now mode me j with heq | ⟨w, heq⟩
  · rw [heq]
    exact hrequest
  · rw [heq]
    exact (h.request mode me j).queue_poll hrequest now w

/-- A transaction that has released its locks is turned away, and nothing happens. -/
theorem acquire_of_released (hreleased : me.txn ∈ m.released) :
    m.acquire now mode me k = (m, .answered (.error .released)) := by
  rcases m.request_cases mode me k with ⟨-, heq⟩ | ⟨hfree, -⟩
  · unfold acquire
    rw [heq]
  · exact absurd hreleased hfree

/-- Any other is granted a key at once with which nobody else is involved. -/
theorem acquire_of_sole (hfree : me.txn ∉ m.released)
    (hsole : ∀ t, (m.lockOf k).Involves t → t = me.txn) :
    m.acquire now mode me k = ((m.record me.txn k mode).update k
      (⟨(m.lockOf k).holders.enter me mode, (m.lockOf k).queue⟩, []), .answered (.ok ())) := by
  have hjudge : (m.lockOf k).holders.judge m.released me mode = .grant :=
    Holders.judge_of_sole fun t ht => hsole t (.inl ht)
  rcases m.request_cases mode me k with
    ⟨hreleased, -⟩ | ⟨-, ⟨-, heq⟩ | ⟨hconflict, -⟩ | ⟨hwait, -⟩⟩
  · exact absurd hreleased hfree
  · unfold acquire
    rw [heq]
  · cases hjudge.symm.trans hconflict
  · cases hjudge.symm.trans hwait

/-- So nobody waits for a key for which only the transaction asks that is involved with it. -/
theorem queue_acquire_of_sole (hfree : (m.lockOf k).queue = [])
    (hsole : ∀ t, (m.lockOf k).Involves t → t = me.txn) :
    ((m.acquire now mode me k).1.lockOf k).queue = [] := by
  by_cases hreleased : me.txn ∈ m.released
  · rw [acquire_of_released hreleased]
    exact hfree
  · rw [acquire_of_sole hreleased hsole, lockOf_update, if_pos rfl]
    exact hfree

end Manager

end TxStore.Lock
