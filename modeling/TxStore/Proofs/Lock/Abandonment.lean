import TxStore.Proofs.Lock.HandOver
import TxStore.Proofs.Lock.Order

/-!
# Requests whose callers have gone

A request stays in its queue when its caller goes away. Serving the queue judges it like any other;
if it is granted it is entered as a holder, and only when its caller is told does it turn out that
nobody listens, and the grant is taken back. `Holders.takeBack_enter` says that this leaves the
holders of before, whatever the requester held by then. So the holders after a queue has been served
are those that were there, and the requests that were granted to callers who listen, each entered in
its mode (`serveFrom_holders`); and whoever has gone could as well not have been in the queue
(`serveFrom_unheeded`). `served_to_listeners` says so for every queue that a release or a deadline
sets going.
-/

namespace TxStore.Lock

variable {s : Holders} {released : List TransactionId} {q rest : List Waiter} {w : Waiter}
  {words : List Resolution} {r : Resolution} {wake : Wake}

/-- The holders once several waiters have been entered, one after the other and each in its mode. -/
def Holders.enterAll (s : Holders) (entered : List Waiter) : Holders :=
  entered.foldl (fun s w => s.enter w.holder w.mode) s

/-- Those of the waiters that are told that they have been granted the key. -/
def granted (q : List Waiter) (words : List Resolution) : List Waiter :=
  q.filter fun w => (w.ticket, .granted) ∈ words

namespace KeyLock

/-- A word to a caller that has gone says just that. -/
theorem resolution_of_gone (hgone : ¬ w.live) :
    w.resolution wake = (w.ticket, .abandoned) := by
  unfold Waiter.resolution
  rw [if_neg hgone]

/-- What serving does with the head of a queue: it keeps waiting, and nothing is done; or it leaves
with a word, and those behind it are served with it as a holder, if the word is a grant that reaches
its caller, and else with the holders of before. -/
theorem serveFrom_head (hs : s.Exclusive) (hr : s.Unreleased released) (w : Waiter) :
    (∀ rest, serveFrom released s (w :: rest) = (⟨s, w :: rest⟩, [])) ∨
    ∃ s' wake, s'.Exclusive ∧ s'.Unreleased released ∧
      s' = (if w.resolution wake = (w.ticket, .granted) then s.enter w.holder w.mode else s) ∧
      (¬ w.live → s' = s) ∧
      ∀ rest, serveFrom released s (w :: rest) =
        ((serveFrom released s' rest).1, w.resolution wake :: (serveFrom released s' rest).2) := by
  -- A word other than a grant makes nobody a holder, whether it reaches its caller or not.
  have hskip : ∀ wake, wake ≠ .granted → w.resolution wake ≠ (w.ticket, .granted) := by
    intro wake hwake heq
    unfold Waiter.resolution at heq
    split at heq
    · exact hwake (congrArg Prod.snd heq)
    · cases heq
  by_cases hw : w.holder.txn ∈ released
  · refine .inr ⟨s, .released, hs, hr, (if_neg (hskip .released (by decide))).symm,
      fun _ => rfl, fun rest => ?_⟩
    rw [serveFrom, if_pos hw]
  · cases hjudge : s.judge released w.holder w.mode with
    | wait =>
      refine .inl fun rest => ?_
      rw [serveFrom, if_neg hw, hjudge]
    | conflict =>
      refine .inr ⟨s, .conflict, hs, hr, (if_neg (hskip .conflict (by decide))).symm,
        fun _ => rfl, fun rest => ?_⟩
      rw [serveFrom, if_neg hw, hjudge]
    | grant =>
      have hserve : ∀ rest, serveFrom released s (w :: rest) =
          ((serveFrom released (if w.live then s.enter w.holder w.mode else s) rest).1,
            w.resolution .granted ::
              (serveFrom released (if w.live then s.enter w.holder w.mode else s) rest).2) := by
        intro rest
        rw [serveFrom, if_neg hw, hjudge]
        dsimp only
        rw [granted_holders hr hjudge]
      -- A grant that does not reach its caller is taken back at once.
      by_cases hlive : w.live
      · simp only [hlive, if_true] at hserve
        refine .inr ⟨s.enter w.holder w.mode, .granted, hs.enter hr hjudge,
          unreleased_enter hr hw, (if_pos (resolution_of_live hlive .granted)).symm,
          fun hgone => absurd hlive hgone, hserve⟩
      · simp only [hlive, Bool.false_eq_true, if_false] at hserve
        refine .inr ⟨s, .granted, hs, hr, (if_neg ?_).symm, fun _ => rfl, hserve⟩
        rw [resolution_of_gone hlive]
        intro heq
        cases heq

/-- Serving tells waiters only. -/
theorem ticket_mem_of_serveFrom (h : r ∈ (serveFrom released s q).2) :
    r.1 ∈ q.map Waiter.ticket := by
  rw [← serveFrom_tickets released s q]
  exact List.mem_append_left _ (List.mem_map_of_mem h)

/-- Who is granted the key among a waiter that has been told something and those behind it: the
waiter, if it is told that, and those behind it that are. -/
theorem granted_cons (hnodup : ((w :: rest).map Waiter.ticket).Nodup)
    (hwords : ∀ r ∈ words, r.1 ∈ rest.map Waiter.ticket) :
    granted (w :: rest) (w.resolution wake :: words) =
      (if w.resolution wake = (w.ticket, .granted) then [w] else []) ++ granted rest words := by
  obtain ⟨hnew, -⟩ := List.nodup_cons.mp hnodup
  have hhead : (w.ticket, Wake.granted) ∈ w.resolution wake :: words ↔
      w.resolution wake = (w.ticket, .granted) := by
    rw [List.mem_cons, eq_comm]
    exact or_iff_left fun hmem => hnew (hwords _ hmem)
  have hbehind : granted rest (w.resolution wake :: words) = granted rest words := by
    refine List.filter_congr fun v hv => ?_
    have hne : v.ticket ≠ w.ticket := fun heq => hnew (heq ▸ List.mem_map_of_mem hv)
    simp [Waiter.resolution, hne]
  rw [← hbehind]
  by_cases htold : w.resolution wake = (w.ticket, .granted)
  · rw [if_pos htold]
    exact List.filter_cons_of_pos (decide_eq_true (hhead.mpr htold))
  · rw [if_neg htold]
    exact List.filter_cons_of_neg (by simpa using fun h => htold (hhead.mp h))

/-- After a queue has been served, the holders are those of before and the waiters that were told
that they have been granted the key. -/
theorem serveFrom_holders (hs : s.Exclusive) (hr : s.Unreleased released)
    (hnodup : (q.map Waiter.ticket).Nodup) :
    (serveFrom released s q).1.holders =
      s.enterAll (granted q (serveFrom released s q).2) := by
  induction q generalizing s with
  | nil => rfl
  | cons w rest ih =>
    rcases serveFrom_head hs hr w with hwait | ⟨s', wake, hs', hr', heq, -, hleaves⟩
    · rw [hwait]
      have hnone : granted (w :: rest) [] = [] :=
        List.filter_eq_nil_iff.mpr fun v _ => by simp
      exact (congrArg s.enterAll hnone).symm
    · rw [hleaves, ih hs' hr' (List.nodup_cons.mp hnodup).2,
        granted_cons hnodup fun r hr => ticket_mem_of_serveFrom hr, heq]
      split
      · rfl
      · rfl

/-- Every word that is said while a queue is served is one to a waiter. -/
theorem exists_of_serveFrom (hs : s.Exclusive) (hr : s.Unreleased released)
    (h : r ∈ (serveFrom released s q).2) : ∃ w ∈ q, ∃ wake, r = w.resolution wake := by
  induction q generalizing s with
  | nil => cases h
  | cons w rest ih =>
    rcases serveFrom_head hs hr w with hwait | ⟨s', wake, hs', hr', -, -, hleaves⟩
    · rw [hwait] at h
      cases h
    · rw [hleaves] at h
      rcases List.mem_cons.mp h with rfl | h
      · exact ⟨w, List.mem_cons_self, wake, rfl⟩
      · obtain ⟨v, hv, hword⟩ := ih hs' hr' h
        exact ⟨v, List.mem_cons_of_mem _ hv, hword⟩

/-- A waiter that is told that it has been granted the key has a caller who listens. -/
theorem live_of_granted (hs : s.Exclusive) (hr : s.Unreleased released)
    (hnodup : (q.map Waiter.ticket).Nodup) (hw : w ∈ q)
    (htold : (w.ticket, .granted) ∈ (serveFrom released s q).2) : w.live := by
  obtain ⟨v, hv, wake, hword⟩ := exists_of_serveFrom hs hr htold
  have hticket : w.ticket = v.ticket := congrArg Prod.fst hword
  obtain rfl : w = v := List.inj_on_of_nodup_map hnodup hw hv hticket
  refine Decidable.byContradiction fun hgone => ?_
  rw [resolution_of_gone hgone] at hword
  cases hword

/-- Those of the waiters that are reached and whose callers have gone are told just that, and had
they not been in the queue, the key would be left the same, and everybody else would be told the
same. -/
theorem serveFrom_unheeded (hs : s.Exclusive) (hr : s.Unreleased released) (q : List Waiter) :
    ∃ reached staying, q = reached ++ staying ∧ (serveFrom released s q).1.queue = staying ∧
      (∀ w ∈ reached, ¬ w.live → (w.ticket, .abandoned) ∈ (serveFrom released s q).2) ∧
      (serveFrom released s (reached.filter (·.live) ++ staying)).1 =
        (serveFrom released s q).1 ∧
      (serveFrom released s (reached.filter (·.live) ++ staying)).2 ⊆
        (serveFrom released s q).2 := by
  induction q generalizing s with
  | nil => exact ⟨[], [], rfl, rfl, nofun, rfl, List.Subset.refl _⟩
  | cons w rest ih =>
    rcases serveFrom_head hs hr w with hwait | ⟨s', wake, hs', hr', -, hgone, hleaves⟩
    · exact ⟨[], w :: rest, rfl, by rw [hwait], nofun, rfl, List.Subset.refl _⟩
    · obtain ⟨reached, staying, hsplit, hqueue, htold, hlock, hwords⟩ := ih hs' hr'
      refine ⟨w :: reached, staying, by rw [hsplit, List.cons_append], by rw [hleaves, hqueue],
        fun v hv hdead => ?_, ?_, ?_⟩
      · rw [hleaves]
        rcases List.mem_cons.mp hv with rfl | hv
        · exact resolution_of_gone hdead ▸ List.mem_cons_self
        · exact List.mem_cons_of_mem _ (htold v hv hdead)
      -- Behind a request whose caller has gone the queue is served from the same holders.
      · by_cases hlive : w.live
        · rw [List.filter_cons_of_pos hlive, List.cons_append, hleaves, hleaves]
          exact hlock
        · rw [List.filter_cons_of_neg hlive, hleaves, ← hgone hlive]
          exact hlock
      · by_cases hlive : w.live
        · rw [List.filter_cons_of_pos hlive, List.cons_append, hleaves, hleaves]
          exact List.cons_subset_cons _ hwords
        · rw [List.filter_cons_of_neg hlive, hleaves, ← hgone hlive]
          exact List.Subset.trans hwords (List.subset_cons_self ..)

end KeyLock

namespace Manager

variable {m m' : Manager} {k : Key} {t : TransactionId} {l : KeyLock} {order : List Key}
  {ticket : Ticket}

/-- What serving the queue of `k` makes of the lock `l` and leaves in `m'`, as far as the callers of
its requests listen or have gone. -/
structure ServesListeners (l : KeyLock) (released : List TransactionId) (m' : Manager) (k : Key) :
    Prop where
  /-- Only callers who listen are granted the key. -/
  live : ∀ w ∈ l.queue, m'.resolution? w.ticket = some .granted → w.live
  /-- The holders are those that there were, and the requests that were granted, entered in the order
  of the queue and each in its mode. -/
  holders : (m'.lockOf k).holders =
    l.holders.enterAll (l.queue.filter fun w => m'.resolution? w.ticket = some .granted)
  /-- Whoever has the key had it, or made one of the requests that were granted; and nobody loses
  it. -/
  holds_iff : ∀ u mode, (m'.lockOf k).holders.holds u mode ↔ l.holders.holds u mode ∨
    ∃ w ∈ l.queue, w.live ∧ w.holder.txn = u ∧ w.mode.Covers mode ∧
      m'.resolution? w.ticket = some .granted
  /-- The requests that were reached and whose callers have gone are over, and without them the
  holders, the queue and the words to all others would have been the same. -/
  unheeded : ∃ reached staying, l.queue = reached ++ staying ∧ (m'.lockOf k).queue = staying ∧
    (∀ w ∈ reached, ¬ w.live → m'.resolution? w.ticket = some .abandoned) ∧
    let without := KeyLock.serveFrom released l.holders (reached.filter (·.live) ++ staying)
    without.1 = m'.lockOf k ∧ ∀ r ∈ without.2, m'.resolution? r.1 = some r.2

/-- A waiter finds that it has been granted the key exactly if that was said to it while its queue
was served. -/
theorem Tallied.resolution?_eq_granted (h : m'.Tallied) {w : Waiter}
    (hlock : m'.lockOf k = (l.serve released).1) (hwords : (l.serve released).2 ⊆ m'.resolved)
    (hw : w ∈ l.queue) :
    m'.resolution? w.ticket = some .granted ↔ (w.ticket, .granted) ∈ (l.serve released).2 := by
  refine ⟨fun hfound => ?_, fun hmem => h.resolution?_eq (hwords hmem)⟩
  obtain ⟨before, after, hresolved, -⟩ := List.lookup_eq_some_iff.mp hfound
  have htold : (w.ticket, Wake.granted) ∈ m'.resolved := hresolved ▸ by simp
  -- It has left the queue, so it was told something when the queue was served.
  have htickets : w.ticket ∈ (l.serve released).2.map Prod.fst ++ (l.serve released).1.tickets := by
    rw [KeyLock.serve, KeyLock.serveFrom_tickets]
    exact List.mem_map_of_mem hw
  rcases List.mem_append.mp htickets with hmem | hmem
  · obtain ⟨r, hr, hticket⟩ := List.mem_map.mp hmem
    have hsame : r = (w.ticket, .granted) :=
      List.inj_on_of_nodup_map h.once (hwords hr) htold hticket
    exact hsame ▸ hr
  · rw [← hlock] at hmem
    exact absurd (List.mem_map_of_mem htold) (h.untold k w.ticket hmem)

/-- Serving a sound lock's queue serves those who listen. -/
theorem Tallied.servesListeners (h : m'.Tallied) (hs : l.Sound released) (hnodup : l.tickets.Nodup)
    (hlock : m'.lockOf k = (l.serve released).1) (hwords : (l.serve released).2 ⊆ m'.resolved) :
    ServesListeners l released m' k := by
  have hgranted : ∀ w ∈ l.queue, m'.resolution? w.ticket = some .granted ↔
      (w.ticket, .granted) ∈ (l.serve released).2 := fun w hw =>
    h.resolution?_eq_granted hlock hwords hw
  refine ⟨fun w hw hfound => ?_, ?_, fun u mode => ⟨fun hholds => ?_, ?_⟩, ?_⟩
  · exact KeyLock.live_of_granted hs.exclusive hs.unreleased hnodup hw ((hgranted w hw).mp hfound)
  · rw [hlock, KeyLock.serve, KeyLock.serveFrom_holders hs.exclusive hs.unreleased hnodup]
    refine congrArg l.holders.enterAll (List.filter_congr fun w hw => ?_)
    exact decide_eq_decide.mpr (hgranted w hw).symm
  · rw [hlock] at hholds
    refine (KeyLock.wins_of_holds_serveFrom hs hholds).imp id ?_
    rintro ⟨w, hw, htxn, hcovers, htold⟩
    exact ⟨w, hw, KeyLock.live_of_granted hs.exclusive hs.unreleased hnodup hw htold, htxn, hcovers,
      (hgranted w hw).mpr htold⟩
  · rw [hlock]
    rintro (hholds | ⟨w, hw, -, rfl, hcovers, hfound⟩)
    · have hfree := hs.unreleased u (Holders.holds_of_covers hholds (.inr rfl))
      exact KeyLock.holds_serveFrom hs hfree hholds
    · obtain ⟨v, hv, hticket, htrue⟩ :=
        KeyLock.serveFrom_resolved hs ((hgranted w hw).mp hfound)
      obtain rfl : w = v := List.inj_on_of_nodup_map hnodup hw hv hticket
      exact Holders.holds_of_covers htrue hcovers
  · obtain ⟨reached, staying, hsplit, hqueue, htold, hsame, hsaid⟩ :=
      KeyLock.serveFrom_unheeded hs.exclusive hs.unreleased l.queue
    refine ⟨reached, staying, hsplit, by rw [hlock, KeyLock.serve, hqueue], fun w hw hgone => ?_,
      hsame.trans hlock.symm, fun r hr => ?_⟩
    · exact h.resolution?_eq (hwords (htold w hw hgone))
    · exact h.resolution?_eq (hwords (hsaid hr))

/-- Callers who have gone get nothing. After any calls, whatever is held and whoever has gone: when a
transaction releases its locks, the queue of each key that it has asked for is served, starting from
the holders that remain, and when a deadline passes, the queue of its key. Each time the holders
afterwards are those that there were and the requests that were granted to callers who listen; the
requests of callers who have gone add no holder and take the key from nobody, and everything would
have gone the same way without them. -/
theorem served_to_listeners {timeout : Option Duration} (run : Reachable timeout m) :
    (∀ t order, m.Accepts (.release t order) → ∀ k ∈ m.keysOf t,
      ServesListeners ((m.lockOf k).without t) (m.releasedWith t) (m.releaseInOrder t order) k) ∧
    ∀ k ticket, (m.lockOf k).isQueued ticket →
      ServesListeners
        { m.lockOf k with queue := (m.lockOf k).queue.filter fun w => w.ticket ≠ ticket }
        m.released (m.expire k ticket) k := by
  have hconsistent : m.Consistent := run.consistent
  have htallied : m.Tallied := run.tallied
  refine ⟨fun t order horder k hk => ?_, fun k ticket hqueued => ?_⟩
  · refine (htallied.release t order).servesListeners
      (KeyLock.sound_without (hconsistent.exclusive k)
        fun _ hu hne => hconsistent.not_mem_releasedWith hu hne)
      ((htallied.nodup k).sublist (List.filter_sublist.map _)) ?_ ?_
    · rw [lockOf_release horder, if_pos hk]
      rfl
    · rw [resolved_release horder]
      intro r hr
      refine List.mem_append_right _ (List.mem_flatMap.mpr ⟨k, horder.mem_iff.mpr hk, ?_⟩)
      exact List.mem_append_right _ hr
  · have hsound := hconsistent.sound k
    refine (htallied.expire k ticket).servesListeners ⟨hsound.exclusive, hsound.unreleased⟩
      ((htallied.nodup k).sublist (List.filter_sublist.map _)) ?_ ?_
    · rw [lockOf_expire, if_pos rfl, KeyLock.expire, if_pos hqueued]
    · rw [resolved_expire, KeyLock.expire, if_pos hqueued]
      intro r hr
      exact List.mem_append_right _ (List.mem_cons_of_mem _ hr)

/-- For instance, 20 writes a key; 10 asks to read it and then to write it, 12 to write it and 5 to
read it, and the callers of the two requests to write go away. When 20 releases the key, 10 and 5
read it. The second request of 10 would have been granted as well, and 10 still reads; that of 12
would have been refused. -/
theorem served_to_listeners_upgrade :
    let k : Key := ⟨⟨1⟩, .integer 1⟩
    let m : Manager :=
      [ .request .write ⟨⟨20⟩, ⟨20⟩⟩ k, .request .read ⟨⟨10⟩, ⟨10⟩⟩ k,
        .request .write ⟨⟨10⟩, ⟨10⟩⟩ k, .request .write ⟨⟨12⟩, ⟨12⟩⟩ k,
        .request .read ⟨⟨5⟩, ⟨5⟩⟩ k, .abandon k 2, .abandon k 3 ].foldl perform (new none)
    let m' := m.releaseInOrder ⟨20⟩ [k]
    Reachable none m ∧ m.Accepts (.release ⟨20⟩ [k]) ∧
      m'.lockOf k = ⟨⟨none, [⟨⟨10⟩, ⟨10⟩⟩, ⟨⟨5⟩, ⟨5⟩⟩]⟩, []⟩ ∧
      m'.resolution? 2 = some .abandoned ∧ m'.resolution? 3 = some .abandoned ∧
      ServesListeners ((m.lockOf k).without ⟨20⟩) (m.releasedWith ⟨20⟩) m' k := by
  intro k m m'
  have run : Reachable none m := Run.performAll .new
    ⟨⟨trivial, trivial⟩, ⟨trivial, trivial⟩, ⟨trivial, trivial⟩, ⟨trivial, trivial⟩,
      ⟨trivial, trivial⟩, ⟨trivial, trivial⟩, ⟨trivial, trivial⟩, trivial⟩
  have horder : m.Accepts (.release ⟨20⟩ [k]) := .of_eq (by decide)
  exact ⟨run, horder, by decide, by decide, by decide,
    (served_to_listeners run).1 ⟨20⟩ [k] horder k (by decide)⟩

end Manager

end TxStore.Lock
