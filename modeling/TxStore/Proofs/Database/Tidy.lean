import TxStore.Proofs.Database.Fates
import TxStore.Proofs.Lock.Absence

/-!
# Finished transactions leave nothing behind

What the locks and the connections know of a transaction fits its phase (`Neat`). As long as the
transaction is active its connection is attached to it. From the moment in which it begins to abort
it is marked as released, so that the mark may be forgotten when its operations are out. And when
it is over the locks do not know it and no connection is attached to it. The last part is what a
caller relies on (`Traceless`); the others carry it through the turns that finish a transaction,
each of which clears the locks and the attachment in an order of its own.

Bare requests for locks go around all of this: nothing keeps a client from asking for a lock in the
name of a transaction that is over. The runs of this module are those of clients who do not.
-/

namespace TxStore

/-- Whether an action asks for a lock without a connection. -/
def Action.isBare {σ : Type} : Action σ → Bool
  | .requestLock _ _ _ => true
  | .connect | .createTable _ | .dropTable _ | .beginTransaction _ | .submit _ _ | .resume _
  | .reach _ => false

/-- The phase of a transaction that is being finished in this way. -/
def Purpose.phase : Purpose → Phase
  | .commit => .committing
  | .discard _ => .aborting

namespace Database

variable {σ : Type} {db mid db' : Database σ} {i : TaskId} {op : Operation} {me : Lock.Holder}
  {t u : TransactionId} {txn txn' : Transaction} {stand stand' : Stand} {c : ConnectionId}
  {purpose : Purpose} {result : Result}

/-- The actions of clients who get their locks through their connections. -/
def Coordinated (_ : Database σ) (action : Action σ) : Prop :=
  action.isBare = false

/-- It can be found out from the action. -/
instance (db : Database σ) (action : Action σ) : Decidable (db.Coordinated action) :=
  inferInstanceAs (Decidable (action.isBare = false))

/-- Whether a transaction was started on a connection. -/
def Belongs (db : Database σ) (t : TransactionId) (c : ConnectionId) : Prop :=
  ∃ txn, db.directory.find? t = some txn ∧ txn.connection = c

/-- Whether what the locks and the connections know of a transaction fits its phase. -/
structure Neat (db : Database σ) (t : TransactionId) (txn : Transaction) : Prop where
  /-- The connection of an active transaction is attached to it. -/
  active : txn.phase = .active → db.attached.get? txn.connection = some t
  /-- A transaction that is being aborted has released its locks. -/
  aborting : txn.phase = .aborting → t ∈ db.locks.released
  /-- The locks do not know a transaction that is over, and no connection is attached to it. -/
  ready : txn.phase = .ready → db.locks.Absent t ∧ ∀ c, db.attached.get? c ≠ some t

/-- Every transaction is known only where its phase has it. -/
structure Tidy (db : Database σ) : Prop where
  /-- The locks are consistent. -/
  consistent : db.locks.Consistent
  /-- The two records of a connection's transaction are the same. -/
  agreed : ∀ c, db.attached.get? c = db.directory.current.get? c
  /-- A connection is attached only to a transaction that was started on it. -/
  home : ∀ c t, db.attached.get? c = some t → db.Belongs t c
  /-- An operation belongs to a transaction of its connection. -/
  placed : ∀ i op me, db.Runs i op me → db.Belongs me.txn op.connection
  /-- There are no bare requests. -/
  coordinated : ∀ (i : TaskId) (r : Lock.Request), db.tasks[i]? ≠ some (.request r)
  /-- Every transaction is neat. -/
  neat : ∀ t txn, db.directory.find? t = some txn → db.Neat t txn

/-- Whether nothing is left of a transaction but what the directory and the commits record. -/
structure Traceless (db : Database σ) (t : TransactionId) : Prop where
  /-- It writes no key. -/
  writes : ∀ k, (db.locks.lockOf k).holders.writes t = false
  /-- It reads no key. -/
  reads : ∀ k, (db.locks.lockOf k).holders.reads t = false
  /-- It waits for no key. -/
  waits : ∀ k, ∀ w ∈ (db.locks.lockOf k).queue, w.holder.txn ≠ t
  /-- No keys are recorded for it. -/
  held : db.locks.held.get? t = none ∧ db.locks.keyCount t = 0
  /-- It is not marked as released. -/
  released : t ∉ db.locks.released
  /-- No connection is attached to it. -/
  attached : ∀ c, db.attached.get? c ≠ some t
  /-- It is not the present one of any connection. -/
  current : ∀ c, db.directory.current.get? c ≠ some t

/-- Whether a transaction is over. -/
def Retired (db : Database σ) (t : TransactionId) : Prop :=
  ∃ txn, db.directory.find? t = some txn ∧ txn.phase = .ready

/-- The release of a transaction may be forgotten before or after it is replaced. -/
theorem replace_forgetLocks (db : Database σ) (c : ConnectionId) (t u : TransactionId) :
    ((db.forgetLocks u).replace c t).1 = (db.replace c t).1.forgetLocks u := by
  unfold Database.replace Database.forgetLocks
  dsimp only
  split
  · split
    · rfl
    · split
      · rfl
      · rfl
  · rfl

/-- Replacing a transaction does nothing to the locks. -/
theorem locks_replace (db : Database σ) (c : ConnectionId) (t : TransactionId) :
    (db.replace c t).1.locks = db.locks := by
  unfold Database.replace
  split
  · split
    · rfl
    · dsimp only
      split <;> rfl
  · rfl

namespace Tidy

/-- A transaction that is over has left no trace. -/
theorem traceless (h : db.Tidy) (hretired : db.Retired t) : db.Traceless t := by
  obtain ⟨txn, hfound, hready⟩ := hretired
  obtain ⟨habsent, hdetached⟩ := (h.neat t txn hfound).ready hready
  have hfree : ∀ k mode, (db.locks.lockOf k).holders.holds t mode ≠ true := by
    intro k mode hholds
    refine habsent.uninvolved k (.inl ?_)
    cases mode with
    | read => exact hholds
    | write => exact Lock.Holders.holds_read_iff.mpr (.inl (Lock.Holders.holds_write_iff.mp hholds))
  refine ⟨fun k => ?_, fun k => ?_, fun k w hw heq => habsent.uninvolved k (.inr ⟨w, hw, heq⟩),
    ⟨habsent.unrecorded, habsent.keyCount⟩, habsent.unreleased, hdetached, fun c hcurrent => ?_⟩
  · exact Bool.eq_false_iff.mpr fun hwrites =>
      hfree k .write (Lock.Holders.holds_write_iff.mpr hwrites)
  · exact Bool.eq_false_iff.mpr fun hreads =>
      hfree k .read (Lock.Holders.holds_read_iff.mpr (.inr hreads))
  · exact hdetached c ((h.agreed c).trans hcurrent)

/-- The operations of a transaction are on one connection. -/
theorem same_connection {j : TaskId} {op' : Operation} {me' : Lock.Holder} (h : db.Tidy)
    (hruns : db.Runs i op me) (hruns' : db.Runs j op' me') (htxn : me.txn = me'.txn) :
    op.connection = op'.connection := by
  obtain ⟨txn, hfound, hconnection⟩ := h.placed i op me hruns
  obtain ⟨txn', hfound', hconnection'⟩ := h.placed j op' me' hruns'
  rw [← htxn, hfound] at hfound'
  cases hfound'
  exact hconnection.symm.trans hconnection'

/-! ## Change of state -/

/-- Nothing else counts than the locks, the transactions, the attachments and the tasks. -/
theorem of_eq (h : db.Tidy) (hlocks : db'.locks = db.locks)
    (hdirectory : db'.directory = db.directory) (hattached : db'.attached = db.attached)
    (htasks : db'.tasks = db.tasks) : db'.Tidy := by
  have hbelongs : db'.Belongs = db.Belongs := by
    unfold Belongs
    rw [hdirectory]
  refine ⟨hlocks ▸ h.consistent, fun c => ?_, fun c t ht => ?_, fun i op me hruns => ?_,
    htasks ▸ h.coordinated, fun t txn hfound => ?_⟩
  · rw [hattached, hdirectory]
    exact h.agreed c
  · rw [hbelongs]
    exact h.home c t (hattached ▸ ht)
  · rw [hbelongs]
    exact h.placed i op me ((runs_of_tasks htasks).mp hruns)
  · have hneat := h.neat t txn (hdirectory ▸ hfound)
    exact ⟨hattached ▸ hneat.active, hlocks ▸ hneat.aborting, hlocks ▸ hattached ▸ hneat.ready⟩

/-- Tasks may be put in line. -/
theorem wake (h : db.Tidy) (woken : List TaskId) : (db.wake woken).Tidy :=
  h.of_eq rfl rfl rfl rfl

/-- An operation may move. -/
theorem setStand (h : db.Tidy) (i : TaskId) (stand : Stand) : (db.setStand i stand).Tidy := by
  have hruns : ∀ j op me, (db.setStand i stand).Runs j op me → db.Belongs me.txn op.connection := by
    intro j op me hop
    rcases runs_setStand hop with hop | ⟨-, old, hold, rfl⟩
    · exact h.placed j op me hop
    · exact h.placed i old me hold
  have hrequest : ∀ (j : TaskId) (r : Lock.Request),
      (db.setStand i stand).tasks[j]? ≠ some (.request r) := by
    intro j r hr
    rw [setStand_eq] at hr
    have hr := Array.getElem?_modify.symm.trans hr
    split at hr
    · obtain ⟨task, htask, hmoved⟩ := Option.map_eq_some_iff.mp hr
      cases task with
      | operation op => cases hmoved
      | request r => exact h.coordinated j r htask
    · exact h.coordinated j r hr
  rw [setStand_eq] at hruns hrequest ⊢
  exact ⟨h.consistent, h.agreed, h.home, hruns, hrequest, fun t txn hfound =>
    ⟨(h.neat t txn hfound).active, (h.neat t txn hfound).aborting, (h.neat t txn hfound).ready⟩⟩

/-- An operation may end. -/
theorem finish (h : db.Tidy) (i : TaskId) (result : Result) : (db.finish i result).Tidy :=
  h.setStand i _

/-- An operation may be added. -/
theorem push (h : db.Tidy) (op : Operation)
    (hop : ∀ me, op.holder = some me → db.Belongs me.txn op.connection) :
    (db.push (.operation op)).Tidy := by
  refine ⟨h.consistent, h.agreed, h.home, fun j op' me hruns => ?_, fun j r hr => ?_,
    fun t txn hfound => ?_⟩
  · rcases getElem?_push_cases hruns.1 with heq | hold
    · cases heq
      exact hop me hruns.2
    · exact h.placed j op' me ⟨hold, hruns.2⟩
  · rcases getElem?_push_cases hr with heq | hold
    · cases heq
    · exact h.coordinated j r hold
  · have hneat := h.neat t txn hfound
    exact ⟨hneat.active, hneat.aborting, hneat.ready⟩

/-- One transaction and the locks may change, if the transaction is neat afterwards and the locks
lose no mark and bring nobody back but that transaction. -/
theorem change (h : db.Tidy) (hfound : db.directory.find? t = some txn)
    (hfind : ∀ u, db'.directory.find? u = if t = u then some txn' else db.directory.find? u)
    (hconnection : txn'.connection = txn.connection)
    (hcurrent : db'.directory.current = db.directory.current)
    (hattached : db'.attached = db.attached) (htasks : db'.tasks = db.tasks)
    (hconsistent : db'.locks.Consistent)
    (hreleased : ∀ u, t ≠ u → u ∈ db.locks.released → u ∈ db'.locks.released)
    (habsent : ∀ u, t ≠ u → db.locks.Absent u → db'.locks.Absent u) (hneat : db'.Neat t txn') :
    db'.Tidy := by
  have hbelongs : ∀ {u c}, db.Belongs u c → db'.Belongs u c := by
    rintro u c ⟨old, hold, hc⟩
    unfold Belongs
    rw [hfind]
    split
    · rename_i heq
      rw [← heq, hfound] at hold
      cases hold
      exact ⟨txn', rfl, hconnection.trans hc⟩
    · exact ⟨old, hold, hc⟩
  refine ⟨hconsistent, fun c => ?_, fun c u hu => hbelongs (h.home c u (hattached ▸ hu)),
    fun i op me hruns => hbelongs (h.placed i op me ((runs_of_tasks htasks).mp hruns)),
    htasks ▸ h.coordinated, fun u found hu => ?_⟩
  · rw [hattached, hcurrent]
    exact h.agreed c
  · rw [hfind] at hu
    split at hu
    · rename_i heq
      cases hu
      exact heq ▸ hneat
    · rename_i hne
      have hold := h.neat u found hu
      refine ⟨fun hphase => ?_, fun hphase => hreleased u hne (hold.aborting hphase),
        fun hphase => ⟨habsent u hne (hold.ready hphase).1, fun c => ?_⟩⟩
      · rw [hattached]
        exact hold.active hphase
      · rw [hattached]
        exact (hold.ready hphase).2 c

/-- A transaction may be replaced by one that is neat. -/
theorem set (h : db.Tidy) (hfound : db.directory.find? t = some txn) (txn' : Transaction)
    (hconnection : txn'.connection = txn.connection) (hneat : db.Neat t txn') :
    (db.withDirectory (db.directory.set t txn')).Tidy :=
  h.change hfound (Directory.find?_set hfound txn') hconnection rfl rfl rfl h.consistent
    (fun _ _ => id) (fun _ _ => id) ⟨hneat.active, hneat.aborting, hneat.ready⟩

/-- In particular by one of the same phase. -/
theorem setSame (h : db.Tidy) (hfound : db.directory.find? t = some txn) (txn' : Transaction)
    (hconnection : txn'.connection = txn.connection) (hphase : txn'.phase = txn.phase) :
    (db.withDirectory (db.directory.set t txn')).Tidy := by
  have hneat := h.neat t txn hfound
  refine h.set hfound txn' hconnection ⟨fun hactive => ?_, fun haborting => ?_, fun hready => ?_⟩
  · rw [hconnection]
    exact hneat.active (hphase.symm.trans hactive)
  · exact hneat.aborting (hphase.symm.trans haborting)
  · exact hneat.ready (hphase.symm.trans hready)

/-- Locks may be taken over that differ only for a transaction that is not over. -/
theorem withLocks {m : Lock.Manager} (h : db.Tidy) (hfound : db.directory.find? t = some txn)
    (hphase : txn.phase ≠ .ready) (hconsistent : m.Consistent)
    (hreleased : ∀ u, u ∈ db.locks.released → u ∈ m.released)
    (habsent : ∀ u, t ≠ u → db.locks.Absent u → m.Absent u) : (db.withLocks m).Tidy := by
  have hneat := h.neat t txn hfound
  refine h.change hfound (fun u => ?_) rfl rfl rfl rfl hconsistent (fun u _ => hreleased u) habsent
    ⟨hneat.active, fun haborting => hreleased t (hneat.aborting haborting),
      fun hready => absurd hready hphase⟩
  show db.directory.find? u = _
  split
  · rename_i heq
    exact heq ▸ hfound
  · rfl

/-- A transaction that is not over may release its locks. -/
theorem releaseLocks (h : db.Tidy) (hfound : db.directory.find? t = some txn)
    (hphase : txn.phase ≠ .ready) : (db.releaseLocks t).Tidy :=
  h.withLocks hfound hphase (h.consistent.release (.refl _))
    (fun _ hmem => (db.locks.mem_released_release t).mpr (.inl hmem))
    fun _ hne habsent => habsent.release h.consistent hne

/-- A transaction that has released its locks may have that forgotten when its life ends, if no
connection is attached to it. -/
theorem retire (h : db.Tidy) (hfound : db.directory.find? t = some txn)
    (hreleased : t ∈ db.locks.released) (hdetached : ∀ c, db.attached.get? c ≠ some t) :
    ((db.forgetLocks t).retire t).Tidy := by
  have hforgotten : (db.forgetLocks t).directory.find? t = some txn := hfound
  rw [retire_eq hforgotten]
  refine h.change hfound (Directory.find?_set hfound _) rfl rfl rfl rfl (h.consistent.forget t)
    (fun u hne hmem => ?_) (fun u _ habsent => habsent.forget t)
    ⟨nofun, nofun, fun _ => ⟨h.consistent.absent_forget hreleased, hdetached⟩⟩
  exact List.mem_filter.mpr ⟨hmem, decide_eq_true (Ne.symm hne)⟩

/-- A transaction that is being finished may be separated from its connection. -/
theorem separate (h : db.Tidy) (hfound : db.directory.find? t = some txn)
    (hphase : txn.phase ≠ .active) (c : ConnectionId) : (db.separate c t).Tidy := by
  have hagreed := h.agreed
  have hget : ∀ d u, (db.separate c t).attached.get? d = some u → db.attached.get? d = some u := by
    intro d u hu
    rw [get?_attached_separate] at hu
    split at hu
    · cases hu
    · exact hu
  -- The connections of other transactions keep theirs.
  have hkept : ∀ d u, t ≠ u → db.attached.get? d = some u →
      (db.separate c t).attached.get? d = some u := by
    intro d u hne hu
    have hother : ¬ (c = d ∧ db.attached.get? c = some t) := by
      rintro ⟨rfl, hattached⟩
      exact hne (Option.some.inj (hattached.symm.trans hu))
    rw [get?_attached_separate, if_neg hother]
    exact hu
  have hfind : (db.separate c t).directory.find? = db.directory.find? :=
    funext (db.find?_separate c t)
  have hbelongs : (db.separate c t).Belongs = db.Belongs := by
    unfold Belongs
    rw [hfind]
  have hlocks : (db.separate c t).locks = db.locks := by
    rw [separate_eq]
  have htasks : (db.separate c t).tasks = db.tasks := by
    rw [separate_eq]
  refine ⟨hlocks ▸ h.consistent, fun d => ?_, fun d u hu => hbelongs ▸ h.home d u (hget d u hu),
    fun j op me hruns => hbelongs ▸ h.placed j op me ((runs_of_tasks htasks).mp hruns),
    htasks ▸ h.coordinated, fun u found hu => ?_⟩
  · -- The two records are cleared under the same condition, since they agree.
    rw [separate_eq]
    dsimp only
    rw [← hagreed c]
    split
    · rw [Dict.get?_erase, Dict.get?_erase, hagreed d]
    · exact hagreed d
  · rw [hfind] at hu
    -- An active transaction is another one than the one that is separated, which is being finished.
    have hneat := h.neat u found hu
    refine ⟨fun hactive => ?_, hlocks ▸ hneat.aborting, fun hready => ?_⟩
    · refine hkept _ u ?_ (hneat.active hactive)
      rintro rfl
      rw [hfound] at hu
      cases hu
      exact hphase hactive
    · rw [hlocks]
      exact ⟨(hneat.ready hready).1, fun d hd => (hneat.ready hready).2 d (hget d u hd)⟩

/-- Only the connection on which a transaction was started is attached to it. -/
theorem eq_of_attached {d : ConnectionId} (h : db.Tidy)
    (hfound : db.directory.find? t = some txn) (hd : db.attached.get? d = some t) :
    txn.connection = d := by
  obtain ⟨txn', hfound', hconnection⟩ := h.home d t hd
  rw [hfound] at hfound'
  cases hfound'
  exact hconnection

/-- No connection is attached to a transaction that was separated from its own. -/
theorem detached (h : db.Tidy) (hfound : db.directory.find? t = some txn) (d : ConnectionId) :
    (db.separate txn.connection t).attached.get? d ≠ some t := by
  intro hd
  rw [get?_attached_separate] at hd
  split at hd
  · cases hd
  · rename_i hother
    have heq := h.eq_of_attached hfound hd
    exact hother ⟨heq, heq ▸ hd⟩

/-- A new transaction may become the one of a connection whose former one is not active. -/
theorem place (h : db.Tidy)
    (hfree : ∀ t txn, db.attached.get? c = some t → db.directory.find? t = some txn →
      txn.phase ≠ .active) (ts : Timestamp) (clock : Clock) (origin : Origin) :
    (db.placed c ts clock origin).Tidy := by
  -- Every transaction that was there is there still, and on the same connection.
  have hbelongs : ∀ {u d}, db.Belongs u d → (db.placed c ts clock origin).Belongs u d := by
    rintro u d ⟨old, hold, hd⟩
    exact ⟨old, Directory.find?_place_of_some ts origin hold, hd⟩
  have hget : ∀ d, (db.placed c ts clock origin).attached.get? d =
      if c = d then some (db.directory.place c ts origin).1 else db.attached.get? d :=
    fun d => Dict.get?_insert ..
  have hnew : ∀ u, (db.placed c ts clock origin).directory.find? u =
      if (db.directory.place c ts origin).1 = u
        then some (.new (db.directory.place c ts origin).1 c ts origin)
        else db.directory.find? u := db.directory.find?_place c ts origin
  refine ⟨h.consistent, fun d => ?_, fun d u hu => ?_,
    fun j op me hruns => hbelongs (h.placed j op me hruns), h.coordinated, fun u found hu => ?_⟩
  · -- Both records of the connection name the new transaction.
    refine (hget d).trans ?_
    show _ = (db.directory.current.insert c _).get? d
    rw [Dict.get?_insert, h.agreed d]
    rfl
  · rw [hget] at hu
    split at hu
    · rename_i heq
      cases hu
      exact ⟨_, (hnew _).trans (if_pos rfl), heq⟩
    · exact hbelongs (h.home d u hu)
  · rw [hnew] at hu
    split at hu
    · rename_i heq
      cases hu
      refine ⟨fun _ => ?_, nofun, nofun⟩
      rw [hget, ← heq]
      exact if_pos rfl
    · -- It is another transaction, and if it is active it is attached to another connection.
      rename_i hne
      have hneat := h.neat u found hu
      refine ⟨fun hactive => ?_, hneat.aborting, fun hready => ⟨(hneat.ready hready).1, ?_⟩⟩
      · have hattached := hneat.active hactive
        have hother : c ≠ found.connection := by
          rintro rfl
          exact hfree u found hattached hu hactive
        rw [hget, if_neg hother]
        exact hattached
      · intro d hd
        rw [hget] at hd
        split at hd
        · exact hne (Option.some.inj hd)
        · exact (hneat.ready hready).2 d hd

/-! ## Finishing transactions -/

/-- A commit may end. -/
theorem endCommit (h : db.Tidy) (hfound : db.directory.find? t = some txn)
    (hphase : txn.phase = .committing) (i : TaskId) (errors : List Error) (result : Result) :
    (db.endCommit i txn.connection t errors result).Tidy := by
  have hready : txn.phase ≠ .ready := by
    rw [hphase]
    exact nofun
  have hactive : txn.phase ≠ .active := by
    rw [hphase]
    exact nofun
  have hreleased := h.releaseLocks hfound hready
  have hmem : t ∈ (db.releaseLocks t).locks.released :=
    (db.locks.mem_released_release t).mpr (.inr rfl)
  have hfound : (db.releaseLocks t).directory.find? t = some txn := hfound
  have hdetached := hreleased.detached hfound
  have hseparate := hreleased.separate hfound hactive txn.connection
  -- The mark is forgotten before the connection is separated. Only in the other order is every
  -- transaction neat in between, and the end is the same.
  unfold Database.endCommit
  rw [separate_forgetLocks]
  have hfound : ((db.releaseLocks t).separate txn.connection t).directory.find? t = some txn := by
    rw [find?_separate]
    exact hfound
  refine (hseparate.retire hfound ?_ hdetached).finish i _
  rw [separate_eq]
  exact hmem

/-- An aborted transaction may be replaced, and then no connection is attached to it. -/
theorem replace (h : db.Tidy) (hfound : db.directory.find? t = some txn)
    (hphase : txn.phase = .aborting) :
    (db.replace txn.connection t).1.Tidy ∧
      ∀ d, (db.replace txn.connection t).1.attached.get? d ≠ some t := by
  by_cases hattached : db.attached.get? txn.connection = some t
  · have hcurrent := (h.agreed txn.connection).symm.trans hattached
    have hcleared := h.setSame hfound { txn with log := .empty } rfl rfl
    rw [replace_eq hattached hcurrent hfound]
    refine ⟨hcleared.place (fun u old hu hold => ?_) _ _ _, fun d hd => ?_⟩
    · have heq : t = u := Option.some.inj (hattached.symm.trans hu)
      rw [← heq] at hold
      have hold := (Directory.find?_set hfound _ t).symm.trans hold
      rw [if_pos rfl] at hold
      cases hold
      rw [hphase]
      exact nofun
    · have hd := (Dict.get?_insert ..).symm.trans hd
      split at hd
      · -- The identifier of the fresh transaction was free, and this one was not.
        have hfree := Directory.find?_place_new (db.directory.set t { txn with log := .empty })
          txn.connection db.clock.read.1 txn.origin
        have hnew := (congrArg _ (Option.some.inj hd)).symm.trans hfree
        have hold := (Directory.find?_set hfound { txn with log := .empty } t).symm.trans hnew
        rw [if_pos rfl] at hold
        cases hold
      · rename_i hne
        exact hne (h.eq_of_attached hfound hd)
  · have hsame : (db.replace txn.connection t).1 = db := by
      unfold Database.replace
      rw [if_neg hattached]
    rw [hsame]
    refine ⟨h, fun d hd => ?_⟩
    have heq := h.eq_of_attached hfound hd
    exact hattached (heq ▸ hd)

/-- A rollback or an abort may end. -/
theorem endDiscard (h : db.Tidy) (hfound : db.directory.find? t = some txn)
    (hphase : txn.phase = .aborting) (i : TaskId) (restart : Bool) (result : Result) :
    (db.endDiscard i txn.connection t restart result).Tidy := by
  have hactive : txn.phase ≠ .active := by
    rw [hphase]
    exact nofun
  have hmem := (h.neat t txn hfound).aborting hphase
  unfold Database.endDiscard
  dsimp only
  split
  · -- The connection goes on with a fresh transaction, which is active.
    obtain ⟨hreplaced, hdetached⟩ := h.replace hfound hphase
    obtain ⟨log, hfound⟩ := find?_replace txn.connection t hfound
    rw [replace_forgetLocks]
    refine (hreplaced.retire hfound ?_ hdetached).finish i _
    rw [locks_replace]
    exact hmem
  · rw [separate_forgetLocks]
    have hfound' : (db.separate txn.connection t).directory.find? t = some txn := by
      rw [find?_separate]
      exact hfound
    refine ((h.separate hfound hactive _).retire hfound' ?_ (h.detached hfound)).finish i _
    rw [separate_eq]
    exact hmem

/-- A call may go on when no operation is in flight. -/
theorem afterDrain (h : db.Tidy) (hfound : db.directory.find? t = some txn)
    (hphase : txn.phase = purpose.phase) (i : TaskId) (result : Result) :
    (db.afterDrain i txn.connection t purpose result).Tidy := by
  unfold Database.afterDrain
  cases purpose with
  | discard restart => exact h.endDiscard hfound hphase i restart result
  | commit =>
    dsimp only
    split
    · have hrecorded : (db.recordCommit t []).Tidy := h.of_eq rfl rfl rfl rfl
      exact hrecorded.endCommit hfound hphase i [] result
    · exact (h.setStand i _).wake [i]

/-- A call may wait until no operation is in flight. -/
theorem drain (h : db.Tidy) (hfound : db.directory.find? t = some txn)
    (hphase : txn.phase = purpose.phase) (i : TaskId) (result : Result) :
    (db.drain i txn.connection t purpose result).Tidy := by
  unfold Database.drain
  rw [hfound]
  dsimp only
  split
  · exact h.afterDrain hfound hphase i result
  · rename_i parked heq
    have hparked := (txn.awaitIdle_spec i).1
    have hconnection := txn.connection_awaitIdle i
    rw [heq] at hparked hconnection
    exact (h.setSame hfound parked hconnection hparked).setStand i _

/-- A connection may commit. -/
theorem commit (h : db.Tidy) (i : TaskId) (c : ConnectionId) (expected : Option TransactionId)
    (result : Result) : (db.commit i c expected result).Tidy := by
  unfold Database.commit
  split
  · exact h.finish i _
  · rename_i t hattached
    split
    · split
      · exact h.finish i _
      · rename_i turned hturn
        obtain ⟨txn, hfound, -, rfl⟩ := turnTo_ok hturn
        have hturned := h.set hfound { txn with phase := .committing } rfl
          ⟨nofun, nofun, nofun⟩
        obtain rfl := h.eq_of_attached hfound hattached
        exact hturned.drain ((Directory.find?_set hfound _ t).trans (if_pos rfl)) rfl i result
    · exact h.finish i _

/-- A transaction that moves on to abort may be discarded. -/
theorem discard (h : db.Tidy) (hattached : db.attached.get? c = some t)
    (hturn : db.turnTo t .aborting = .ok db') (i : TaskId) (restart : Bool) (result : Result) :
    (db'.discard i c t restart result).Tidy := by
  obtain ⟨txn, hfound, hactive, rfl⟩ := turnTo_ok hturn
  obtain rfl := h.eq_of_attached hfound hattached
  have hready : txn.phase ≠ .ready := by
    rw [hactive]
    exact nofun
  -- The release marks the transaction, and so it may be marked before it moves on.
  have hreleased := h.releaseLocks hfound hready
  have hmem : t ∈ (db.releaseLocks t).locks.released :=
    (db.locks.mem_released_release t).mpr (.inr rfl)
  have hturned := hreleased.set (t := t) hfound { txn with phase := .aborting } rfl
    ⟨nofun, fun _ => hmem, nofun⟩
  have haborting :=
    (Directory.find?_set hfound { txn with phase := .aborting } t).trans (if_pos rfl)
  exact hturned.drain haborting rfl i result

/-- A connection may roll back. -/
theorem rollback (h : db.Tidy) (i : TaskId) (c : ConnectionId) : (db.rollback i c).Tidy := by
  unfold Database.rollback
  split
  · exact h.finish i _
  · rename_i t hattached
    split
    · exact h.finish i _
    · rename_i turned hturn
      exact h.discard hattached hturn i false _

/-- A connection may disconnect. -/
theorem disconnect (h : db.Tidy) (i : TaskId) (c : ConnectionId) : (db.disconnect i c).Tidy := by
  unfold Database.disconnect
  split
  · exact h.rollback i c
  · exact h.finish i _

/-- A transaction may be aborted. -/
theorem abort (h : db.Tidy) (i : TaskId) (c : ConnectionId) (t : TransactionId)
    (why : Lock.Refusal) : (db.abort i c t why).Tidy := by
  unfold Database.abort
  dsimp only
  split
  · rename_i hattached
    split
    · exact h.finish i _
    · rename_i turned hturn
      exact h.discard hattached hturn i _ _
  · exact h.finish i _

/-! ## Running statements -/

/-- An operation may leave its transaction. -/
theorem leave (h : db.Tidy) (t : TransactionId) : (db.leave t).Tidy := by
  cases hfound : db.directory.find? t with
  | none =>
    unfold Database.leave
    rw [hfound]
    exact h
  | some txn =>
    rw [leave_eq hfound]
    exact (h.setSame hfound _ txn.connection_deregister txn.deregister_spec.2.1).wake _

/-- A write may be buffered. -/
theorem buffer (h : db.Tidy) (t : TransactionId) (target : Target) (key : Value) (write : Write) :
    (db.buffer t target key write).Tidy := by
  unfold Database.buffer Directory.modifyLog Directory.modify
  cases hfound : db.directory.find? t with
  | none => exact h.of_eq rfl rfl rfl rfl
  | some txn => exact h.setSame hfound _ rfl rfl

/-- A statement may end. -/
theorem conclude (h : db.Tidy) (i : TaskId) (op : Operation) (t : TransactionId)
    (ending : Ending) : (db.conclude i op t ending).Tidy := by
  have hleft := h.leave t
  -- Its transaction is committed if it was made for it.
  have hclose : ∀ result : Result, Tidy (if op.opened
      then (db.leave t).commit i op.connection (some t) result
      else (db.leave t).finish i result) := by
    intro result
    split
    · exact hleft.commit i op.connection (some t) result
    · exact hleft.finish i result
  unfold Database.conclude
  cases ending with
  | done value => exact hclose (.ok value)
  | failed e => exact hclose (.error e)
  | refused why =>
    cases why with
    | released => exact hleft.finish i _
    | conflict => exact hleft.abort i op.connection t .conflict
    | timeout => exact hleft.abort i op.connection t .timeout
  | broken text => exact hleft.finish i _

end Tidy

/-- An operation is at work only in a transaction that is not over. -/
theorem InTurn.not_ready (h : db.InTurn i op me stand) (hworking : stand.isWorking)
    (hfound : db.directory.find? me.txn = some txn) : txn.phase ≠ .ready := by
  intro hready
  obtain ⟨txn', hfound', hsound, -⟩ := h.found
  rw [hfound] at hfound'
  cases hfound'
  exact absurd (hsound.ready hready) (Nat.ne_of_gt (h.busy hworking hfound))

section

variable [Backend σ] {writes : List WriteEntry}

/-- A move of an operation that stays at work keeps all transactions neat. -/
theorem Move.tidy (hmove : Move i op me db stand writes db' stand')
    (hturn : db.InTurn i op me stand) (hworking : stand'.isWorking) (h : db.Tidy) : db'.Tidy := by
  obtain ⟨txn, hfound, -⟩ := hturn.found
  -- The locks change in two of these moves, and only for a transaction that is not over.
  cases hmove with
  | ask call aims asked =>
    rename_i s target turn
    obtain rfl := asked
    refine h.withLocks hfound (hturn.not_ready rfl hfound) (h.consistent.acquire ..) ?_
      fun u hne habsent => habsent.acquire h.consistent db.now .write hne _
    rw [Lock.Manager.released_acquire]
    exact fun _ => id
  | look call looked =>
    rename_i s target w turn
    obtain rfl := looked
    refine h.withLocks hfound (hturn.not_ready rfl hfound) (h.consistent.poll ..) ?_
      fun u _ habsent => habsent.poll h.consistent db.now w
    rw [Lock.Manager.released_poll]
    exact fun _ => id
  | read call working aims => exact h
  | fetch call working aims row => exact h
  | buffer call working target write => exact h.buffer _ _ _ _
  | leave call working result => cases hworking
  | tell idle result => cases hworking
  | close idle own attached turned result => cases hworking
  | discard idle attached turned restart result => cases hworking
  | park found busy => cases hworking
  | snapshot found idle => cases hworking
  | apply errors => cases hworking
  | release => cases hworking
  | forget ends => exact absurd (ends.not_working.symm.trans hworking) nofun
  | separate ends => exact absurd (ends.not_working.symm.trans hworking) nofun
  | replace ends => cases hworking
  | retire ends result => cases hworking

end

end Database

end TxStore
