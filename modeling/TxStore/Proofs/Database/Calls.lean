import TxStore.Proofs.Database.Commits

/-!
# Calls on idle connections

A connection is idle when all its calls are over, and then it has no transaction, or one that rests
(`Session.at_rest`). On an idle connection a transaction may be begun, a statement be issued, which
makes an implicit transaction if there is none, and a transaction be finished. After each of these
calls all sessions are in order.
-/

namespace TxStore.Database

variable {first db : Database MemoryTable} {c : ConnectionId} {t : TransactionId}
  {txn : Transaction} {past : List (Statement × Result)}

/-- Whether all calls on a connection are over. -/
def Idle (db : Database MemoryTable) (c : ConnectionId) : Prop :=
  ∀ (i : TaskId) (op : Operation), db.tasks[i]? = some (.operation op) → op.connection = c →
    op.IsOver

/-- The calls on a connection are listed. -/
theorem idle_iff : db.Idle c ↔ ∀ p ∈ db.callsOn c, p.2.IsOver := by
  constructor
  · intro h p hp
    obtain ⟨hop, hconnection⟩ := mem_callsOn.mp hp
    exact h p.1 p.2 hop hconnection
  · exact fun h i op hop hconnection => h (i, op) (mem_callsOn.mpr ⟨hop, hconnection⟩)

/-- It can be found out from the calls on the connection. -/
instance : Decidable (db.Idle c) := decidable_of_iff _ idle_iff.symm

/-- A connection that has no transaction may start one, and rests. -/
theorem Serialized.place (h : Serialized first db) (detached : db.Detached c) (clock : Clock)
    (ts : Timestamp) (origin : Origin) :
    Turn first { db with
      clock := clock
      directory := (db.directory.place c ts origin).2
      attached := db.attached.insert c (db.directory.place c ts origin).1 } c
      (db.directory.place c ts origin).1 ∧
    Resting { db with
      clock := clock
      directory := (db.directory.place c ts origin).2
      attached := db.attached.insert c (db.directory.place c ts origin).1 } c
      (db.directory.place c ts origin).1 (.new (db.directory.place c ts origin).1 c ts origin) [] := by
  have hturn : Turn first db c (db.directory.place c ts origin).1 :=
    h.turn_of_unknown c (Directory.find?_place_new ..)
  refine ⟨hturn.place clock ts origin, (hturn.fresh clock ts origin).resting fun p hp => ?_⟩
  exact (detached.answered p hp).mono fun u txn hfound =>
    ⟨txn, Directory.find?_place_of_some ts origin hfound, rfl⟩

/-- A connection that has a call to make has no transaction, or one that rests. -/
theorem Session.at_rest (h : db.Session c) (hidle : db.Idle c) :
    db.Detached c ∨ ∃ t txn past, db.Resting c t txn past := by
  have hover : ∀ {earlier i op}, db.Last c earlier i op → ∃ r, op.stand = .finished r :=
    fun last => hidle _ _ last.task.1 last.task.2
  -- In the other sessions the last call is not over.
  cases h with
  | detached detached => exact .inl detached
  | resting resting => exact .inr ⟨_, _, _, resting⟩
  | running busy uncommitted phase entered call midway tracks =>
    obtain ⟨r, hstand⟩ := hover busy.last
    rw [hstand] at midway
    exact midway.elim
  | applying busy uncommitted phase stand success tracks =>
    obtain ⟨r, hstand⟩ := hover busy.last
    rw [stand] at hstand
    cases hstand
  | applied busy phase stand success =>
    obtain ⟨r, hstand⟩ := hover busy.last
    rw [stand] at hstand
    cases hstand

/-- A connection may begin a transaction. -/
theorem Serialized.beginTransaction (h : Serialized first db) (hidle : db.Idle c) :
    Serialized first (db.beginTransaction c).2 := by
  unfold Database.beginTransaction Dict.contains
  rcases (h.sessions c).at_rest hidle with detached | ⟨t, txn, past, resting⟩
  · obtain ⟨hturn, hresting⟩ := h.place detached db.clock.read.2 db.clock.read.1 .explicit
    rw [detached.attached, start_eq detached.current]
    exact hturn.close (.resting hresting)
  · rw [resting.owns.attached]
    exact h

/-- A call of the transaction that a connection has may be made when all others are over. -/
theorem Turn.call (turn : Turn first db c t) (owns : db.Owns c t txn)
    (answered : ∀ p ∈ db.callsOn c, db.Answered c p.2) (tells : Tells (db.callsOn c) t past)
    (uncommitted : ¬ db.Committed t) (call : Call) (opened : Bool) :
    Turn first (db.push (.operation ⟨c, call, some txn.holder, opened, .issued⟩)) c t ∧
      (db.push (.operation ⟨c, call, some txn.holder, opened, .issued⟩)).Busy c t txn (db.callsOn c)
        db.tasks.size ⟨c, call, some txn.holder, opened, .issued⟩ txn.holder past := by
  have hid : txn.id = t := turn.twoPhase.numbered t txn owns.found
  have hfound : db.directory.find? txn.holder.txn = some txn := by
    show db.directory.find? txn.id = some txn
    rw [hid]
    exact owns.found
  refine ⟨turn.push rfl (fun u hu => Operation.item?_of_ne ?_) (turn.twoPhase.push fun op hop => ?_),
    ⟨owns.attached, owns.current, owns.found, owns.connection⟩, ⟨callsOn_push_self .., ?_, ?_⟩, rfl,
    hid, tells⟩
  · -- Its transaction is not committed, so no committed history gets longer.
    rintro me hme rfl
    cases hme
    exact uncommitted (hid ▸ hu)
  · cases hop
    refine ⟨fun me hme => ?_, fun _ _ => trivial⟩
    cases hme
    exact ⟨txn, hfound⟩
  · exact fun p hp => (answered p hp).mono (.of_eq rfl)
  · intro me hme
    cases hme
    exact ⟨txn, hfound, owns.connection⟩

/-- An active transaction enrolls an operation. -/
theorem enroll_eq (owns : db.Owns c t txn) (phase : txn.phase = .active) :
    db.enroll t = .ok (txn.holder, db.withDirectory
      (db.directory.set t { txn with inFlight := txn.inFlight + 1 })) := by
  unfold Database.enroll Transaction.register
  rw [owns.found]
  dsimp only
  rw [if_pos phase]
  rfl

/-- A statement may be issued for a transaction that rests. -/
theorem Turn.enroll (turn : Turn first db c t) (resting : db.Resting c t txn past) (s : Statement)
    (opened : Bool) (woken : List TaskId) :
    Serialized first (((db.withDirectory
      (db.directory.set t { txn with inFlight := txn.inFlight + 1 })).push
      (.operation ⟨c, .statement s, some txn.holder, opened, .issued⟩)).wake woken) := by
  have hentered : Turn first (db.withDirectory
      (db.directory.set t { txn with inFlight := txn.inFlight + 1 })) c t :=
    turn.set resting.owns.found rfl rfl (fun hopen => hopen) fun e he => .inl he
  have hkeeps : db.Keeps (db.withDirectory
      (db.directory.set t { txn with inFlight := txn.inFlight + 1 })) :=
    keeps_set resting.owns.found rfl
  have howns : (db.withDirectory (db.directory.set t { txn with inFlight := txn.inFlight + 1 })).Owns
      c t { txn with inFlight := txn.inFlight + 1 } :=
    ⟨resting.owns.attached, resting.owns.current,
      (Directory.find?_set resting.owns.found _ t).trans (if_pos rfl), resting.owns.connection⟩
  obtain ⟨hturn, hbusy⟩ := hentered.call howns
    (fun p hp => (resting.answered p hp).mono hkeeps) resting.tells resting.uncommitted (.statement s)
    opened
  -- The statement has just been issued and has found out nothing yet.
  exact Turn.close (hturn.idle _ _) (.running (hbusy.of_eq rfl rfl rfl) resting.uncommitted
    resting.phase (congrArg Nat.succ resting.idle) rfl trivial
    (resting.tracks.of_eq rfl rfl rfl))

/-- A call may be made on a connection that has no transaction. -/
theorem Serialized.push (h : Serialized first db) (detached : db.Detached c) (call : Call)
    {stand : Stand} (hbacks : ∀ t key, db.Backs t key stand) :
    ∃ t, Turn first (db.push (.operation ⟨c, call, none, false, stand⟩)) c t ∧
      (db.push (.operation ⟨c, call, none, false, stand⟩)).Last c (db.callsOn c) db.tasks.size
        ⟨c, call, none, false, stand⟩ := by
  -- The call has no transaction, so its turn may be taken for one that was never started.
  have hturn := h.turn_of_unknown c (db.directory.find?_place_new c default default)
  refine ⟨_, hturn.push rfl (fun u hu => Operation.item?_of_ne nofun)
    (h.twoPhase.push fun op hop => ?_), callsOn_push_self .., fun p hp => ?_, nofun⟩
  · cases hop
    exact ⟨nofun, hbacks⟩
  · exact (detached.answered p hp).mono (.of_eq rfl)

/-- A call on a connection that has no transaction may end at once. -/
theorem Serialized.reject (h : Serialized first db) (detached : db.Detached c) (call : Call)
    (r : Result) :
    Serialized first
      ((db.push (.operation ⟨c, call, none, false, .issued⟩)).finish db.tasks.size r) := by
  have hnone : ∀ stand u, (⟨c, call, none, false, stand⟩ : Operation).item? u = none :=
    fun stand u => Operation.item?_of_ne nofun
  have hbacks : ∀ t key, db.Backs t key .issued := fun _ _ => trivial
  obtain ⟨t, hturn, hlast⟩ := h.push detached call hbacks
  obtain ⟨hop, hconnection⟩ := hlast.task
  have hanswered := hlast.answered_finish (r := r) nofun
  have hfinished := hturn.setStand hop hconnection
    (fun u _ => (hnone (.finished r) u).trans (hnone .issued u).symm)
    (hturn.twoPhase.finish db.tasks.size r)
  unfold Database.finish at hanswered ⊢
  rw [setStand_eq] at *
  exact hfinished.close (.detached ⟨detached.attached, detached.current, hanswered⟩)

/-- A statement may be issued. -/
theorem Serialized.submit_statement (h : Serialized first db) (hidle : db.Idle c) (s : Statement) :
    Serialized first (db.submit c (.statement s)) := by
  unfold Database.submit Database.register Database.attach
  dsimp only
  rcases (h.sessions c).at_rest hidle with detached | ⟨t, txn, past, resting⟩
  · rw [detached.attached]
    dsimp only
    by_cases himplicit : db.config.implicitTransactions = true
    · -- The statement opens a transaction of its own, and it commits that when it ends.
      obtain ⟨hturn, hresting⟩ := h.place detached db.clock.read.2 db.clock.read.1 .implicit
      rw [if_pos himplicit, start_eq detached.current]
      dsimp only
      rw [enroll_eq hresting.owns rfl]
      exact hturn.enroll hresting s true _
    · rw [if_neg himplicit]
      have hbacks : ∀ t key, db.Backs t key (.finished (.error (.one .notInTransaction))) :=
        fun _ _ => trivial
      obtain ⟨t, hturn, hlast⟩ := h.push detached (.statement s) hbacks
      refine hturn.close (.detached ⟨detached.attached, detached.current, fun p hp => ?_⟩)
      rw [hlast.calls] at hp
      rcases List.mem_append.mp hp with hp | hp
      · exact hlast.answered p hp
      · cases List.mem_singleton.mp hp
        exact ⟨⟨_, rfl⟩, hlast.placed, nofun⟩
  · have hturn := h.turn_of_owns resting.owns
    rw [resting.owns.attached]
    dsimp only
    rw [enroll_eq resting.owns resting.phase]
    exact hturn.enroll resting s false _

/-- A call that would finish a transaction fails on a connection that has none, or does nothing. -/
theorem Serialized.submit_detached (h : Serialized first db) (detached : db.Detached c) {call : Call}
    (hcall : ∀ s, call ≠ .statement s) : Serialized first (db.submit c call) := by
  have hissue := issue_eq (attachedHolder_of_detached detached.attached) call
  have hattached : (db.issue c call).attached.get? c = none := detached.attached
  have hreject := h.reject detached call
  rw [← hissue] at hreject
  unfold Database.submit
  cases call with
  | statement s => exact absurd rfl (hcall s)
  | commit =>
    dsimp only
    unfold Database.commit
    rw [hattached]
    exact hreject _
  | rollback =>
    dsimp only
    unfold Database.rollback
    rw [hattached]
    exact hreject _
  | disconnect =>
    dsimp only
    unfold Database.disconnect Dict.contains
    rw [hattached]
    exact hreject _

/-- A transaction that rests may be finished. -/
theorem Serialized.submit_resting (h : Serialized first db) (resting : db.Resting c t txn past)
    {call : Call} (hcall : ∀ s, call ≠ .statement s) : Serialized first (db.submit c call) := by
  have hissue := issue_eq (attachedHolder_of_attached resting.owns.attached resting.owns.found) call
  have hattached : (db.issue c call).attached.get? c = some t := resting.owns.attached
  have hturn := h.turn_of_owns resting.owns
  obtain ⟨hissued, hbusy⟩ := hturn.call resting.owns resting.answered resting.tells
    resting.uncommitted call false
  have huncommitted : ¬ (db.issue c call).Committed t := resting.uncommitted
  have htracks : (db.issue c call).Tracks t txn.log past :=
    resting.tracks.of_eq rfl rfl rfl
  rw [← hissue] at hissued hbusy
  unfold Database.submit
  cases call with
  | statement s => exact absurd rfl (hcall s)
  | commit =>
    -- A commit is no statement and adds nothing to the history.
    rw [← past.append_nil] at htracks
    exact hissued.commit hbusy huncommitted resting.phase resting.idle htracks (fun _ => rfl) rfl
  | rollback => exact hissued.rollback hbusy huncommitted resting.phase resting.idle nofun
  | disconnect =>
    dsimp only
    unfold Database.disconnect Dict.contains
    rw [hattached]
    exact hissued.rollback hbusy huncommitted resting.phase resting.idle nofun

/-- A call may be made when all others on its connection are over. -/
theorem Serialized.submit (h : Serialized first db) (hidle : db.Idle c) (call : Call) :
    Serialized first (db.submit c call) := by
  by_cases hstatement : ∃ s, call = .statement s
  · obtain ⟨s, rfl⟩ := hstatement
    exact h.submit_statement hidle s
  · have hcall : ∀ s, call ≠ .statement s := fun s heq => hstatement ⟨s, heq⟩
    rcases (h.sessions c).at_rest hidle with detached | ⟨t, txn, past, resting⟩
    · exact h.submit_detached detached hcall
    · exact h.submit_resting resting hcall

end TxStore.Database
