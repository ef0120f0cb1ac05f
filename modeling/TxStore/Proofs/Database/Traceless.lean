import TxStore.Proofs.Database.Tidy

/-!
# Transactions that are over stay over

Every turn and every other action keeps all transactions neat, as long as clients get their locks
through their connections. A transaction that is over stays over whatever is done. So it has left no
trace when its life ends, and none comes back (`traceless_of_ready`): the mark of its release is
forgotten only when none of its operations can ask for a lock any more.
-/

namespace TxStore.Database

variable {σ : Type} {db db' : Database σ} {i : TaskId} {op : Operation} {me : Lock.Holder}
  {t u : TransactionId} {txn : Transaction} {stand stand' : Stand} {c : ConnectionId}

/-- A connection that finds a transaction for a statement is attached to it then. -/
theorem attached_attach {opened : Bool} (h : (db.attach c).1 = .ok (t, opened)) :
    (db.attach c).2.attached.get? c = some t := by
  have hstart : ∀ {u : TransactionId} {started : Database σ},
      db.start c .implicit = (.ok u, started) → started.attached.get? c = some u := by
    intro u started heq
    rcases db.start_cases c .implicit with hcurrent | ⟨e, hfailed⟩
    · rw [start_eq hcurrent] at heq
      cases heq
      exact Dict.get?_insert_self ..
    · rw [hfailed] at heq
      cases heq
  unfold Database.attach at h ⊢
  cases hattached : db.attached.get? c with
  | some u =>
    rw [hattached] at h
    cases h
    exact hattached
  | none =>
    rw [hattached] at h
    dsimp only at h ⊢
    split at h
    · cases hstarted : db.start c .implicit with
      | mk outcome started =>
        rw [hstarted] at h
        cases outcome with
        | error e => cases h
        | ok u =>
          cases h
          rw [if_pos ‹_›]
          exact hstart hstarted
    · cases h

section

variable [Backend σ] {action : Action σ} {writes : List WriteEntry}

/-! ## Neat transactions -/

/-- The moves of an operation that stays at work keep all transactions neat. -/
theorem Moves.tidy (hmoves : Moves i op me db stand writes db' stand')
    (hturn : db.InTurn i op me stand) (hworking : stand'.isWorking) (h : db.Tidy) : db'.Tidy := by
  refine hmoves.keeps (P := fun mid stand => stand.isWorking → mid.Tidy)
    (fun {mid stand₁ _ _ stand₂} move hturn hmid hworking => ?_) hturn (fun _ => h) hworking
  have hbefore : stand₁.isWorking := by
    cases hidle : stand₁.isWorking with
    | true => rfl
    | false => exact absurd ((move.not_working hidle).symm.trans hworking) nofun
  exact move.tidy hturn hworking (hmid hbefore)

namespace Tidy

/-- An operation may have a turn. -/
theorem resumeOperation (h : db.Tidy) (hturn : db.InTurn i op me op.stand) :
    (db.resumeOperation i op me).Tidy := by
  obtain ⟨txn, hfound, -, hfits⟩ := hturn.found
  have hconnection : txn.connection = op.connection := by
    obtain ⟨txn', hfound', hconnection⟩ := h.placed i op me hturn.runs
    rw [hfound] at hfound'
    cases hfound'
    exact hconnection
  -- At work it makes the moves of a body, and otherwise it is on its way to finish its transaction.
  by_cases hworking : op.stand.isWorking
  · obtain ⟨s, hcall⟩ :=
      Call.exists_statement (hturn.lifecycle.placed i _ hturn.moved.1 hworking)
    have hworks : Works i op me db op.stand _ s _ _ := works_resumeOperation hcall hworking
    generalize db.resumeOperation i op me = last, db.bodyEnding? op me = ending at hworks
    cases hworks with
    | ends moves working => exact (moves.tidy hturn working h).conclude i op me.txn _
    | @goesOn mid stand' moves working waits =>
      obtain ⟨ready, heq⟩ := mid.putDown_eq i stand'
      rw [heq]
      exact ((moves.tidy hturn working h).setStand i stand').of_eq rfl rfl rfl rfl
  · unfold Database.resumeOperation
    cases hstand : op.stand with
    | issued => rw [hstand] at hworking; exact absurd rfl hworking
    | locking target w => rw [hstand] at hworking; exact absurd rfl hworking
    | reading target => rw [hstand] at hworking; exact absurd rfl hworking
    | fetched target row => rw [hstand] at hworking; exact absurd rfl hworking
    | draining purpose result =>
      dsimp only
      rw [← hconnection]
      refine h.drain hfound ?_ i result
      rw [hstand] at hfits
      cases purpose with
      | commit => exact hfits.1
      | discard restart => exact hfits
    | applying plan result =>
      -- What has been applied concerns the tables and the commits only.
      have happlied : Tidy (({ db with store := (applyPlan db.store plan).1 } :
        Database σ).recordCommit me.txn plan) := h.of_eq rfl rfl rfl rfl
      exact (happlied.setStand i _).wake [i]
    | applied errors result =>
      dsimp only
      rw [← hconnection]
      rw [hstand] at hfits
      exact h.endCommit hfound hfits.1 i errors result
    | finished result => exact h

/-- A task may be given a turn. -/
theorem resume (h : db.Tidy) (hlifecycle : db.Lifecycle) (i : TaskId) : (db.resume i).Tidy := by
  have hline : ({ db with ready := db.ready.erase i } : Database σ).Tidy := h.of_eq rfl rfl rfl rfl
  rcases db.resume_cases i with ⟨op, me, hruns⟩ | ⟨r, hr⟩ | ⟨-, heq⟩
  · rw [resume_eq hruns]
    exact hline.resumeOperation (hlifecycle.inTurn hruns)
  · exact absurd hr (h.coordinated i r)
  · rw [heq]
    exact hline

omit [Backend σ] in
/-- A transaction may be started. -/
theorem start (h : db.Tidy) (c : ConnectionId) (origin : Origin) :
    (db.start c origin).2.Tidy := by
  rcases db.start_cases c origin with hcurrent | ⟨e, heq⟩
  · rw [start_eq hcurrent]
    refine h.place (fun u txn hattached _ => ?_) db.clock.read.1 db.clock.read.2 origin
    rw [h.agreed c, hcurrent] at hattached
    cases hattached
  · rw [heq]
    exact h.of_eq rfl rfl rfl rfl

omit [Backend σ] in
/-- A connection may be attached. -/
theorem attach (h : db.Tidy) (c : ConnectionId) : (db.attach c).2.Tidy := by
  rcases db.attach_cases c with heq | heq
  · rw [heq]
    exact h
  · rw [heq]
    exact h.start c .implicit

omit [Backend σ] in
/-- A call that finishes a transaction may be issued. -/
theorem issue (h : db.Tidy) (htwoPhase : db.TwoPhase) (c : ConnectionId) (call : Call) :
    (db.issue c call).Tidy :=
  h.push _ fun me hholder => h.home c me.txn (htwoPhase.txn_attachedHolder hholder).1

omit [Backend σ] in
/-- A call may be made. -/
theorem submit (h : db.Tidy) (htwoPhase : db.TwoPhase) (c : ConnectionId) (call : Call) :
    (db.submit c call).Tidy := by
  cases call with
  | statement s =>
    have hattached := h.attach c
    rcases db.submit_statement_cases c s with
      ⟨e, heq⟩ | ⟨t, opened, txn, hattach, hfound, hactive, heq⟩
    · rw [heq]
      exact hattached.push _ nofun
    · rw [heq]
      have hid : txn.holder.txn = t := (htwoPhase.attach c).numbered t txn hfound
      have hentered := hattached.setSame hfound { txn with inFlight := txn.inFlight + 1 } rfl rfl
      refine (hentered.push _ fun me hholder => ?_).wake _
      cases hholder
      exact hentered.home c _ ((attached_attach hattach).trans (congrArg some hid.symm))
  | commit => exact (h.issue htwoPhase c .commit).commit _ c none _
  | rollback => exact (h.issue htwoPhase c .rollback).rollback _ c
  | disconnect => exact (h.issue htwoPhase c .disconnect).disconnect _ c

/-- Every action of a client who gets locks through connections keeps all transactions neat. -/
theorem perform (h : db.Tidy) (hlifecycle : db.Lifecycle) (htwoPhase : db.TwoPhase)
    (hcoordinated : db.Coordinated action) : (db.perform action).Tidy := by
  cases action with
  | connect => exact h.of_eq rfl rfl rfl rfl
  | createTable table =>
    show (db.createTable table).2.Tidy
    obtain ⟨store, registry, heq⟩ := db.exists_createTable table
    rw [heq]
    exact h.of_eq rfl rfl rfl rfl
  | dropTable name =>
    show (db.dropTable name).2.Tidy
    obtain ⟨registry, heq⟩ := db.exists_dropTable name
    rw [heq]
    exact h.of_eq rfl rfl rfl rfl
  | beginTransaction c =>
    show (db.beginTransaction c).2.Tidy
    rcases db.beginTransaction_cases c with heq | heq
    · rw [heq]
      exact h
    · rw [heq]
      exact h.start c .explicit
  | submit c call => exact h.submit htwoPhase c call
  | requestLock mode holder key => cases hcoordinated
  | resume i => exact h.resume hlifecycle i
  | reach instant => exact h.of_eq rfl rfl rfl rfl

end Tidy

omit [Backend σ] in
/-- In a new database there is nothing to tidy up. -/
theorem tidy_new (config : Config) (clock : Clock) (hasher : Hasher) :
    (new config clock hasher : Database σ).Tidy where
  consistent := Lock.Manager.consistent_new config.lockTimeout
  agreed _ := rfl
  home _ _ h := by cases h
  placed _ _ _ h := by cases h.1
  coordinated _ _ h := by cases h
  neat _ _ h := by cases h

/-- Actions of clients who get their locks through their connections are admitted. -/
theorem admits_of_not_bare {actions : List (Action σ)}
    (h : ∀ action ∈ actions, action.isBare = false) :
    Admits Coordinated db actions := by
  induction actions generalizing db with
  | nil => trivial
  | cons action rest ih =>
    obtain ⟨hfirst, hrest⟩ := List.forall_mem_cons.mp h
    exact ⟨hfirst, ih hrest⟩

/-- All transactions are neat after any run of such clients. -/
theorem Run.tidy {first : Database σ} (run : Run Coordinated first db) (h : first.Tidy)
    (hlifecycle : first.Lifecycle) (htwoPhase : first.TwoPhase) : db.Tidy := by
  induction run with
  | start => exact h
  | perform run hcoordinated ih =>
    exact ih.perform (run.lifecycle hlifecycle htwoPhase) (run.twoPhase htwoPhase) hcoordinated

/-! ## Transactions that are over -/

/-- In a turn no transaction comes back to life. -/
theorem Moves.retired (hmoves : Moves i op me db stand writes db' stand')
    (hturn : db.InTurn i op me stand) (h : db.Retired t) : db'.Retired t := by
  refine hmoves.keeps (P := fun mid _ => mid.Retired t) (fun {mid _ _ _ _} move hturn hmid => ?_)
    hturn h
  obtain ⟨txn, hfound, hready⟩ := hmid
  have heffect := move.effect hturn
  by_cases hmine : t = me.txn
  · subst hmine
    obtain ⟨txn', hfound', hpasses, -⟩ := heffect.mine txn hfound
    refine ⟨txn', hfound', ?_⟩
    rw [hready] at hpasses
    generalize txn'.phase = phase at hpasses
    cases hpasses with
    | stay => rfl
  · exact ⟨txn, heffect.others t txn hmine hfound, hready⟩

/-- Nor does it by any action. -/
theorem Lifecycle.retired_perform (h : db.Lifecycle) (htwoPhase : db.TwoPhase)
    (hretired : db.Retired t) (action : Action σ) : (db.perform action).Retired t := by
  have hquiet : ∀ {db' : Database σ}, db.Quiet db' → db'.Retired t := by
    intro db' hquiet
    obtain ⟨txn, hfound, hready⟩ := hretired
    obtain ⟨txn', hfound', hphase, -⟩ := hquiet.kept t txn hfound
    exact ⟨txn', hfound', hphase.trans hready⟩
  cases h.deed htwoPhase action with
  | tabular about quiet => exact hquiet quiet
  | quiet quiet store registry => exact hquiet quiet
  -- No move brings a retired transaction back, and so no turn does.
  | turn begins held leads =>
    obtain ⟨last, stand', hmoves, -, hlast⟩ := leads
    obtain ⟨ready, heq⟩ := last.putDown_eq _ stand'
    have hfirst := hquiet begins.quiet
    unfold Retired at hfirst
    rw [directory_setStand] at hfirst
    have hkept := hmoves.retired held hfirst
    rw [hlast, heq]
    unfold Retired
    exact (directory_setStand last _ stand').symm ▸ hkept

/-- A transaction that is over stays over. -/
theorem Run.retired {P : Database σ → Action σ → Prop} {first : Database σ}
    (run : Run P first db) (hlifecycle : first.Lifecycle) (htwoPhase : first.TwoPhase)
    (h : first.Retired t) : db.Retired t := by
  induction run with
  | start => exact h
  | perform run _ ih =>
    exact (run.lifecycle hlifecycle htwoPhase).retired_perform (run.twoPhase htwoPhase) ih _

/-- As long as clients get their locks through their connections, nothing is left of a transaction
that is over, whatever its tables are and however it was ended: neither a lock nor a request for
one, no record of its keys, no mark of its release, and no connection that is attached to it. The
transaction stays over, and nothing of it ever comes back. -/
theorem traceless_of_ready {config : Config} {clock : Clock} {hasher : Hasher}
    {later : Database σ} (run : Run Coordinated (new config clock hasher) db)
    (hfound : db.directory.find? t = some txn) (hready : txn.phase = .ready)
    (further : Run Coordinated db later) :
    db.Traceless t ∧
      (∃ txn', later.directory.find? t = some txn' ∧ txn'.phase = .ready) ∧
      later.Traceless t := by
  have hlifecycle := run.lifecycle (lifecycle_new config clock hasher)
    (twoPhase_new config clock hasher)
  have htwoPhase := run.twoPhase (twoPhase_new config clock hasher)
  have htidy := run.tidy (tidy_new config clock hasher) (lifecycle_new config clock hasher)
    (twoPhase_new config clock hasher)
  have hretired : db.Retired t := ⟨txn, hfound, hready⟩
  have hlater := further.retired hlifecycle htwoPhase hretired
  exact ⟨htidy.traceless hretired, hlater,
    (further.tidy htidy hlifecycle htwoPhase).traceless hlater⟩

end

/-- Two connections write the same row. The older transaction has to wait for the younger one, and
its connection rolls it back meanwhile. -/
def withdrawn : List (Action MemoryTable) :=
  [ .createTable ⟨"t", .any, .any, ⟨[]⟩⟩, .beginTransaction 0, .beginTransaction 1,
    .submit 1 (.statement (.put "t" (.integer 1) .null)), .resume 0,
    .submit 0 (.statement (.put "t" (.integer 1) (.bool true))), .resume 1, .submit 0 .rollback,
    .resume 1, .resume 2 ]

/-- For instance, nothing is left of a transaction that was rolled back while it waited, neither
then nor when the writer that it waited for has committed. -/
theorem traceless_of_ready_withdrawn :
    ∃ db later : Database MemoryTable,
      withdrawn.foldl perform (new .standard default ⟨"Constant", fun _ => ⟨7⟩⟩) = db ∧
      [.submit 1 .commit, .resume 3, .resume 3].foldl perform db = later ∧
      (∃ txn, db.directory.find? ⟨0⟩ = some txn ∧ txn.phase = .ready) ∧
      later.commits.map Commit.txn = [⟨1⟩] ∧ db.Traceless ⟨0⟩ ∧ later.Traceless ⟨0⟩ := by
  have run : Run Coordinated (new .standard default ⟨"Constant", fun _ => ⟨7⟩⟩)
      (withdrawn.foldl perform (new .standard default ⟨"Constant", fun _ => ⟨7⟩⟩)) :=
    Run.performAll .start (by decide)
  have further : Run Coordinated _ ([.submit 1 .commit, .resume 3, .resume 3].foldl perform
      (withdrawn.foldl perform (new .standard default ⟨"Constant", fun _ => ⟨7⟩⟩))) :=
    Run.performAll .start (by decide)
  obtain ⟨hnow, -, hlater⟩ := traceless_of_ready (t := ⟨0⟩) run rfl rfl further
  exact ⟨_, _, rfl, rfl, ⟨_, rfl, rfl⟩, by decide, hnow, hlater⟩

end TxStore.Database
