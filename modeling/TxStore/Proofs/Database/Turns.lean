import TxStore.Proofs.Database.Locking
import TxStore.Proofs.Database.Sessions

/-!
# A turn among sessions

The transactions whose writes were applied are explained if executing them one after the other, each
alone and in the order of their commits, yields what their callers were told and leaves what the
tables hold (`Explained`). In a turn of connection `c` for a transaction `t` this, the discipline of
the locks and the sessions of all other connections are kept by each small change that the turn is
made of (`Turn`); what the turn makes of the session of `c` itself is up to the functions that are
built from these changes.
-/

namespace TxStore.Database

variable {first db db' : Database MemoryTable} {c d : ConnectionId} {t u : TransactionId}
  {txn txn' : Transaction} {log : WriteBuffer} {past : List (Statement × Result)} {s : Statement}
  {r : Result} {earlier : List (TaskId × Operation)} {i : TaskId} {op : Operation}
  {me : Lock.Holder} {stand : Stand}

/-- No transaction was committed twice, and executing the committed ones one after the other, from
what the tables held at first, yields what their callers were told and what the tables hold now. -/
def Explained (first db : Database MemoryTable) : Prop :=
  (db.commits.map Commit.txn).Nodup ∧ ∃ histories : List (List (Statement × Result)),
    (db.commits.map fun commit => db.history commit.txn) = histories.map (List.map settled) ∧
    Serial.schedule first.locate (histories.map (List.map Prod.fst)) first.contents =
      (histories.map (List.map Prod.snd), db.contents)

/-- What holds in a turn of `c` for `t`, besides what concerns `c` itself. -/
structure Turn (first db : Database MemoryTable) (c : ConnectionId) (t : TransactionId) : Prop where
  /-- The locks cover the writes. -/
  twoPhase : db.TwoPhase
  /-- The same tables are registered. -/
  registry : db.registry = first.registry
  /-- Statements are checked alike. -/
  locate : db.locate = first.locate
  /-- Transactions that were committed were started. -/
  known : ∀ u, db.Committed u → db.Known u
  /-- The transaction is of this connection, if it was started. -/
  mine : ∀ txn, db.directory.find? t = some txn → txn.connection = c
  /-- The other connections stand as between two turns. -/
  others : ∀ d, d ≠ c → db.Session d
  /-- The commits are explained. -/
  explained : Explained first db

/-- The commits stay explained as long as nothing is committed, the rows are the same, and committed
transactions keep their histories. -/
theorem Explained.mono (h : Explained first db) (hcommits : db'.commits = db.commits)
    (hcontents : db'.contents = db.contents)
    (hhistory : ∀ u, db.Committed u → db'.history u = db.history u) : Explained first db' := by
  obtain ⟨honce, histories, htold, hschedule⟩ := h
  refine ⟨?_, histories, ?_, ?_⟩
  · rw [hcommits]
    exact honce
  · rw [hcommits, ← htold]
    exact List.map_congr_left fun commit hcommit => hhistory _ ⟨commit, hcommit, rfl⟩
  · rw [hcontents]
    exact hschedule

/-- A turn may take a step that spares the others and commits nothing. -/
theorem Turn.step (turn : Turn first db c t) (spares : Spares c t db db')
    (htwoPhase : db'.TwoPhase) (hcommits : db'.commits = db.commits)
    (hcontents : db'.contents = db.contents)
    (hhistory : ∀ u, db.Committed u → db'.history u = db.history u)
    (hmine : ∀ txn, db'.directory.find? t = some txn → txn.connection = c) :
    Turn first db' c t where
  twoPhase := htwoPhase
  registry := spares.registry.trans turn.registry
  locate := spares.locate.trans turn.locate
  known u hcommitted := by
    unfold Committed at hcommitted
    rw [hcommits] at hcommitted
    obtain ⟨txn, hfound⟩ := turn.known u hcommitted
    obtain ⟨txn', hfound', -⟩ := spares.placed u txn hfound
    exact ⟨txn', hfound'⟩
  mine := hmine
  others d hd := (turn.others d hd).spare spares hd turn.mine
  explained := turn.explained.mono hcommits hcontents hhistory

/-! ## Small changes -/

/-- The line and the clock concern nobody. -/
theorem Turn.idle (turn : Turn first db c t) (ready : List TaskId) (clock : Clock) :
    Turn first { db with ready := ready, clock := clock } c t := by
  exact turn.step {} (turn.twoPhase.of_eq rfl rfl rfl) rfl rfl (fun _ _ => rfl) turn.mine

/-- Locks that continue the present ones may be taken over. -/
theorem Turn.withLocks {m : Lock.Manager} (turn : Turn first db c t)
    (hlocks : db.locks.Continues db.Shut m) : Turn first (db.withLocks m) c t := by
  have spares : Spares c t db (db.withLocks m) :=
    { writes := fun u k _ hopen hk => hlocks.writes k u hopen hk }
  exact turn.step spares (turn.twoPhase.withLocks hlocks) rfl rfl (fun _ _ => rfl) turn.mine

/-- The transaction may be replaced by one of the same connection that keeps its locks. -/
theorem Turn.set (turn : Turn first db c t) (hfound : db.directory.find? t = some txn)
    (hconnection : txn'.connection = txn.connection) (hid : txn'.id = txn.id)
    (hopen : txn'.IsOpen → txn.IsOpen)
    (hlog : ∀ e ∈ txn'.log.entries, e ∈ txn.log.entries ∨ db.Covers t ⟨e.table, e.key⟩) :
    Turn first (db.withDirectory (db.directory.set t txn')) c t := by
  have hfind := Directory.find?_set hfound txn'
  have spares : Spares c t db (db.withDirectory (db.directory.set t txn')) :=
    { found := fun u hu _ => (hfind u).trans (if_neg (Ne.symm hu))
      placed := keeps_set hfound hconnection }
  refine turn.step spares (turn.twoPhase.set hfound hid hopen hlog) rfl rfl (fun _ _ => rfl)
    fun old hold => ?_
  have hsame := (hfind t).symm.trans hold
  rw [if_pos rfl] at hsame
  cases hsame
  exact hconnection.trans (turn.mine txn hfound)

/-- An operation of the connection may move, if committed transactions keep their histories. -/
theorem Turn.setStand (turn : Turn first db c t) (hop : db.tasks[i]? = some (.operation op))
    (hconnection : op.connection = c)
    (hitem : ∀ u, db.Committed u → ({ op with stand := stand } : Operation).item? u = op.item? u)
    (htwoPhase : (db.setStand i stand).TwoPhase) : Turn first (db.setStand i stand) c t := by
  have hcalls : ∀ d, d ≠ c → (db.setStand i stand).callsOn d = db.callsOn d :=
    fun d hd => callsOn_setStand_of_ne hop (hconnection ▸ hd) stand
  have hhistory : ∀ u, db.Committed u → (db.setStand i stand).history u = db.history u :=
    fun u hcommitted => history_setStand hop (hitem u hcommitted)
  rw [setStand_eq] at *
  exact turn.step { calls := hcalls } htwoPhase rfl rfl hhistory turn.mine

/-- A call may be made on the connection, if it belongs to no committed transaction. -/
theorem Turn.push (turn : Turn first db c t) (hconnection : op.connection = c)
    (hitem : ∀ u, db.Committed u → op.item? u = none)
    (htwoPhase : (db.push (.operation op)).TwoPhase) :
    Turn first (db.push (.operation op)) c t := by
  have spares : Spares c t db (db.push (.operation op)) :=
    { calls := fun d hd => callsOn_push_of_ne (hconnection ▸ hd) }
  refine turn.step spares htwoPhase rfl rfl (fun u hcommitted => ?_) turn.mine
  rw [history_push, hitem u hcommitted]
  exact List.append_nil _

/-- The transaction may be separated from its connection. -/
theorem Turn.separate (turn : Turn first db c t) : Turn first (db.separate c t) c t := by
  have htwoPhase := turn.twoPhase.separate c t
  rw [separate_eq] at *
  -- Each record of `c` is erased or kept, and those of others are kept in both cases.
  have herase : ∀ (p : Prop) [Decidable p] (dict : Dict ConnectionId TransactionId) (d : ConnectionId),
      d ≠ c → (if p then dict.erase c else dict).get? d = dict.get? d := by
    intro p _ dict d hd
    split
    · rw [Dict.get?_erase, if_neg (Ne.symm hd)]
    · rfl
  exact turn.step { attached := herase _ _, current := herase _ _ } htwoPhase rfl rfl (fun _ _ => rfl)
    turn.mine

/-- A fresh transaction may be placed on the connection. -/
theorem Turn.place (turn : Turn first db c t) (clock : Clock) (ts : Timestamp)
    (origin : Origin) :
    Turn first { db with
      clock := clock
      directory := (db.directory.place c ts origin).2
      attached := db.attached.insert c (db.directory.place c ts origin).1 } c t := by
  have hfind := db.directory.find?_place c ts origin
  have hold : ∀ u txn, db.directory.find? u = some txn →
      (db.directory.place c ts origin).2.find? u = some txn :=
    fun u txn => Directory.find?_place_of_some ts origin
  refine turn.step
    { attached := fun d hd => (Dict.get?_insert ..).trans (if_neg (Ne.symm hd))
      current := fun d hd => (Dict.get?_insert ..).trans (if_neg (Ne.symm hd))
      found := fun u _ hknown => hknown.elim fun txn h => (hold u txn h).trans h.symm
      placed := fun u txn h => ⟨txn, hold u txn h, rfl⟩ }
    ((turn.twoPhase.place (c := c) ts origin).of_eq rfl rfl rfl) rfl rfl (fun _ _ => rfl)
    fun txn hfound => ?_
  have hcases := (hfind t).symm.trans hfound
  split at hcases
  · cases hcases
    rfl
  · exact turn.mine txn hcases

/-- It is a fresh one. -/
theorem Turn.fresh (turn : Turn first db c t) (clock : Clock) (ts : Timestamp)
    (origin : Origin) :
    Fresh { db with
      clock := clock
      directory := (db.directory.place c ts origin).2
      attached := db.attached.insert c (db.directory.place c ts origin).1 } c
      (db.directory.place c ts origin).1 (.new (db.directory.place c ts origin).1 c ts origin) where
  owns := {
    attached := Dict.get?_insert_self ..
    current := Dict.get?_insert_self ..
    found := (db.directory.find?_place c ts origin _).trans (if_pos rfl)
    connection := rfl }
  phase := rfl
  idle := rfl
  empty := rfl
  alone p hp me hme htxn := by
    obtain ⟨txn, hfound⟩ := turn.twoPhase.known p.1 p.2 me ⟨(mem_callsOn.mp hp).1, hme⟩
    rw [htxn, Directory.find?_place_new] at hfound
    cases hfound
  uncommitted hcommitted := by
    obtain ⟨txn, hfound⟩ := turn.known _ hcommitted
    rw [Directory.find?_place_new] at hfound
    cases hfound

/-! ## Commits -/

/-- The history of the transaction is found among the calls of its connection. -/
theorem Turn.history_eq (turn : Turn first db c t) :
    db.history t = (db.callsOn c).filterMap fun p => p.2.item? t := by
  refine Database.history_eq fun i op me hruns htxn => ?_
  by_cases hc : op.connection = c
  · exact hc
  · -- A call elsewhere would belong to a transaction of that connection, and `t` is one of `c`.
    have hmem : (i, op) ∈ db.callsOn op.connection := mem_callsOn.mpr ⟨hruns.1, rfl⟩
    obtain ⟨txn, hfound, hconnection⟩ := (turn.others op.connection hc).placed hmem hruns.2
    rw [htxn] at hfound
    exact hconnection.symm.trans (turn.mine txn hfound)

/-- After a commit one more transaction is committed. -/
theorem committed_recordCommit (db : Database MemoryTable) (t u : TransactionId)
    (plan : List PlannedWrite) : (db.recordCommit t plan).Committed u ↔ db.Committed u ∨ t = u := by
  show (∃ commit ∈ db.commits ++ [⟨t, plan⟩], commit.txn = u) ↔ _
  constructor
  · rintro ⟨commit, hmem, htxn⟩
    rcases List.mem_append.mp hmem with hmem | hmem
    · exact .inl ⟨commit, hmem, htxn⟩
    · cases List.mem_singleton.mp hmem
      exact .inr htxn
  · rintro (⟨commit, hmem, htxn⟩ | htxn)
    · exact ⟨commit, List.mem_append_left _ hmem, htxn⟩
    · exact ⟨⟨t, plan⟩, List.mem_append_right _ (List.mem_singleton.mpr rfl), htxn⟩

/-- One more commit is explained by one more execution, on what the tables held before it. -/
theorem Explained.record {store : Array MemoryTable} (h : Explained first db)
    (uncommitted : ¬ db.Committed t) (hlast : db.history t = past.map settled)
    (hexecuted : Serial.transaction first.locate (past.map Prod.fst) db.contents =
      (past.map Prod.snd, Contents.of db.registry store)) (plan : List PlannedWrite) :
    Explained first ({ db with store := store }.recordCommit t plan) := by
  obtain ⟨honce, histories, htold, hschedule⟩ := h
  refine ⟨?_, histories ++ [past], ?_, ?_⟩
  · show (List.map Commit.txn (db.commits ++ [⟨t, plan⟩])).Nodup
    -- Its number is new, since the transaction was not committed before.
    rw [List.map_append, List.nodup_append]
    refine ⟨honce, List.pairwise_singleton _ t, fun u hu v hv heq => ?_⟩
    obtain ⟨commit, hcommit, htxn⟩ := List.mem_map.mp hu
    exact uncommitted ⟨commit, hcommit, (htxn.trans heq).trans (List.mem_singleton.mp hv)⟩
  · show List.map _ (db.commits ++ [⟨t, plan⟩]) = _
    rw [List.map_append, List.map_append]
    congr 1
    exact congrArg (fun history => [history]) hlast
  · rw [List.map_append, List.map_append]
    have happend := Serial.schedule_append hschedule (past.map Prod.fst)
    rw [hexecuted] at happend
    exact happend

/-- The writes of the transaction may be applied: if executing its statements on what the tables
hold yields what its callers were told and what the tables hold then, the commits stay explained. -/
theorem Turn.record {store : Array MemoryTable} (turn : Turn first db c t) (hknown : db.Known t)
    (uncommitted : ¬ db.Committed t)
    (hlocate : Serial.locate db.registry store = db.locate)
    (htells : Tells (db.callsOn c) t past)
    (hexecuted : Serial.transaction db.locate (past.map Prod.fst) db.contents =
      (past.map Prod.snd, Contents.of db.registry store))
    (hlocked : ∀ u k, u ≠ t → ¬ db.Shut u → db.Writes u k →
      Contents.of db.registry store k = db.contents k) (plan : List PlannedWrite) :
    Turn first ({ db with store := store }.recordCommit t plan) c t := by
  have hcommitted : ∀ u, ({ db with store := store }.recordCommit t plan : Database _).Committed u ↔
      db.Committed u ∨ t = u := fun u => committed_recordCommit { db with store := store } t u plan
  have spares : Spares c t db ({ db with store := store }.recordCommit t plan) := by
    refine { contents := hlocked, locate := hlocate, committed := fun u hu => ?_ }
    rw [hcommitted]
    constructor
    · rintro (h | h)
      · exact h
      · exact absurd h.symm hu
    · exact .inl
  refine ⟨turn.twoPhase.of_eq rfl rfl rfl, turn.registry, hlocate.trans turn.locate, fun u hu => ?_,
    turn.mine, fun d hd => (turn.others d hd).spare spares hd turn.mine, ?_⟩
  · rcases (hcommitted u).mp hu with hu | rfl
    · exact turn.known u hu
    · exact hknown
  · rw [turn.locate] at hexecuted
    exact turn.explained.record uncommitted (turn.history_eq.trans htells) hexecuted plan

/-- A commit without writes may be recorded. -/
theorem Turn.record_nil (turn : Turn first db c t) (hknown : db.Known t)
    (uncommitted : ¬ db.Committed t)
    (htells : Tells (db.callsOn c) t past)
    (hexecuted : Serial.transaction db.locate (past.map Prod.fst) db.contents =
      (past.map Prod.snd, db.contents)) : Turn first (db.recordCommit t []) c t := by
  show Turn first ({ db with store := db.store }.recordCommit t []) c t
  exact turn.record hknown uncommitted rfl htells hexecuted (fun _ _ _ _ _ => rfl) []

/-! ## Between two turns -/

/-- What holds between two turns, if every connection makes one call at a time. -/
structure Serialized (first db : Database MemoryTable) : Prop where
  /-- The locks cover the writes. -/
  twoPhase : db.TwoPhase
  /-- The same tables are registered. -/
  registry : db.registry = first.registry
  /-- Statements are checked alike. -/
  locate : db.locate = first.locate
  /-- Transactions that were committed were started. -/
  known : ∀ u, db.Committed u → db.Known u
  /-- Every connection stands as it should. -/
  sessions : ∀ c, db.Session c
  /-- The commits are explained. -/
  explained : Explained first db

/-- A turn begins. -/
theorem Serialized.turn (h : Serialized first db)
    (hmine : ∀ txn, db.directory.find? t = some txn → txn.connection = c) : Turn first db c t :=
  ⟨h.twoPhase, h.registry, h.locate, h.known, hmine, fun d _ => h.sessions d, h.explained⟩

/-- A turn begins for the transaction that a connection has. -/
theorem Serialized.turn_of_owns (h : Serialized first db) (owns : db.Owns c t txn) :
    Turn first db c t := by
  refine h.turn fun other hother => ?_
  rw [owns.found] at hother
  cases hother
  exact owns.connection

/-- A turn begins for a transaction that was not started yet. -/
theorem Serialized.turn_of_unknown (h : Serialized first db) (c : ConnectionId)
    (hunknown : db.directory.find? t = none) : Turn first db c t := by
  refine h.turn fun other hother => ?_
  rw [hunknown] at hother
  cases hother

/-- A turn ends when its own connection stands as it should. -/
theorem Turn.close (turn : Turn first db c t) (session : db.Session c) : Serialized first db where
  twoPhase := turn.twoPhase
  registry := turn.registry
  locate := turn.locate
  known := turn.known
  sessions d := by
    by_cases hd : d = c
    · exact hd ▸ session
    · exact turn.others d hd
  explained := turn.explained

/-- The line, the number of connections, the present, the bare requests and locks that continue the
present ones concern no connection. -/
theorem Serialized.step (h : Serialized first db) (htwoPhase : db'.TwoPhase)
    (hattached : db'.attached = db.attached) (hdirectory : db'.directory = db.directory)
    (hoperations : db'.operations = db.operations)
    (hlocks : ∀ u k, ¬ db.Shut u → db.Writes u k → db'.Writes u k)
    (hregistry : db'.registry = db.registry) (hstore : db'.store = db.store)
    (hcommits : db'.commits = db.commits) : Serialized first db' := by
  have hcontents : db'.contents = db.contents := by
    unfold contents
    rw [hregistry, hstore]
  have hlocate : db'.locate = db.locate := by
    show Serial.locate db'.registry db'.store = Serial.locate db.registry db.store
    rw [hregistry, hstore]
  have hcommitted : db'.Committed = db.Committed := by
    unfold Committed
    rw [hcommits]
  have hkeeps : db.Keeps db' := .of_eq (by rw [hdirectory])
  have hcalls : ∀ d, db'.callsOn d = db.callsOn d := by
    intro d
    unfold callsOn
    rw [hoperations]
  -- Nothing that a session is judged by has changed, for any connection.
  have hspares : ∀ c t, Spares c t db db' := by
    intro c t
    exact {
      attached := fun d _ => by rw [hattached]
      current := fun d _ => by rw [hdirectory]
      found := fun u _ _ => by rw [hdirectory]
      placed := hkeeps
      calls := fun d _ => hcalls d
      writes := fun u k _ => hlocks u k
      contents := fun u k _ _ _ => by rw [hcontents]
      registry := hregistry
      locate := hlocate
      committed := fun u _ => by rw [hcommitted] }
  -- The step is a turn of another connection for a transaction that was never started.
  obtain ⟨t, hunknown⟩ : ∃ t, db.directory.find? t = none :=
    ⟨_, db.directory.find?_place_new 0 default default⟩
  refine ⟨htwoPhase, hregistry.trans h.registry, hlocate.trans h.locate, fun u hu => ?_, fun d => ?_,
    h.explained.mono hcommits hcontents fun u _ => ?_⟩
  · rw [hcommitted] at hu
    obtain ⟨txn, hfound⟩ := h.known u hu
    rw [← hdirectory] at hfound
    exact ⟨txn, hfound⟩
  · refine (h.sessions d).spare (hspares (d + 1) t) (Nat.ne_of_lt (Nat.lt_succ_self d))
      fun txn hfound => ?_
    rw [hunknown] at hfound
    cases hfound
  · unfold Database.history
    rw [hoperations]

end TxStore.Database
