import TxStore.Proofs.Database.Operations
import TxStore.Proofs.Database.Tracks
import TxStore.Proofs.Database.TwoPhase

/-!
# Connections that make one call at a time

Of a connection that makes one call at a time all calls but the last are over, and it has at most
one transaction. `Session` says how such a connection stands between two turns. Its transaction is
tracked (`Tracks`): if its statements are executed alone, on any contents that agree with the tables
in the rows that it has locked, they yield what its callers were told and leave what its write
buffer shows.

A turn of one connection changes little that another session speaks of (`Spares`): it takes no lock
from an open transaction, and changes no row that another one has locked. So the other sessions
stand as before (`Session.spare`).
-/

namespace TxStore

/-- What an operation adds to the history of its transaction when its caller is told `r`. -/
def Operation.told (op : Operation) (r : Result) : List (Statement × Result) :=
  match op.call with
  | .statement s => [(s, r)]
  | .commit | .rollback | .disconnect => []

/-- Whether calls make up a history of `t`. -/
def Tells (calls : List (TaskId × Operation)) (t : TransactionId)
    (history : List (Statement × Result)) : Prop :=
  (calls.filterMap fun p => p.2.item? t) = history.map settled

section

variable {t : TransactionId} {op : Operation} {me : Lock.Holder} {earlier : List (TaskId × Operation)}
  {past : List (Statement × Result)} {r : Result}

/-- The item of an operation whose caller is told `r`. -/
theorem Operation.item?_of_outcome (hme : op.holder = some me) (htxn : me.txn = t)
    (houtcome : op.outcome? = some r) : (op.item? t).toList = (op.told r).map settled := by
  subst htxn
  unfold told
  cases hcall : op.call with
  | statement s =>
    rw [op.item?_of_statement hme hcall, houtcome]
    rfl
  | commit => rw [op.item?_of_call fun s heq => by rw [hcall] at heq; cases heq]; rfl
  | rollback => rw [op.item?_of_call fun s heq => by rw [hcall] at heq; cases heq]; rfl
  | disconnect => rw [op.item?_of_call fun s heq => by rw [hcall] at heq; cases heq]; rfl

/-- A call whose caller is told `r` adds to the history. -/
theorem Tells.concat (h : Tells earlier t past) (i : TaskId) (hme : op.holder = some me)
    (htxn : me.txn = t) (houtcome : op.outcome? = some r) :
    Tells (earlier ++ [(i, op)]) t (past ++ op.told r) := by
  have hlast : [(i, op)].filterMap (fun p => p.2.item? t) = (op.item? t).toList := by
    rw [List.filterMap_cons]
    cases op.item? t <;> rfl
  unfold Tells
  rw [List.filterMap_append, hlast, List.map_append, h, op.item?_of_outcome hme htxn houtcome]

/-- Calls of other transactions make up no history. -/
theorem tells_nil {calls : List (TaskId × Operation)}
    (h : ∀ p ∈ calls, ∀ me, p.2.holder = some me → me.txn ≠ t) : Tells calls t [] :=
  List.filterMap_eq_nil_iff.mpr fun p hp => Operation.item?_of_ne (h p hp)

end

namespace Database

variable {db db' : Database MemoryTable} {c d : ConnectionId} {t u : TransactionId}
  {txn : Transaction} {log : WriteBuffer} {past : List (Statement × Result)} {s : Statement}
  {r : Result} {k : Lock.Key} {target : Target}

/-- Whether the writes of a transaction were applied. -/
def Committed (db : Database MemoryTable) (t : TransactionId) : Prop :=
  ∃ commit ∈ db.commits, commit.txn = t

/-- A connection is attached to a transaction of its own. -/
structure Owns (db : Database MemoryTable) (c : ConnectionId) (t : TransactionId)
    (txn : Transaction) : Prop where
  /-- The connection is attached to it. -/
  attached : db.attached.get? c = some t
  /-- The directory knows that. -/
  current : db.directory.current.get? c = some t
  /-- It was started. -/
  found : db.directory.find? t = some txn
  /-- It was started for this connection. -/
  connection : txn.connection = c

/-- A connection has just started a transaction and made no call for it. -/
structure Fresh (db : Database MemoryTable) (c : ConnectionId) (t : TransactionId)
    (txn : Transaction) : Prop where
  /-- The connection has it. -/
  owns : db.Owns c t txn
  /-- It is active. -/
  phase : txn.phase = .active
  /-- No operation is in flight. -/
  idle : txn.inFlight = 0
  /-- Nothing is buffered. -/
  empty : txn.log = .empty
  /-- All calls belong to other transactions. -/
  alone : ∀ p ∈ db.callsOn c, ∀ me, p.2.holder = some me → me.txn ≠ t
  /-- It is not committed. -/
  uncommitted : ¬ db.Committed t

/-- A call belongs to a transaction of its connection, if to any. -/
def Placed (db : Database MemoryTable) (c : ConnectionId) (op : Operation) : Prop :=
  ∀ me, op.holder = some me → ∃ txn, db.directory.find? me.txn = some txn ∧ txn.connection = c

/-- A call is over, and has succeeded if it is the commit of a transaction. -/
structure Answered (db : Database MemoryTable) (c : ConnectionId) (op : Operation) : Prop where
  /-- It is over. -/
  ended : op.IsOver
  /-- Its transaction is of this connection. -/
  placed : db.Placed c op
  /-- Commits succeed. -/
  success : ∀ me, op.holder = some me → op.call = .commit → op.outcome? = some (.ok none)

/-- All calls of a connection but the last are over. -/
structure Last (db : Database MemoryTable) (c : ConnectionId)
    (earlier : List (TaskId × Operation)) (i : TaskId) (op : Operation) : Prop where
  /-- The calls. -/
  calls : db.callsOn c = earlier ++ [(i, op)]
  /-- The calls before the last one are over. -/
  answered : ∀ p ∈ earlier, db.Answered c p.2
  /-- The transaction of the last one is of this connection. -/
  placed : db.Placed c op

/-- The last call of a connection belongs to the transaction that the connection has. -/
structure Busy (db : Database MemoryTable) (c : ConnectionId) (t : TransactionId)
    (txn : Transaction) (earlier : List (TaskId × Operation)) (i : TaskId) (op : Operation)
    (me : Lock.Holder) (past : List (Statement × Result)) : Prop where
  /-- The transaction. -/
  owns : db.Owns c t txn
  /-- The call. -/
  last : db.Last c earlier i op
  /-- The last call belongs to a transaction. -/
  holder : op.holder = some me
  /-- It is this one. -/
  txn : me.txn = t
  /-- What the transaction has executed before. -/
  tells : Tells earlier t past

/-- A connection has no transaction, and all its calls are over. -/
structure Detached (db : Database MemoryTable) (c : ConnectionId) : Prop where
  /-- The connection is attached to none. -/
  attached : db.attached.get? c = none
  /-- The directory knows of none. -/
  current : db.directory.current.get? c = none
  /-- All calls are over. -/
  answered : ∀ p ∈ db.callsOn c, db.Answered c p.2

/-- A connection has a transaction, and all its calls are over. -/
structure Resting (db : Database MemoryTable) (c : ConnectionId) (t : TransactionId)
    (txn : Transaction) (past : List (Statement × Result)) : Prop where
  /-- The transaction. -/
  owns : db.Owns c t txn
  /-- All calls are over. -/
  answered : ∀ p ∈ db.callsOn c, db.Answered c p.2
  /-- What the transaction has executed. -/
  tells : Tells (db.callsOn c) t past
  /-- It is not committed. -/
  uncommitted : ¬ db.Committed t
  /-- It is active. -/
  phase : txn.phase = .active
  /-- No operation is in flight. -/
  idle : txn.inFlight = 0
  /-- It keeps track of its statements. -/
  tracks : db.Tracks t txn.log past

/-- How a connection stands between two turns, if it makes one call at a time. -/
inductive Session (db : Database MemoryTable) (c : ConnectionId) : Prop where
  /-- It has no transaction. -/
  | detached (detached : db.Detached c)
  /-- It has a transaction and no call that is not over. -/
  | resting {t : TransactionId} {txn : Transaction} {past : List (Statement × Result)}
      (resting : db.Resting c t txn past)
  /-- It executes a statement. -/
  | running {t : TransactionId} {txn : Transaction} {earlier : List (TaskId × Operation)}
      {i : TaskId} {op : Operation} {me : Lock.Holder} {past : List (Statement × Result)}
      {s : Statement} (busy : db.Busy c t txn earlier i op me past)
      (uncommitted : ¬ db.Committed t) (phase : txn.phase = .active) (entered : txn.inFlight = 1)
      (call : op.call = .statement s) (midway : db.Midway t txn.log s op.stand)
      (tracks : db.Tracks t txn.log past)
  /-- The writes of its transaction are about to be applied. -/
  | applying {t : TransactionId} {txn : Transaction} {earlier : List (TaskId × Operation)}
      {i : TaskId} {op : Operation} {me : Lock.Holder} {past : List (Statement × Result)}
      {r : Result} (busy : db.Busy c t txn earlier i op me past)
      (uncommitted : ¬ db.Committed t) (phase : txn.phase = .committing)
      (stand : op.stand = .applying (db.plan txn.log.entries) r)
      (success : op.call = .commit → r = .ok none)
      (tracks : db.Tracks t txn.log (past ++ op.told r))
  /-- The writes of its transaction have been applied. -/
  | applied {t : TransactionId} {txn : Transaction} {earlier : List (TaskId × Operation)}
      {i : TaskId} {op : Operation} {me : Lock.Holder} {past : List (Statement × Result)}
      {r : Result} (busy : db.Busy c t txn earlier i op me past)
      (phase : txn.phase = .committing) (stand : op.stand = .applied [] r)
      (success : op.call = .commit → r = .ok none)

/-- No transaction is lost or changes its connection. -/
def Keeps (db db' : Database MemoryTable) : Prop :=
  ∀ u txn, db.directory.find? u = some txn →
    ∃ txn', db'.directory.find? u = some txn' ∧ txn'.connection = txn.connection

/-- What a turn of connection `c` for its transaction `t` leaves to the others. A small change is
told by the fields that it does not leave as they are. -/
structure Spares (c : ConnectionId) (t : TransactionId) (db db' : Database MemoryTable) :
    Prop where
  /-- Other connections stay attached. -/
  attached : ∀ d, d ≠ c → db'.attached.get? d = db.attached.get? d := by
    exact fun _ _ => rfl
  /-- Other connections keep their transactions. -/
  current : ∀ d, d ≠ c → db'.directory.current.get? d = db.directory.current.get? d := by
    exact fun _ _ => rfl
  /-- Other transactions are the same. -/
  found : ∀ u, u ≠ t → db.Known u → db'.directory.find? u = db.directory.find? u := by
    exact fun _ _ _ => rfl
  /-- No transaction is lost. -/
  placed : db.Keeps db' := by
    exact fun _ txn hfound => ⟨txn, hfound, rfl⟩
  /-- Calls on other connections are the same. -/
  calls : ∀ d, d ≠ c → db'.callsOn d = db.callsOn d := by
    exact fun _ _ => rfl
  /-- Open transactions keep their locks. -/
  writes : ∀ u k, u ≠ t → ¬ db.Shut u → db.Writes u k → db'.Writes u k := by
    exact fun _ _ _ _ hk => hk
  /-- The rows that they have locked are the same. -/
  contents : ∀ u k, u ≠ t → ¬ db.Shut u → db.Writes u k → db'.contents k = db.contents k := by
    exact fun _ _ _ _ _ => rfl
  /-- The same tables are registered. -/
  registry : db'.registry = db.registry := by
    rfl
  /-- Statements are checked alike. -/
  locate : db'.locate = db.locate := by
    rfl
  /-- Nothing else is committed. -/
  committed : ∀ u, u ≠ t → (db'.Committed u ↔ db.Committed u) := by
    exact fun _ _ => Iff.rfl

/-! ## What a turn leaves to the others -/

section

variable {txn' : Transaction} {earlier : List (TaskId × Operation)} {i : TaskId} {op : Operation}
  {me : Lock.Holder}

/-- A transaction that is active or about to commit is not shut. -/
theorem Owns.not_shut (h : db.Owns c t txn) (hopen : txn.IsOpen) : ¬ db.Shut t := by
  rintro ⟨other, hother, hclosed⟩
  rw [h.found] at hother
  cases hother
  exact hclosed hopen

/-- Changes elsewhere lose no transaction. -/
theorem Keeps.of_eq (h : db'.directory.transactions = db.directory.transactions) :
    db.Keeps db' := by
  intro u txn hfound
  refine ⟨txn, ?_, rfl⟩
  unfold Directory.find?
  rw [h]
  exact hfound

/-- Changes that lose no transaction can be chained. -/
theorem Keeps.trans {db'' : Database MemoryTable} (h : db.Keeps db') (h' : db'.Keeps db'') :
    db.Keeps db'' := by
  intro u txn hfound
  obtain ⟨txn', hfound', hsame⟩ := h u txn hfound
  obtain ⟨txn'', hfound'', hsame'⟩ := h' u txn' hfound'
  exact ⟨txn'', hfound'', hsame'.trans hsame⟩

/-- A call keeps its place. -/
theorem Placed.mono (h : db.Placed c op) (hkeeps : db.Keeps db') : db'.Placed c op := by
  intro me hme
  obtain ⟨txn, hfound, hconnection⟩ := h me hme
  obtain ⟨txn', hfound', hsame⟩ := hkeeps _ _ hfound
  exact ⟨txn', hfound', hsame.trans hconnection⟩

/-- A call that is answered stays so. -/
theorem Answered.mono (h : db.Answered c op) (hkeeps : db.Keeps db') : db'.Answered c op :=
  ⟨h.ended, h.placed.mono hkeeps, h.success⟩

/-- The last call stays the last as long as no other is made. -/
theorem Last.mono (h : db.Last c earlier i op) (hcalls : db'.callsOn c = db.callsOn c)
    (hkeeps : db.Keeps db') : db'.Last c earlier i op :=
  ⟨hcalls.trans h.calls, fun p hp => (h.answered p hp).mono hkeeps, h.placed.mono hkeeps⟩

/-- Another connection keeps its transaction. -/
theorem Owns.spare (h : db.Owns d u txn) (spares : Spares c t db db') (hd : d ≠ c) (hu : u ≠ t) :
    db'.Owns d u txn where
  attached := (spares.attached d hd).trans h.attached
  current := (spares.current d hd).trans h.current
  found := (spares.found u hu ⟨txn, h.found⟩).trans h.found
  connection := h.connection

/-- Another connection's calls stand where they stood. -/
theorem Busy.spare (h : db.Busy d u txn earlier i op me past) (spares : Spares c t db db')
    (hd : d ≠ c) (hu : u ≠ t) : db'.Busy d u txn earlier i op me past where
  owns := h.owns.spare spares hd hu
  last := h.last.mono (spares.calls d hd) spares.placed
  holder := h.holder
  txn := h.txn
  tells := h.tells

/-- Another connection's transaction keeps track. -/
theorem Tracks.spare (h : db.Tracks u log past) (spares : Spares c t db db') (hu : u ≠ t)
    (hopen : ¬ db.Shut u) : db'.Tracks u log past :=
  h.mono spares.locate (fun k hk => spares.writes u k hu hopen hk)
    fun k hk => spares.contents u k hu hopen hk

/-- Another session stands as before. -/
theorem Session.spare (h : db.Session d) (spares : Spares c t db db') (hd : d ≠ c)
    (hmine : ∀ txn, db.directory.find? t = some txn → txn.connection = c) : db'.Session d := by
  -- `t` is a transaction of `c`, so the session of `d` is about another one.
  have hother : ∀ {u txn}, db.Owns d u txn → u ≠ t := by
    rintro u txn howns rfl
    exact hd (howns.connection.symm.trans (hmine _ howns.found))
  cases h with
  | detached detached =>
    refine .detached ⟨(spares.attached d hd).trans detached.attached,
      (spares.current d hd).trans detached.current, ?_⟩
    rw [spares.calls d hd]
    exact fun p hp => (detached.answered p hp).mono spares.placed
  | resting resting =>
    have hu := hother resting.owns
    have hopen := resting.owns.not_shut (.inl resting.phase)
    refine .resting ⟨resting.owns.spare spares hd hu, ?_, ?_,
      fun hcommitted => resting.uncommitted ((spares.committed _ hu).mp hcommitted), resting.phase,
      resting.idle, resting.tracks.spare spares hu hopen⟩
    · rw [spares.calls d hd]
      exact fun p hp => (resting.answered p hp).mono spares.placed
    · rw [spares.calls d hd]
      exact resting.tells
  | running busy uncommitted phase entered call midway tracks =>
    have hu := hother busy.owns
    have hopen := busy.owns.not_shut (.inl phase)
    exact .running (busy.spare spares hd hu)
      (fun hcommitted => uncommitted ((spares.committed _ hu).mp hcommitted)) phase entered call
      (midway.mono spares.registry spares.locate (fun k hk => spares.writes _ k hu hopen hk)
        fun k hk => spares.contents _ k hu hopen hk)
      (tracks.spare spares hu hopen)
  | applying busy uncommitted phase stand success tracks =>
    have hu := hother busy.owns
    have hopen := busy.owns.not_shut (.inr phase)
    refine .applying (busy.spare spares hd hu)
      (fun hcommitted => uncommitted ((spares.committed _ hu).mp hcommitted)) phase ?_ success
      (tracks.spare spares hu hopen)
    unfold plan at stand ⊢
    rw [spares.registry]
    exact stand
  | applied busy phase stand success =>
    exact .applied (busy.spare spares hd (hother busy.owns)) phase stand success

end

/-- The calls on a connection belong to its transactions. -/
theorem Session.placed (h : db.Session c) {p : TaskId × Operation} (hp : p ∈ db.callsOn c)
    {me : Lock.Holder} (hme : p.2.holder = some me) :
    ∃ txn, db.directory.find? me.txn = some txn ∧ txn.connection = c := by
  have hbusy : ∀ {t txn earlier i op me' past}, db.Busy c t txn earlier i op me' past →
      ∃ txn, db.directory.find? me.txn = some txn ∧ txn.connection = c := by
    intro t txn earlier i op me' past busy
    rw [busy.last.calls] at hp
    rcases List.mem_append.mp hp with hp | hp
    · exact (busy.last.answered p hp).placed me hme
    · cases List.mem_singleton.mp hp
      exact busy.last.placed me hme
  cases h with
  | detached detached => exact (detached.answered p hp).placed me hme
  | resting resting => exact (resting.answered p hp).placed me hme
  | running busy uncommitted phase entered call midway tracks => exact hbusy busy
  | applying busy uncommitted phase stand success tracks => exact hbusy busy
  | applied busy phase stand success => exact hbusy busy

/-- Commits succeed, as far as they have come. -/
theorem Session.success (h : db.Session c) {p : TaskId × Operation} (hp : p ∈ db.callsOn c)
    {me : Lock.Holder} (hme : p.2.holder = some me) (hcall : p.2.call = .commit) :
    p.2.outcome? = some (.ok none) := by
  have hbusy : ∀ {t txn earlier i op me' past}, db.Busy c t txn earlier i op me' past →
      (op.call = .commit → op.outcome? = some (.ok none)) → p.2.outcome? = some (.ok none) := by
    intro t txn earlier i op me' past busy hlast
    rw [busy.last.calls] at hp
    rcases List.mem_append.mp hp with hp | hp
    · exact (busy.last.answered p hp).success me hme hcall
    · cases List.mem_singleton.mp hp
      exact hlast hcall
  -- The last call commits only where it is applied, and then its result is settled.
  cases h with
  | detached detached => exact (detached.answered p hp).success me hme hcall
  | resting resting => exact (resting.answered p hp).success me hme hcall
  | running busy uncommitted phase entered call midway tracks =>
    refine hbusy busy fun hcommit => ?_
    rw [call] at hcommit
    cases hcommit
  | applying busy uncommitted phase stand success tracks =>
    refine hbusy busy fun hcommit => ?_
    unfold Operation.outcome?
    rw [stand, success hcommit]
  | applied busy phase stand success =>
    refine hbusy busy fun hcommit => ?_
    unfold Operation.outcome?
    rw [stand, success hcommit]
    rfl

/-! ## A call in its turn -/

section

variable {txn' old : Transaction} {earlier : List (TaskId × Operation)} {i : TaskId}
  {op : Operation} {me : Lock.Holder}

/-- The last call is a call on its connection. -/
theorem Last.mem (h : db.Last c earlier i op) : (i, op) ∈ db.callsOn c := by
  rw [h.calls]
  exact List.mem_append_right _ (List.mem_singleton.mpr rfl)

/-- The last call is a task. -/
theorem Last.task (h : db.Last c earlier i op) :
    db.tasks[i]? = some (.operation op) ∧ op.connection = c :=
  mem_callsOn.mp h.mem

/-- Every call is over, unless it is the last one. -/
theorem Last.over_or_last {j : TaskId} {other : Operation} (h : db.Last c earlier i op)
    (hmem : (j, other) ∈ db.callsOn c) : other.IsOver ∨ j = i ∧ other = op := by
  rw [h.calls] at hmem
  rcases List.mem_append.mp hmem with hmem | hmem
  · exact .inl (h.answered _ hmem).ended
  · cases List.mem_singleton.mp hmem
    exact .inr ⟨rfl, rfl⟩

/-- The last call may move. -/
theorem Last.setStand (h : db.Last c earlier i op) (stand : Stand) :
    (db.setStand i stand).Last c earlier i { op with stand := stand } := by
  have hcalls := callsOn_setStand h.calls stand
  have hkeeps : db.Keeps (db.setStand i stand) := by
    rw [setStand_eq]
    exact .of_eq rfl
  exact ⟨hcalls, fun p hp => (h.answered p hp).mono hkeeps, h.placed.mono hkeeps⟩

/-- When the last call is over, all calls are answered. -/
theorem Last.answered_finish (h : db.Last c earlier i op)
    (hsuccess : op.holder.isSome → op.call = .commit → r = .ok none) :
    ∀ p ∈ (db.finish i r).callsOn c, (db.finish i r).Answered c p.2 := by
  have hmoved : (db.finish i r).Last c earlier i { op with stand := .finished r } :=
    h.setStand (.finished r)
  intro p hp
  rw [hmoved.calls] at hp
  rcases List.mem_append.mp hp with hp | hp
  · exact hmoved.answered p hp
  · cases List.mem_singleton.mp hp
    refine ⟨⟨r, rfl⟩, hmoved.placed, fun me hme hcall => ?_⟩
    have hholder : op.holder = some me := hme
    show some r = some (.ok none)
    rw [hsuccess (by rw [hholder]; rfl) hcall]

/-- The last call runs for its transaction. -/
theorem Busy.runs (busy : db.Busy c t txn earlier i op me past) : db.Runs i op me :=
  ⟨busy.last.task.1, busy.holder⟩

/-- An operation of the connection is over, unless it is the last call and runs for its transaction.
-/
theorem Busy.over_or_last {j : TaskId} {other : Operation} {me' : Lock.Holder}
    (busy : db.Busy c t txn earlier i op me past) (hruns : db.Runs j other me')
    (hconnection : other.connection = c) : other.IsOver ∨ j = i ∧ other = op ∧ me' = me := by
  rcases busy.last.over_or_last (mem_callsOn.mpr ⟨hruns.1, hconnection⟩) with hover | ⟨hij, rfl⟩
  · exact .inl hover
  · exact .inr ⟨hij, rfl, Option.some.inj (hruns.2.symm.trans busy.holder)⟩

/-- Nothing happens to a call by changes elsewhere. -/
theorem Busy.of_eq (busy : db.Busy c t txn earlier i op me past)
    (hattached : db'.attached = db.attached) (hdirectory : db'.directory = db.directory)
    (htasks : db'.tasks = db.tasks) : db'.Busy c t txn earlier i op me past := by
  have hcalls : db'.callsOn c = db.callsOn c := by
    unfold callsOn operations
    rw [htasks]
  refine ⟨⟨?_, ?_, ?_, busy.owns.connection⟩,
    busy.last.mono hcalls (.of_eq (by rw [hdirectory])), busy.holder, busy.txn, busy.tells⟩
  · rw [hattached]
    exact busy.owns.attached
  · rw [hdirectory]
    exact busy.owns.current
  · rw [hdirectory]
    exact busy.owns.found

/-- Replacing a transaction by one of the same connection keeps all in place. -/
theorem keeps_set (hfound : db.directory.find? t = some txn)
    (hconnection : txn'.connection = txn.connection) :
    db.Keeps (db.withDirectory (db.directory.set t txn')) := by
  intro u old hold
  have hfind := Directory.find?_set hfound txn' u
  by_cases htu : t = u
  · subst htu
    rw [hfound] at hold
    cases hold
    exact ⟨txn', hfind.trans (if_pos rfl), hconnection⟩
  · exact ⟨old, hfind.trans ((if_neg htu).trans hold), rfl⟩

/-- A fresh transaction stays so when another one changes. -/
theorem Fresh.set (h : db.Fresh c u txn) (hfound : db.directory.find? t = some old) (hne : t ≠ u) :
    (db.withDirectory (db.directory.set t txn')).Fresh c u txn := by
  have hfind := (Directory.find?_set hfound txn' u).trans (if_neg hne)
  exact ⟨⟨h.owns.attached, h.owns.current, hfind.trans h.owns.found, h.owns.connection⟩, h.phase,
    h.idle, h.empty, h.alone, h.uncommitted⟩

/-- Its transaction may change, but not its connection. -/
theorem Busy.set (busy : db.Busy c t txn earlier i op me past)
    (hconnection : txn'.connection = txn.connection) :
    (db.withDirectory (db.directory.set t txn')).Busy c t txn' earlier i op me past := by
  have hfound := (Directory.find?_set busy.owns.found txn' t).trans (if_pos rfl)
  exact ⟨⟨busy.owns.attached, busy.owns.current, hfound, hconnection.trans busy.owns.connection⟩,
    busy.last.mono rfl (keeps_set busy.owns.found hconnection), busy.holder, busy.txn, busy.tells⟩

/-- It may move. -/
theorem Busy.setStand (busy : db.Busy c t txn earlier i op me past) (stand : Stand) :
    (db.setStand i stand).Busy c t txn earlier i { op with stand := stand } me past := by
  have hlast := busy.last.setStand stand
  rw [setStand_eq] at *
  exact ⟨⟨busy.owns.attached, busy.owns.current, busy.owns.found, busy.owns.connection⟩, hlast,
    busy.holder, busy.txn, busy.tells⟩

/-- A call of a transaction that is not committed is in no committed transaction's history. -/
theorem Busy.item?_eq (busy : db.Busy c t txn earlier i op me past)
    (uncommitted : ¬ db.Committed t) (stand : Stand) (u : TransactionId) (hu : db.Committed u) :
    ({ op with stand := stand } : Operation).item? u = op.item? u := by
  have hother : ∀ me', op.holder = some me' → me'.txn ≠ u := by
    rintro me' hme rfl
    rw [busy.holder] at hme
    cases hme
    exact uncommitted (busy.txn ▸ hu)
  have hmoved : ({ op with stand := stand } : Operation).item? u = none :=
    Operation.item?_of_ne hother
  exact hmoved.trans (Operation.item?_of_ne hother).symm

/-- When it is over, what its caller was told is in the history. -/
theorem Busy.tells_finish (busy : db.Busy c t txn earlier i op me past) :
    Tells ((db.finish i r).callsOn c) t (past ++ op.told r) := by
  have hcalls : (db.finish i r).callsOn c =
    earlier ++ [(i, { op with stand := .finished r })] := (busy.last.setStand (.finished r)).calls
  rw [hcalls]
  exact busy.tells.concat i busy.holder busy.txn rfl

end

end Database

end TxStore
