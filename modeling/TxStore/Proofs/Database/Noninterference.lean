import TxStore.Proofs.Database.Own
import TxStore.Proofs.Database.Serializable

/-!
# Connections with rows of their own do not interfere

A connection that makes one call at a time, and whose rows nobody else names, is told what its
client would be told if it had the database for itself. The proof runs along with the client that is
alone (`Solo`): `Rests` and `Awaits` say where the connection stands beside it, without a call to
wait for and with one, and `Stage` adds the answers so far. What happens elsewhere leaves the
connection where it stands (`Stage.frame`), a turn of one of its own calls brings it on
(`Stage.resume`), and so do its calls (`Follows.submit`, `Follows.begin`).

Two runs in which the connection asks for the same are both compared with the same client that is
alone, and so the connection cannot tell them apart (`noninterference_of_separate`). Neither the
clock nor the numbers of transactions, tickets and tasks show in what it is told; the only one that
a caller is given, the identifier of the transaction that it begins, is left out of what is compared
(`begun`).
-/

namespace TxStore

/-- What is asked on a connection in an action, if anything is. -/
def Action.ask? {σ : Type} (c : ConnectionId) : Action σ → Option Ask
  | .beginTransaction d => if d = c then some .begin else none
  | .submit d call => if d = c then some (.call call) else none
  | .connect | .createTable _ | .dropTable _ | .requestLock _ _ _ | .resume _ | .reach _ => none

/-- What a client has in hand when it has asked for something. -/
inductive Receipt where
  /-- The answer. -/
  | answered (r : Result)
  /-- The number of the task that is to answer. -/
  | pending (i : TaskId)

namespace Database

variable {db db' first : Database MemoryTable} {K : Set Lock.Key} {c : ConnectionId}
  {clock : Clock} {tables : List MemoryTable} {action : Action MemoryTable}
  {i : TaskId} {r : Result} {S : Solo} {asks : List Ask} {inHand : List Receipt}

/-- What a client is told that begins a transaction, less the identifier of the transaction. -/
def begun : Except Cause TransactionId → Result
  | .ok _ => .ok none
  | .error cause => .error cause

/-- What a client has in hand after an action in which it has asked for something. -/
def receipt? (db : Database MemoryTable) (c : ConnectionId) : Action MemoryTable → Option Receipt
  | .beginTransaction d =>
    if d = c then some (.answered (begun (db.beginTransaction d).1)) else none
  | .submit d _ => if d = c then some (.pending db.tasks.size) else none
  | .connect | .createTable _ | .dropTable _ | .requestLock _ _ _ | .resume _ | .reach _ => none

/-- What it has in hand after several actions. -/
def receipts (db : Database MemoryTable) (c : ConnectionId) :
    List (Action MemoryTable) → List Receipt
  | [] => []
  | action :: rest => (db.receipt? c action).toList ++ (db.perform action).receipts c rest

/-- The answer to what the client has asked for, if it has one yet. -/
def reply? (db : Database MemoryTable) : Receipt → Option Result
  | .answered r => some r
  | .pending i => db.result? i

/-- The answers that a connection has after several actions, one for everything that it has asked
for. -/
def replies (db : Database MemoryTable) (c : ConnectionId) (actions : List (Action MemoryTable)) :
    List (Option Result) :=
  (db.receipts c actions).map (actions.foldl perform db).reply?

/-- Whether the answer to what the client has asked for is `r`. -/
def Yields (db : Database MemoryTable) (c : ConnectionId) : Receipt → Result → Prop
  | .answered r', r => r' = r
  | .pending i, r => db.Told c i r

/-! ## How the connection stands -/

/-- A connection that has no call to wait for is, on its rows, where its client would be alone. -/
inductive Rests (K : Set Lock.Key) (c : ConnectionId) (db : Database MemoryTable) :
    Solo → Prop where
  /-- It has no transaction. -/
  | detached {B : Contents} (attached : db.attached.get? c = none)
      (base : Set.EqOn B db.contents K) : Rests K c db ⟨B, none⟩
  /-- It has one. -/
  | holding {B V : Contents} {t : TransactionId} {txn : Transaction} (holds : db.Holds c t txn 0)
      (base : Set.EqOn B db.contents K) (shows : db.Shows K txn.log V) : Rests K c db ⟨B, some V⟩

/-- A connection waits for call `i`, which is to yield `r`, and will then be where its client would
be alone. -/
inductive Awaits (K : Set Lock.Key) (c : ConnectionId) (db : Database MemoryTable) (i : TaskId) :
    Result → Solo → Prop where
  /-- The call is a statement that is at work. -/
  | serves {op : Operation} {me : Lock.Holder} {txn : Transaction} {s : Statement} {B V : Contents}
      (runs : db.Runs i op me) (connection : op.connection = c) (call : op.call = .statement s)
      (holds : db.Holds c me.txn txn 1) (base : Set.EqOn B db.contents K)
      (shows : db.Shows K txn.log V) (knows : db.Knows txn.log s op.stand) :
      Awaits K c db i (Serial.statement db.locate s V).1
        (if op.opened then ⟨(Serial.statement db.locate s V).2, none⟩
          else ⟨B, some (Serial.statement db.locate s V).2⟩)
  /-- The writes of its transaction are about to be applied. -/
  | applies {op : Operation} {me : Lock.Holder} {txn : Transaction} {V : Contents} {r : Result}
      (connection : op.connection = c) (applies : Applies i op me txn r db)
      (shows : db.Shows K txn.log V) : Awaits K c db i r ⟨V, none⟩
  /-- They have been applied. -/
  | applied {op : Operation} {me : Lock.Holder} {V : Contents} {r : Result}
      (connection : op.connection = c) (runs : db.Runs i { op with stand := .applied [] r } me)
      (attached : db.attached.get? c = some me.txn) (base : Set.EqOn V db.contents K) :
      Awaits K c db i r ⟨V, none⟩

/-- A call that is awaited is one on the connection, and it is not over and not parked. -/
theorem Awaits.exists (h : Awaits K c db i r S) :
    ∃ op, db.tasks[i]? = some (.operation op) ∧ op.connection = c ∧ ¬ op.IsOver ∧
      (∀ target w, op.stand ≠ .locking target w) ∧ ∀ purpose r, op.stand ≠ .draining purpose r := by
  cases h with
  | @serves op me txn s B V runs connection call holds base shows knows =>
    refine ⟨op, runs.1, connection, Operation.not_over_of_working knows.working, ?_, ?_⟩
    · intro target w hstand
      rw [hstand] at knows
      exact knows
    · intro purpose r hstand
      rw [hstand] at knows
      exact knows
  | applies connection applies shows =>
    exact ⟨_, applies.runs.1, connection, Operation.not_over_of_closing rfl, nofun, nofun⟩
  | applied connection runs attached base =>
    exact ⟨_, runs.1, connection, Operation.not_over_of_closing rfl, nofun, nofun⟩

/-! ## What happens elsewhere -/

/-- A connection at rest stays so. -/
theorem Rests.frame (h : Rests K c db S) (htidy : db.Tidy) (hbeside : Beside c db db')
    (hlocate : db'.locate = db.locate) (hcontents : Set.EqOn db'.contents db.contents K) :
    Rests K c db' S := by
  cases h with
  | detached attached base =>
    exact .detached (hbeside.attached.trans attached) (base.trans hcontents.symm)
  | holding holds base shows =>
    exact .holding (holds.beside htidy hbeside) (base.trans hcontents.symm)
      (shows.frame hlocate hcontents)

/-- A connection that waits for a call goes on to wait for it. -/
theorem Awaits.frame (h : Awaits K c db i r S) (secluded : Secluded K c clock tables db)
    (hbeside : Beside c db db') (hregistry : db'.registry = db.registry)
    (hlocate : db'.locate = db.locate) (hcontents : Set.EqOn db'.contents db.contents K) :
    Awaits K c db' i r S := by
  have htidy := secluded.regular.tidy
  cases h with
  | serves runs connection call holds base shows knows =>
    have hk := (secluded.names _ _ _ runs.1 call).mpr connection
    rw [← hlocate]
    exact .serves (hbeside.runs runs connection) connection call (holds.beside htidy hbeside)
      (base.trans hcontents.symm) (shows.frame hlocate hcontents)
      (knows.frame hlocate hregistry hcontents hk)
  | applies connection applies shows =>
    subst connection
    exact .applies rfl (applies.beside htidy hbeside hregistry) (shows.frame hlocate hcontents)
  | applied connection runs attached base =>
    exact .applied connection (hbeside.runs runs connection) (hbeside.attached.trans attached)
      (base.trans hcontents.symm)

/-! ## The turns of its calls -/

/-- A call that has lost its connection the transaction leaves it at rest. -/
theorem Released.rests {op : Operation} {me : Lock.Holder} {V : Contents}
    (h : Released i op me db r db') (base : Set.EqOn V db.contents K) :
    db'.Told op.connection i r ∧ Rests K op.connection db' ⟨V, none⟩ := by
  refine ⟨h.runs.told, .detached h.attached ?_⟩
  rw [h.stable.same.1]
  exact base

/-- A turn of a statement leaves it at work, has its writes applied, or ends it. -/
theorem Secluded.serve {op : Operation} {me : Lock.Holder} {txn : Transaction} {s : Statement}
    {B V : Contents} (secluded : Secluded K c clock tables db) (runs : db.Runs i op me)
    (connection : op.connection = c) (call : op.call = .statement s)
    (holds : db.Holds c me.txn txn 1) (base : Set.EqOn B db.contents K)
    (shows : db.Shows K txn.log V) (knows : db.Knows txn.log s op.stand)
    (hr : r = (Serial.statement db.locate s V).1)
    (hS : S = if op.opened then ⟨(Serial.statement db.locate s V).2, none⟩
      else ⟨B, some (Serial.statement db.locate s V).2⟩) :
    Awaits K c (db.resume i) i r S ∨
      (db.resume i).Told c i r ∧ Rests K c (db.resume i) S := by
  subst connection
  rcases secluded.works runs rfl call holds shows knows with
    ⟨stand, hafter, hholds, hstable, hknows⟩ | ⟨ending, ⟨hresult, hshows⟩, mid, hlabors, hresume⟩
  · -- The body goes on, and what it was to do it is still to do.
    obtain ⟨hcontents, hlocate⟩ := hstable.same
    have hk := (secluded.names _ _ _ runs.1 call).mpr rfl
    have hbase : Set.EqOn B (db.resume i).contents K := hcontents ▸ base
    have hserves := Awaits.serves hafter rfl call hholds hbase (shows.stable hstable)
      (hknows.frame hlocate hstable.registry (hcontents ▸ Set.eqOn_refl _ _) hk)
    rw [hlocate] at hserves
    rw [hr, hS]
    exact .inl hserves
  · -- The body has ended. If the transaction was made for the statement it is to be committed yet.
    rw [← hr] at hresult
    rw [hresume]
    generalize (Serial.statement db.locate s V).2 = after at hS hshows
    cases hopened : op.opened with
    | false =>
      have hrested := hlabors.conclude runs hresult hopened
      rw [hopened] at hS
      right
      rw [hS]
      exact ⟨hrested.runs.told, .holding hrested.holds (hrested.stable.same.1 ▸ base)
        (hshows.stable hrested.stable)⟩
    | true =>
      rw [hopened] at hS
      rw [hS]
      by_cases hentries : (txn.log.appendAll
          (entriesAt (op.tableOf db.registry s) s (some ending))).entries = []
      · right
        exact (hlabors.released runs hresult hopened hentries).rests (hshows.base_of_nil hentries)
      · obtain ⟨happlies, hstable⟩ := hlabors.applies runs hresult hopened hentries
        left
        exact .applies rfl happlies (hshows.stable hstable)

/-- The writes of a connection are applied without an error, and then the tables hold what it saw.
-/
theorem Applies.awaits {op : Operation} {me : Lock.Holder} {txn : Transaction} {V : Contents}
    (h : Applies i op me txn r db) (hapart : db.registry.Apart) (shows : db.Shows K txn.log V) :
    Awaits K op.connection (db.resume i) i r ⟨V, none⟩ := by
  -- On the rows of the connection the tables are as the statements found them.
  obtain ⟨store, happly, hcontents, -⟩ := applyPlan_eq db hapart txn.log.entries db.store
    shows.sourced (shows.replays db.contents (Set.eqOn_refl _ _))
  obtain ⟨errors, herrors, hruns, hattached, -, hstore, hregistry, -⟩ := h.resume
  rw [happly] at herrors hstore
  obtain rfl : [] = errors := herrors
  refine .applied rfl hruns hattached ?_
  have hafter : (db.resume i).contents = txn.log.overlay db.contents := by
    unfold Database.contents
    rw [hstore, hregistry]
    exact hcontents
  rw [hafter]
  exact shows.view

/-- A turn of the call that the connection waits for leaves it waiting, or the call is over with the
result that it was to yield. -/
theorem Awaits.resume (h : Awaits K c db i r S) (secluded : Secluded K c clock tables db) :
    Awaits K c (db.resume i) i r S ∨
      (db.resume i).Told c i r ∧ Rests K c (db.resume i) S := by
  cases h with
  | serves runs connection call holds base shows knows =>
    exact secluded.serve runs connection call holds base shows knows rfl rfl
  | applies connection applies shows =>
    subst connection
    exact .inl (applies.awaits secluded.apart shows)
  | applied connection runs attached base =>
    subst connection
    have hreleased := released_resume runs attached
    rw [Result.join_nil] at hreleased
    exact .inr (hreleased.rests base)

/-! ## Its calls -/

/-- A statement on a connection without a transaction is told so where the settings make none for
it. -/
theorem submit_explicit (hdetached : db.attached.get? c = none)
    (hexplicit : db.config.implicitTransactions = false) (s : Statement) :
    db.submit c (.statement s) = db.push (.operation
      ⟨c, .statement s, none, false, .finished (.error Cause.notInTransaction)⟩) := by
  have hattach : db.attach c = (.error .notInTransaction, db) := by
    unfold Database.attach
    rw [hdetached, hexplicit]
    rfl
  unfold Database.submit Database.register
  rw [hattach]

/-- A call on a connection at rest is awaited, or it is over at once. -/
theorem Rests.submit (h : Rests K c db S) (secluded : Secluded K c clock tables db) (call : Call) :
    Awaits K c (db.submit c call) db.tasks.size
        (S.answer db.config.implicitTransactions db.locate (.call call)).1
        (S.answer db.config.implicitTransactions db.locate (.call call)).2 ∨
      (db.submit c call).Told c db.tasks.size
          (S.answer db.config.implicitTransactions db.locate (.call call)).1 ∧
        Rests K c (db.submit c call)
          (S.answer db.config.implicitTransactions db.locate (.call call)).2 := by
  have hnumbered := secluded.regular.twoPhase.numbered
  cases h with
  | detached attached base =>
    -- A call that is over at once leaves everything else as it was.
    have hpushed : ∀ {op : Operation}, Rests K c (db.push (.operation op)) ⟨_, none⟩ := fun {op} =>
      .detached attached base
    cases call with
    | statement s =>
      -- Whether a statement makes a transaction for itself is a matter of the settings.
      cases himplicit : db.config.implicitTransactions with
      | true =>
        obtain ⟨t, ts, hruns, hholds, hstable⟩ :=
          secluded.regular.tidy.submit_implicit attached himplicit s
        obtain ⟨hcontents, hlocate⟩ := hstable.same
        have hbase : Set.EqOn _ (db.submit c (.statement s)).contents K := hcontents ▸ base
        have hserves := Awaits.serves hruns rfl rfl hholds hbase (.empty hbase) trivial
        rw [hlocate] at hserves
        exact .inl hserves
      | false =>
        rw [submit_explicit attached himplicit]
        exact .inr ⟨told_push .., hpushed⟩
    | commit | rollback | disconnect =>
      rw [submit_detached attached rfl]
      exact .inr ⟨told_push .., hpushed⟩
  | @holding B V t txn holds base shows =>
    cases call with
    | statement s =>
      obtain ⟨hruns, htxn, hholds, hstable, -⟩ := holds.submit_statement hnumbered s
      obtain ⟨hcontents, hlocate⟩ := hstable.same
      rw [← htxn] at hholds
      have hbase : Set.EqOn B (db.submit c (.statement s)).contents K := hcontents ▸ base
      have hserves := Awaits.serves hruns rfl rfl hholds hbase (shows.stable hstable) trivial
      rw [hlocate] at hserves
      exact .inl hserves
    | commit =>
      -- Without writes there is nothing to wait for, and what the transaction sees is the tables.
      by_cases hentries : txn.log.entries = []
      · exact .inr ((holds.submit_commit_nil hnumbered hentries).rests (shows.base_of_nil hentries))
      · obtain ⟨happlies, -, hstable, -⟩ := holds.submit_commit hnumbered hentries
        exact .inl (.applies rfl happlies (shows.stable hstable))
    | rollback => exact .inr ((holds.submit_rollback hnumbered (.inl rfl)).rests base)
    | disconnect => exact .inr ((holds.submit_rollback hnumbered (.inr rfl)).rests base)

/-- A connection at rest may begin a transaction. -/
theorem Rests.begin (h : Rests K c db S) (htidy : db.Tidy) :
    db.receipt? c (.beginTransaction c) =
        some (.answered (S.answer db.config.implicitTransactions db.locate .begin).1) ∧
      Rests K c (db.beginTransaction c).2
        (S.answer db.config.implicitTransactions db.locate .begin).2 := by
  have hreceipt : db.receipt? c (.beginTransaction c) =
      some (.answered (begun (db.beginTransaction c).1)) := if_pos rfl
  rw [hreceipt]
  cases h with
  | detached attached base =>
    obtain ⟨t, ts, hstart, hholds⟩ := htidy.holds_placed attached .explicit
    rw [htidy.beginTransaction_of_detached attached]
    exact ⟨rfl, .holding hholds base (.empty base)⟩
  | holding holds base shows =>
    have hattached : db.attached.contains c := by
      unfold Dict.contains
      rw [holds.attached]
      rfl
    have hbegin : db.beginTransaction c = (.error .inTransaction, db) := by
      unfold Database.beginTransaction
      rw [if_pos hattached]
    rw [hbegin]
    exact ⟨rfl, .holding holds base shows⟩

/-! ## Whole runs -/

/-- An answer stays the same. -/
theorem Yields.perform {receipt : Receipt} (h : db.Yields c receipt r) (hregular : db.Regular clock)
    (hcoordinated : db.Coordinated action) : (db.perform action).Yields c receipt r := by
  cases receipt with
  | answered r' => exact h
  | pending i => exact hregular.told_perform hcoordinated h

/-- It is the one that the client gets. -/
theorem Yields.eq_of_reply? {receipt : Receipt} {r' : Result} (h : db.Yields c receipt r)
    (hreply : db.reply? receipt = some r') : r' = r := by
  cases receipt with
  | answered r₀ =>
    cases h
    exact (Option.some.inj hreply).symm
  | pending i => exact Option.some.inj (hreply.symm.trans h.result?)

/-- A connection without an open call has none until it makes one. -/
theorem Idle.perform (h : db.Idle c) (hregular : db.Regular clock)
    (hother : ∀ call, action ≠ .submit c call) : (db.perform action).Idle c := by
  rintro j op hop rfl
  by_contra hopen
  rcases hregular.tidy.open_before hregular.lifecycle hregular.twoPhase hop hopen with
    ⟨old, hold, hc, hunfinished⟩ | ⟨-, hsubmit⟩
  · exact hunfinished (h j old hold hc)
  · exact hother op.call hsubmit

/-- It has none any more when the only one that was open, or has just been made, is over. -/
theorem idle_of_told (hregular : db.Regular clock) (htold : (db.perform action).Told c i r)
    (honly : ∀ j op, db.tasks[j]? = some (.operation op) → op.connection = c → ¬ op.IsOver → j = i)
    (hmade : ∀ call, action = .submit c call → i = db.tasks.size) :
    (db.perform action).Idle c := by
  obtain ⟨told, htask, -, hstand⟩ := htold
  rintro j op hop rfl
  by_contra hopen
  -- A call that is open now was open before, or has just been made; either way it is `i`.
  obtain rfl : j = i := by
    rcases hregular.tidy.open_before hregular.lifecycle hregular.twoPhase hop hopen with
      ⟨old, hold, hc, hunfinished⟩ | ⟨hlast, hsubmit⟩
    · exact honly j old hold hc hunfinished
    · exact hlast.trans (hmade op.call hsubmit).symm
  cases hop.symm.trans htask
  exact hopen ⟨r, hstand⟩

/-- How a client stands that has asked for something and would have been told `results` if it were
alone. -/
inductive Stage (K : Set Lock.Key) (c : ConnectionId) (db : Database MemoryTable) :
    List Receipt → List Result × Solo → Prop where
  /-- It has all the answers. -/
  | rests {inHand : List Receipt} {results : List Result} {S : Solo}
      (told : List.Forall₂ (db.Yields c) inHand results) (idle : db.Idle c)
      (rests : Rests K c db S) :
      Stage K c db inHand (results, S)
  /-- It waits for the last one. -/
  | awaits {inHand : List Receipt} {results : List Result} {S : Solo} {i : TaskId} {r : Result}
      (told : List.Forall₂ (db.Yields c) inHand results) (awaits : Awaits K c db i r S) :
      Stage K c db (inHand ++ [.pending i]) (results ++ [r], S)

/-- What a client would be told, and what the database would be then, if the client were alone with
it. -/
def alone (first : Database MemoryTable) (asks : List Ask) : List Result × Solo :=
  Solo.play first.config.implicitTransactions first.locate ⟨first.contents, none⟩ asks

/-- One more answer is given as the others leave the database. -/
theorem alone_append (first : Database MemoryTable) (asks : List Ask) (ask : Ask) :
    first.alone (asks ++ [ask]) =
      ((first.alone asks).1 ++
          [((first.alone asks).2.answer first.config.implicitTransactions first.locate ask).1],
        ((first.alone asks).2.answer first.config.implicitTransactions first.locate ask).2) :=
  Solo.play_append rfl ask

/-- A client has asked for `asks` since `first` and has `inHand` for it, and stands as if it were
alone. -/
structure Follows (first : Database MemoryTable) (K : Set Lock.Key) (c : ConnectionId)
    (asks : List Ask) (inHand : List Receipt) (db : Database MemoryTable) : Prop where
  /-- The settings are the same. -/
  config : db.config = first.config
  /-- Statements are checked alike. -/
  locate : db.locate = first.locate
  /-- It stands so. -/
  stage : Stage K c db inHand (first.alone asks)

section

variable {played : List Result × Solo}

/-- A client that waits for nothing has all the answers. -/
theorem Stage.resting (h : Stage K c db inHand played) (hidle : db.Idle c) :
    List.Forall₂ (db.Yields c) inHand played.1 ∧ Rests K c db played.2 := by
  cases h with
  | rests told idle rests => exact ⟨told, rests⟩
  | awaits told awaits =>
    obtain ⟨op, hop, hc, hopen, -⟩ := awaits.exists
    exact absurd (hidle _ op hop hc) hopen

/-- What happens elsewhere leaves a client where it stands. -/
theorem Stage.frame (h : Stage K c db inHand played) (secluded : Secluded K c clock tables db)
    (hseparate : Separate K c db action) (helse : ¬ db.Concerns c action) :
    Stage K c (db.perform action) inHand played := by
  have hregular := secluded.regular
  have hbeside := hregular.beside hseparate.coordinated helse
  have hregistry := (secluded.alike hseparate).1
  have hcontents := secluded.frame hseparate helse
  have hlocate := secluded.locate_eq hseparate
  cases h with
  | rests told idle rests =>
    have hother : ∀ call, action ≠ .submit c call := by
      rintro call rfl
      exact helse rfl
    exact .rests (told.imp fun _ _ h => h.perform hregular hseparate.coordinated)
      (idle.perform hregular hother) (rests.frame hregular.tidy hbeside hlocate hcontents)
  | awaits told awaits =>
    exact .awaits (told.imp fun _ _ h => h.perform hregular hseparate.coordinated)
      (awaits.frame secluded hbeside hregistry hlocate hcontents)

/-- A turn of one of its calls brings it on. -/
theorem Stage.resume {op : Operation} (h : Stage K c db inHand played)
    (secluded : Secluded K c clock tables db) (hop : db.tasks[i]? = some (.operation op))
    (hc : op.connection = c) (hopen : ¬ op.IsOver) : Stage K c (db.resume i) inHand played := by
  have hregular := secluded.regular
  have hcoordinated : db.Coordinated (.resume i) := rfl
  cases h with
  | rests told idle rests => exact absurd (idle i op hop hc) hopen
  | @awaits earlier results S j r told awaits =>
    have hkept := told.imp fun _ _ h => h.perform hregular hcoordinated
    obtain ⟨op', hop', hc', hopen', -⟩ := awaits.exists
    -- No other call of the client is open, so the turn is one of the call that it waits for.
    obtain rfl : j = i := secluded.sequential j i op' op hop' hop hc' hc hopen' hopen
    rcases awaits.resume secluded with hawaits | ⟨htold, hrests⟩
    · exact .awaits hkept hawaits
    · refine .rests (List.rel_append hkept (.cons htold .nil)) ?_ hrests
      have hperformed : (db.perform (.resume j)).Told c j r := htold
      refine idle_of_told hregular hperformed (fun k old hold hk hunfinished => ?_) nofun
      exact secluded.sequential k j old op' hold hop' hk hc' hunfinished hopen'

end

/-- A call of the client brings it on. -/
theorem Follows.submit {call : Call} (h : Follows first K c asks inHand db)
    (secluded : Secluded K c clock tables db) (hidle : db.Idle c) :
    Stage K c (db.submit c call) (inHand ++ [.pending db.tasks.size])
      (first.alone (asks ++ [.call call])) := by
  have hregular := secluded.regular
  obtain ⟨told, rests⟩ := h.stage.resting hidle
  rw [alone_append, ← h.config, ← h.locate]
  have hcoordinated : db.Coordinated (.submit c call) := rfl
  have hkept := told.imp fun _ _ h => h.perform hregular hcoordinated
  rcases rests.submit secluded call with hawaits | ⟨htold, hrests⟩
  · exact .awaits hkept hawaits
  · have hperformed : (db.perform (.submit c call)).Told c db.tasks.size _ := htold
    have honly : ∀ j op, db.tasks[j]? = some (.operation op) → op.connection = c → ¬ op.IsOver →
        j = db.tasks.size := fun j op hop hc hopen => absurd (hidle j op hop hc) hopen
    have hafter : (db.perform (.submit c call)).Idle c :=
      idle_of_told hregular hperformed honly fun _ _ => rfl
    exact .rests (List.rel_append hkept (.cons htold .nil)) hafter hrests

/-- So does the beginning of a transaction. -/
theorem Follows.begin (h : Follows first K c asks inHand db)
    (secluded : Secluded K c clock tables db) (hidle : db.Idle c) :
    Stage K c (db.beginTransaction c).2
      (inHand ++ (db.receipt? c (.beginTransaction c)).toList)
      (first.alone (asks ++ [.begin])) := by
  have hregular := secluded.regular
  obtain ⟨told, rests⟩ := h.stage.resting hidle
  rw [alone_append, ← h.config, ← h.locate]
  have hcoordinated : db.Coordinated (.beginTransaction c) := rfl
  have hkept := told.imp fun _ _ h => h.perform hregular hcoordinated
  obtain ⟨hreceipt, hrests⟩ := rests.begin hregular.tidy
  rw [hreceipt]
  have hafter : (db.perform (.beginTransaction c)).Idle c := hidle.perform hregular nofun
  exact .rests (List.rel_append hkept (.cons rfl .nil)) hafter hrests

/-- Everything that happens leaves the client as if it were alone. -/
theorem Follows.perform (h : Follows first K c asks inHand db)
    (secluded : Secluded K c clock tables db) (hseparate : Separate K c db action) :
    Follows first K c (asks ++ (action.ask? c).toList) (inHand ++ (db.receipt? c action).toList)
      (db.perform action) := by
  refine ⟨(secluded.alike hseparate).2.trans h.config,
    (secluded.locate_eq hseparate).trans h.locate, ?_⟩
  -- An action of the client is one of the lone run too; any other one frames its stage.
  by_cases hconcerns : db.Concerns c action
  · cases action with
    | beginTransaction d =>
      obtain rfl : d = c := hconcerns
      have hask : (Action.beginTransaction d : Action MemoryTable).ask? d = some .begin :=
        if_pos rfl
      rw [hask]
      exact h.begin secluded (hseparate rfl)
    | submit d call =>
      obtain rfl : d = c := hconcerns
      have hask : (Action.submit d call : Action MemoryTable).ask? d = some (.call call) :=
        if_pos rfl
      have hreceipt : db.receipt? d (.submit d call) = some (.pending db.tasks.size) := if_pos rfl
      rw [hask, hreceipt]
      exact h.submit secluded hseparate.idle
    | resume i =>
      obtain ⟨op, hop, hc, hopen⟩ := hconcerns
      have hstage := h.stage.resume secluded hop hc hopen
      show Stage K c (db.resume i) (inHand ++ []) (first.alone (asks ++ []))
      rw [List.append_nil, List.append_nil]
      exact hstage
    | connect | createTable table | dropTable name | requestLock mode holder key | reach instant =>
      exact hconcerns.elim
  · have hstage := h.stage.frame secluded hseparate hconcerns
    have hnothing : action.ask? c = none ∧ db.receipt? c action = none := by
      cases action with
      | beginTransaction d => exact ⟨if_neg hconcerns, if_neg hconcerns⟩
      | submit d call => exact ⟨if_neg hconcerns, if_neg hconcerns⟩
      | connect | createTable table | dropTable name | requestLock mode holder key | resume i
      | reach instant => exact ⟨rfl, rfl⟩
    rw [hnothing.1, hnothing.2, Option.toList_none, Option.toList_none, List.append_nil,
      List.append_nil]
    exact hstage

/-- So does a whole run. -/
theorem Follows.performAll {actions : List (Action MemoryTable)}
    (h : Follows first K c asks inHand db) (secluded : Secluded K c clock tables db)
    (hadmits : Admits (Separate K c) db actions) :
    Follows first K c (asks ++ actions.filterMap (Action.ask? c))
        (inHand ++ db.receipts c actions) (actions.foldl Database.perform db) ∧
      Secluded K c clock tables (actions.foldl Database.perform db) := by
  induction actions generalizing db asks inHand with
  | nil =>
    rw [List.filterMap_nil, List.append_nil]
    unfold receipts
    rw [List.append_nil]
    exact ⟨h, secluded⟩
  | cons action rest ih =>
    obtain ⟨hseparate, hrest⟩ := hadmits
    have hlater := ih (h.perform secluded hseparate) (secluded.perform hseparate) hrest
    have hasks : (action :: rest).filterMap (Action.ask? c) =
        (action.ask? c).toList ++ rest.filterMap (Action.ask? c) := by
      rw [List.filterMap_cons]
      cases action.ask? c <;> rfl
    rw [hasks, ← List.append_assoc]
    unfold receipts
    rw [← List.append_assoc]
    exact hlater

/-! ## Two runs -/

/-- What stands in one list stands across from something in a list that is related to it. -/
theorem exists_of_forall₂ {α β : Type} {R : α → β → Prop} {xs : List α} {ys : List β}
    (h : List.Forall₂ R xs ys) {n : Nat} {x : α} (hx : xs[n]? = some x) :
    ∃ y, ys[n]? = some y ∧ R x y := by
  induction h generalizing n with
  | nil => cases hx
  | cons hfirst _ ih =>
    cases n with
    | zero =>
      cases hx
      exact ⟨_, rfl, hfirst⟩
    | succ n => exact ih hx

/-- In particular, something stands across from every member. -/
theorem exists_mem_of_forall₂ {α β : Type} {R : α → β → Prop} {xs : List α} {ys : List β}
    (h : List.Forall₂ R xs ys) {x : α} (hx : x ∈ xs) : ∃ y ∈ ys, R x y := by
  obtain ⟨n, hn⟩ := List.mem_iff_getElem?.mp hx
  obtain ⟨y, hy, hrelated⟩ := exists_of_forall₂ h hn
  exact ⟨y, List.mem_of_getElem? hy, hrelated⟩

/-- A client that has an answer has the one that it would have if it were alone. -/
theorem Stage.replies {played : List Result × Solo} (h : Stage K c db inHand played) :
    List.Forall₂ (fun receipt r => ∀ r', db.reply? receipt = some r' → r' = r) inHand played.1 := by
  cases h with
  | rests told idle rests => exact told.imp fun _ _ h _ => h.eq_of_reply?
  | awaits told awaits =>
    obtain ⟨op, hop, -, hopen, -⟩ := awaits.exists
    refine List.rel_append (told.imp fun _ _ h _ => h.eq_of_reply?) (.cons ?_ .nil)
    intro r' hreply
    cases (result?_eq_none hop hopen).symm.trans hreply

/-- Whether nobody is in a connection's way, which has been told `told` so far. -/
structure Unhindered (db : Database MemoryTable) (c : ConnectionId) (told : List (Option Result)) :
    Prop where
  /-- None of its calls was refused a lock, or told that its transaction is being finished. -/
  granted : ∀ e, some (.error e) ∈ told → e.isRetryable = false
  /-- None is parked. -/
  unparked : ∀ (i : TaskId) (op : Operation), db.tasks[i]? = some (.operation op) →
    op.connection = c → ∀ target w, op.stand ≠ .locking target w
  /-- When nothing can run any more all are over. -/
  answered : db.ready = [] → db.Idle c ∧ none ∉ told

/-- A client that stands as if it were alone is unhindered. -/
theorem Follows.unhindered (h : Follows first K c asks inHand db)
    (secluded : Secluded K c clock tables db) : db.Unhindered c (inHand.map db.reply?) := by
  have hstage := h.stage
  generalize hplayed : first.alone asks = played at hstage
  refine ⟨fun e he => ?_, fun i op hop hc target w hstand => ?_, fun hsettled => ?_⟩
  · obtain ⟨receipt, hreceipt, hreply⟩ := List.mem_map.mp he
    obtain ⟨r, hmem, hsame⟩ := exists_mem_of_forall₂ hstage.replies hreceipt
    obtain rfl := hsame _ hreply
    rw [← hplayed] at hmem
    exact Solo.not_retryable_play (fun s e he => Serial.not_retryable_locate he) hmem
  · cases hstage with
    | rests told idle rests =>
      obtain ⟨r, hover⟩ := idle i op hop hc
      cases hstand.symm.trans hover
    | awaits told awaits =>
      obtain ⟨op', hop', hc', hopen', hunparked, -⟩ := awaits.exists
      have hopen : ¬ op.IsOver := Operation.not_over_of_working (by rw [hstand]; rfl)
      obtain rfl := secluded.sequential i _ op op' hop hop' hc hc' hopen hopen'
      cases hop.symm.trans hop'
      exact hunparked target w hstand
  · cases hstage with
    | rests told idle rests =>
      refine ⟨idle, fun hnone => ?_⟩
      obtain ⟨receipt, hreceipt, hreply⟩ := List.mem_map.mp hnone
      obtain ⟨r, -, hyields⟩ := exists_mem_of_forall₂ told hreceipt
      cases receipt with
      | answered r => cases hreply
      | pending i => cases hreply.symm.trans hyields.result?
    | awaits told awaits =>
      -- A call that is not over when nothing can run would have to be parked.
      obtain ⟨op, hop, -, hopen, hunparked, hundrained⟩ := awaits.exists
      obtain ⟨me, hholder⟩ :=
        secluded.regular.lifecycle.held _ op hop fun r hstand => hopen ⟨r, hstand⟩
      rcases secluded.regular.attended.settled_cases hsettled ⟨hop, hholder⟩ with
        hover | ⟨-, target, w, hstand, -⟩ | ⟨⟨purpose, r, hstand⟩, -⟩
      · exact absurd hover hopen
      · exact absurd hstand (hunparked target w)
      · exact absurd hstand (hundrained purpose r)

/-- At rest its rows are as if it were alone. -/
theorem Rests.base (h : Rests K c db S) : Set.EqOn S.base db.contents K := by
  cases h with
  | detached attached base => exact base
  | holding holds base shows => exact base

/-- So they are when no call of it is open. -/
theorem Follows.contents (h : Follows first K c asks inHand db) (hidle : db.Idle c) :
    Set.EqOn (first.alone asks).2.base db.contents K := by
  obtain ⟨-, rests⟩ := h.stage.resting hidle
  exact rests.base

/-! ## The beginning -/

/-- The tables do not depend on the clock. -/
theorem withTables_clock (config : Config) (clock clock' : Clock) (hasher : Hasher)
    (tables : List MemoryTable) :
    withTables config clock' hasher tables =
      { withTables config clock hasher tables with clock := clock' } := by
  have hcreate : ∀ (db : Database MemoryTable) table,
      (({ db with clock := clock' } : Database MemoryTable).createTable table).2 =
        { (db.createTable table).2 with clock := clock' } := by
    intro db table
    unfold createTable
    dsimp only
    split <;> rfl
  have hall : ∀ db : Database MemoryTable,
      tables.foldl (fun db table => (db.createTable table).2) { db with clock := clock' } =
        { tables.foldl (fun db table => (db.createTable table).2) db with clock := clock' } := by
    induction tables with
    | nil => exact fun _ => rfl
    | cons table rest ih =>
      intro db
      rw [List.foldl_cons, List.foldl_cons, hcreate]
      exact ih _
  exact hall (new config clock hasher)

/-- So a client that is alone with them is told the same whatever the clock. -/
theorem alone_withTables (config : Config) (clock clock' : Clock) (hasher : Hasher)
    (tables : List MemoryTable) :
    (withTables config clock' hasher tables).alone =
      (withTables config clock hasher tables).alone := by
  rw [withTables_clock config clock clock']
  rfl

/-- Registering tables one after the other is a run. -/
theorem withTables_eq (config : Config) (clock : Clock) (hasher : Hasher)
    (tables : List MemoryTable) :
    withTables config clock hasher tables =
      (tables.map Action.createTable).foldl perform (new config clock hasher) := by
  rw [List.foldl_map]
  rfl

/-- Such a run needs no locks. -/
theorem admits_createTable (db : Database MemoryTable) (tables : List MemoryTable) :
    Admits Coordinated db (tables.map Action.createTable) :=
  admits_of_not_bare (List.forall_mem_map.mpr fun _ _ => rfl)

/-- The tables that are registered in it are all that are made. -/
theorem made_createTable (tables : List MemoryTable) :
    made (tables.map Action.createTable) = tables := by
  unfold made
  rw [List.filterMap_map]
  exact List.filterMap_some

/-- Where only tables have been made nobody has named any row. -/
theorem secluded_withTables (K : Set Lock.Key) (c : ConnectionId) (config : Config)
    (clock : Clock) (hasher : Hasher) (tables : List MemoryTable) :
    Secluded K c clock tables (withTables config clock hasher tables) := by
  have huntouched := untouched_withTables config clock hasher tables
  have hnew := regular_new (σ := MemoryTable) config clock hasher
  have hregular := (Run.start.performAll (admits_createTable _ tables)).regular hnew
  have hstored := (stored_new config clock hasher).performAll hnew.lifecycle hnew.twoPhase
    (tables.map Action.createTable)
  have hlogged := (logged_new (σ := MemoryTable) config clock hasher).performAll hnew.lifecycle
    hnew.twoPhase (tables.map Action.createTable)
  rw [← withTables_eq] at hregular hstored hlogged
  rw [made_createTable, List.nil_append] at hstored
  -- From here on only what is known of the database counts, and not how it was made.
  generalize withTables config clock hasher tables = db at *
  have hop : ∀ {i : TaskId} {op : Operation}, db.tasks[i]? ≠ some (.operation op) := by
    intro i op
    rw [huntouched.tasks]
    nofun
  have huninvolved : ∀ k t, ¬ (db.locks.lockOf k).Involves t := by
    intro k t
    refine (hregular.acquainted.absent t ?_).uninvolved k
    rintro ⟨txn, hfound⟩
    rw [huntouched.directory] at hfound
    cases hfound
  exact {
    regular := hregular
    stored := hstored
    logged := ⟨_, hlogged.named ▸ hlogged⟩
    apart := huntouched.apart
    planned := by
      rintro t plan (hcommit | ⟨i, op, me, hruns, -⟩)
      · rw [huntouched.commits] at hcommit
        cases hcommit
      · exact absurd hruns.1 hop
    names := fun i op s h _ => absurd h hop
    sequential := fun i j op op' h => absurd h hop
    involved := fun k t h => absurd h (huninvolved k t)
    free := fun k _ => List.eq_nil_iff_forall_not_mem.mpr fun w hw =>
      huninvolved k w.holder.txn (.inr ⟨w, hw, rfl⟩) }

/-- Nobody has asked for anything. -/
theorem follows_withTables (K : Set Lock.Key) (c : ConnectionId) (config : Config)
    (clock : Clock) (hasher : Hasher) (tables : List MemoryTable) :
    Follows (withTables config clock hasher tables) K c [] []
      (withTables config clock hasher tables) := by
  have huntouched := untouched_withTables config clock hasher tables
  refine ⟨rfl, rfl, .rests .nil (fun i op hop => ?_) (.detached ?_ (Set.eqOn_refl _ _))⟩
  · rw [huntouched.tasks] at hop
    cases hop
  · rw [huntouched.attached]
    rfl

/-- Two clients that would have been told the same alone have been told the same, as far as both
have been told. -/
theorem told_alike {inHand' : List Receipt} {results : List Result}
    (h : List.Forall₂ (fun receipt r => ∀ r', db.reply? receipt = some r' → r' = r) inHand results)
    (h' : List.Forall₂ (fun receipt r => ∀ r', db'.reply? receipt = some r' → r' = r) inHand'
      results) {n : Nat} {r r' : Result} (hr : (inHand.map db.reply?)[n]? = some (some r))
    (hr' : (inHand'.map db'.reply?)[n]? = some (some r')) : r = r' := by
  rw [List.getElem?_map] at hr hr'
  obtain ⟨receipt, hreceipt, hreply⟩ := Option.map_eq_some_iff.mp hr
  obtain ⟨receipt', hreceipt', hreply'⟩ := Option.map_eq_some_iff.mp hr'
  obtain ⟨alone, halone, hsame⟩ := exists_of_forall₂ h hreceipt
  obtain ⟨alone', halone', hsame'⟩ := exists_of_forall₂ h' hreceipt'
  obtain rfl : alone = alone' := Option.some.inj (halone.symm.trans halone')
  exact (hsame r hreply).trans (hsame' r' hreply').symm

/-- In two runs over the same tables, which nobody registers or drops, let one connection ask for
the same things, one after the other, and name rows in `K` only, and let nobody else name a row in
`K`; else the other connections do what they like, and the turns are taken in any order, at any
time. Then the connection is told the same in both runs, and the rows in `K` end up the same. In
both it is never told to try again, none of its calls is ever parked, and none is left open when
nothing can run any more. -/
theorem noninterference_of_separate {config : Config} {clock clock' : Clock}
    {hasher : Hasher} {actions actions' : List (Action MemoryTable)}
    {told told' : List (Option Result)}
    (admits : Admits (Separate K c) (withTables config clock hasher tables) actions)
    (admits' : Admits (Separate K c) (withTables config clock' hasher tables) actions')
    (reached : actions.foldl perform (withTables config clock hasher tables) = db)
    (reached' : actions'.foldl perform (withTables config clock' hasher tables) = db')
    (asked : actions.filterMap (Action.ask? c) = actions'.filterMap (Action.ask? c))
    (replied : (withTables config clock hasher tables).replies c actions = told)
    (replied' : (withTables config clock' hasher tables).replies c actions' = told') :
    told.length = told'.length ∧
    (∀ (n : Nat) r r', told[n]? = some (some r) → told'[n]? = some (some r') → r = r') ∧
    (db.Idle c → db'.Idle c → Set.EqOn db.contents db'.contents K) ∧
    db.Unhindered c told ∧ db'.Unhindered c told' := by
  obtain ⟨hfollows, hsecluded⟩ := (follows_withTables K c config clock hasher tables).performAll
    (secluded_withTables K c config clock hasher tables) admits
  obtain ⟨hfollows', hsecluded'⟩ := (follows_withTables K c config clock' hasher tables).performAll
    (secluded_withTables K c config clock' hasher tables) admits'
  unfold replies at replied replied'
  rw [reached] at hfollows hsecluded replied
  rw [reached'] at hfollows' hsecluded' replied'
  rw [List.nil_append, List.nil_append] at hfollows hfollows'
  subst replied replied'
  -- Alone the client would have been told the same in both runs, whatever the clock.
  have hreplies := hfollows.stage.replies
  have hreplies' := hfollows'.stage.replies
  have hcontents' := hfollows'.contents
  rw [alone_withTables config clock clock', ← asked] at hreplies' hcontents'
  refine ⟨?_, fun n r r' => told_alike hreplies hreplies', fun hidle hidle' => ?_,
    hfollows.unhindered hsecluded, hfollows'.unhindered hsecluded'⟩
  · rw [List.length_map, List.length_map]
    exact hreplies.length_eq.trans hreplies'.length_eq.symm
  · exact (hfollows.contents hidle).symm.trans (hcontents' hidle')

/-- The first of two rows. -/
def firstRow : Set Lock.Key := {k | k.row = .integer 1}

/-- A key belongs to it or not by its row. -/
instance : DecidablePred (· ∈ firstRow) := fun k => inferInstanceAs (Decidable (k.row = .integer 1))

/-- A client commits a row and reads it, with nobody else there. -/
def undisturbed : List (Action MemoryTable) :=
  [ .beginTransaction 0, .submit 0 (.statement (.put "t" (.integer 1) .null)), .resume 0,
    .submit 0 .commit, .resume 1, .resume 1, .submit 0 (.statement (.get "t" (.integer 1))),
    .resume 2, .resume 2, .resume 2 ]

/-- It does the same while two others compete for another row. -/
def accompanied : List (Action MemoryTable) :=
  [ .beginTransaction 1, .submit 1 (.statement (.put "t" (.integer 2) .null)), .resume 0,
    .beginTransaction 0, .submit 0 (.statement (.put "t" (.integer 1) .null)),
    .submit 2 (.statement (.delete "t" (.integer 2))), .resume 2, .resume 1, .submit 0 .commit,
    .submit 1 .commit, .resume 4, .resume 3, .resume 4, .resume 3,
    .submit 0 (.statement (.get "t" (.integer 1))), .resume 5, .resume 5, .resume 5 ]

/-- A clock that strictly increases although the time outside runs backward. -/
def rewound : Clock :=
  (default : StrictClock).clock fun n => UInt64.ofNat (40 - n)

/-- For instance, the client cannot see that others were there, of which one was refused a lock, and
that the timestamps came from another clock. -/
theorem noninterference_of_separate_accompanied :
    ∃ first first' db db' : Database MemoryTable,
      withTables .standard default ⟨"Constant", fun _ => ⟨7⟩⟩ [⟨"t", .any, .any, ⟨[]⟩⟩] = first ∧
      withTables .standard rewound ⟨"Constant", fun _ => ⟨7⟩⟩ [⟨"t", .any, .any, ⟨[]⟩⟩] = first' ∧
      undisturbed.foldl perform first = db ∧ accompanied.foldl perform first' = db' ∧
      first.replies 0 undisturbed =
        [some (.ok none), some (.ok none), some (.ok none), some (.ok (some .null))] ∧
      first'.replies 0 accompanied =
        [some (.ok none), some (.ok none), some (.ok none), some (.ok (some .null))] ∧
      first'.replies 2 accompanied = [some (.error (Cause.lock .conflict))] ∧
      Set.EqOn db.contents db'.contents firstRow ∧
      db'.Unhindered 0
        [some (.ok none), some (.ok none), some (.ok none), some (.ok (some .null))] := by
  have hadmits : Admits (Separate firstRow 0)
      (withTables .standard default ⟨"Constant", fun _ => ⟨7⟩⟩ [⟨"t", .any, .any, ⟨[]⟩⟩])
      undisturbed := by decide +kernel
  have hadmits' : Admits (Separate firstRow 0)
      (withTables .standard rewound ⟨"Constant", fun _ => ⟨7⟩⟩ [⟨"t", .any, .any, ⟨[]⟩⟩])
      accompanied := by decide +kernel
  refine ⟨_, _, _, _, rfl, rfl, rfl, rfl, ?told, ?told', by decide +kernel, ?_⟩
  case told => decide +kernel
  case told' => decide +kernel
  obtain ⟨-, -, hrows, -, hunhindered⟩ := noninterference_of_separate hadmits hadmits' rfl rfl
    (by decide) rfl rfl
  exact ⟨hrows (by decide +kernel) (by decide +kernel), hunhindered⟩

end Database

end TxStore
