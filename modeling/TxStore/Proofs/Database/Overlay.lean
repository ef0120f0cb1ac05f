import TxStore.Proofs.Database.Noninterference
import TxStore.Proofs.Registry

/-!
# A transaction works on what it will leave

A transaction reads through its write buffer and changes no table before it commits. To its client
that is as if it worked on plain maps that start with what the tables hold and are changed at once:
it is told the same, and when it commits the tables hold what the maps hold
(`faithful_of_separate`). If it is rolled back, or its connection is disconnected, the tables are
left as they were. Statements that each have a transaction of their own work on the same maps.

`Solo` is such a client already, and so what it is told in each of these courses is what the
statements come to on plain maps (`Solo.play_statements`, `Solo.play_implicit`).
-/

namespace TxStore

/-- What a client asks for that makes these statements. -/
def Ask.statements (statements : List Statement) : List Ask :=
  statements.map fun s => .call (.statement s)

namespace Solo

variable {implicit : Bool} {locate : Statement → Except Error Lock.Key}

/-- In a transaction statements work on what it sees, and leave the tables alone. -/
theorem play_statements (statements : List Statement) (B V : Contents) :
    Solo.play implicit locate ⟨B, some V⟩ (Ask.statements statements) =
      ((Serial.transaction locate statements V).1,
        ⟨B, some (Serial.transaction locate statements V).2⟩) := by
  induction statements generalizing V with
  | nil => rfl
  | cons s rest ih =>
    show Solo.play implicit locate ⟨B, some V⟩ (.call (.statement s) :: Ask.statements rest) = _
    rw [play_cons, Serial.transaction_cons]
    show (_ :: (Solo.play implicit locate ⟨B, some (Serial.statement locate s V).2⟩ _).1,
      (Solo.play implicit locate ⟨B, some (Serial.statement locate s V).2⟩ _).2) = _
    rw [ih]
    rfl

/-- So they do after the transaction has begun. -/
theorem play_begin (statements : List Statement) (B : Contents) :
    Solo.play implicit locate ⟨B, none⟩ (.begin :: Ask.statements statements) =
      (.ok none :: (Serial.transaction locate statements B).1,
        ⟨B, some (Serial.transaction locate statements B).2⟩) := by
  rw [play_cons]
  show (_ :: (Solo.play implicit locate ⟨B, some B⟩ _).1,
    (Solo.play implicit locate ⟨B, some B⟩ _).2) = _
  rw [play_statements]
  rfl

/-- Statements with a transaction of their own work on the tables. -/
theorem play_implicit (statements : List Statement) (B : Contents) :
    Solo.play true locate ⟨B, none⟩ (Ask.statements statements) =
      ((Serial.transaction locate statements B).1,
        ⟨(Serial.transaction locate statements B).2, none⟩) := by
  induction statements generalizing B with
  | nil => rfl
  | cons s rest ih =>
    show Solo.play true locate ⟨B, none⟩ (.call (.statement s) :: Ask.statements rest) = _
    rw [play_cons, Serial.transaction_cons]
    show (_ :: (Solo.play true locate ⟨(Serial.statement locate s B).2, none⟩ _).1,
      (Solo.play true locate ⟨(Serial.statement locate s B).2, none⟩ _).2) = _
    rw [ih]
    rfl

end Solo

namespace Database

variable {db first : Database MemoryTable} {K : Set Lock.Key} {c : ConnectionId}
  {tables : List MemoryTable} {actions : List (Action MemoryTable)} {told : List (Option Result)}
  {asks : List Ask} {inHand : List Receipt}

/-- Whether a client is told nothing but `results`, one after the other, and all of them when
nothing can run any more. -/
structure Delivers (db : Database MemoryTable) (told : List (Option Result))
    (results : List Result) : Prop where
  /-- Every answer is the right one. -/
  right : List.Forall₂ (fun answer r => answer = none ∨ answer = some r) told results
  /-- All are given when nothing can run any more. -/
  all : db.ready = [] → told = results.map some

/-- A client that stands as if it were alone is told what it would be told then. -/
theorem Follows.delivers (h : Follows first K c asks inHand db) {clock : Clock}
    (secluded : Secluded K c clock tables db) :
    db.Delivers (inHand.map db.reply?) (first.alone asks).1 := by
  have hright : List.Forall₂ (fun answer r => answer = none ∨ answer = some r)
      (inHand.map db.reply?) (first.alone asks).1 := by
    refine List.forall₂_map_left_iff.mpr (h.stage.replies.imp fun receipt r hsame => ?_)
    cases hreply : db.reply? receipt with
    | none => exact .inl rfl
    | some r' => exact .inr (congrArg some (hsame r' hreply))
  refine ⟨hright, fun hsettled => ?_⟩
  obtain ⟨-, hall⟩ := (h.unhindered secluded).answered hsettled
  generalize inHand.map db.reply? = told at hright hall ⊢
  generalize (first.alone asks).1 = results at hright ⊢
  induction hright with
  | nil => rfl
  | cons hanswer _ ih =>
    obtain ⟨hfirst, hrest⟩ := not_or.mp fun hmem => hall (List.mem_cons.mpr hmem)
    rw [hanswer.resolve_left (Ne.symm hfirst), ih hrest]
    rfl

/-- While it has a transaction its rows are as they were. -/
theorem Stage.base_of_view {results : List Result} {S : Solo} {V : Contents}
    (h : Stage K c db inHand (results, S)) (hview : S.view = some V) :
    Set.EqOn S.base db.contents K := by
  cases h with
  | rests told idle rests => exact rests.base
  | awaits told awaits =>
    cases awaits with
    | @serves op me txn s B V' runs connection call holds base shows knows =>
      cases hopened : op.opened with
      | true =>
        rw [hopened] at hview
        cases hview
      | false => exact base
    | applies connection applies shows => cases hview
    | applied connection runs attached base => cases hview

/-! ## What the tables hold at first -/

/-- Whether a table is registered under an identifier. -/
def Stocks (db : Database MemoryTable) (id : TableId) (table : MemoryTable) : Prop :=
  ∃ entry, db.registry.get? id = some entry ∧ db.store[entry.table]? = some table

/-- The contents of a table are those of the rows of its identifier. -/
theorem Stocks.contents {id : TableId} {table : MemoryTable} (h : db.Stocks id table)
    (row : Value) : db.contents ⟨id, row⟩ = table.rows.get? row := by
  obtain ⟨entry, hentry, htable⟩ := h
  exact of_eq hentry htable

/-- The registration of another table leaves it there. -/
theorem Stocks.createTable {id : TableId} {table : MemoryTable} (h : db.Stocks id table)
    (other : MemoryTable) : (db.createTable other).2.Stocks id table := by
  obtain ⟨entry, hentry, htable⟩ := h
  have hlt : entry.table < db.store.size := (Array.getElem?_eq_some_iff.mp htable).1
  have hstore : (db.store.push other)[entry.table]? = some table := by
    rw [Array.getElem?_push, if_neg (Nat.ne_of_lt hlt)]
    exact htable
  unfold Database.createTable
  dsimp only
  cases hcreate : db.registry.create (Backend.name other) db.store.size with
  | error e => exact ⟨entry, hentry, hstore⟩
  | ok created =>
    -- An identifier that is taken is not given to another table.
    obtain ⟨-, -, hvacant, -, hget⟩ := Registry.create_cases hcreate
    refine ⟨entry, ?_, hstore⟩
    show created.2.get? id = some entry
    rw [hget, if_neg, hentry]
    rintro rfl
    cases hvacant.symm.trans hentry

/-- So does the registration of several others. -/
theorem Stocks.createAll {id : TableId} {table : MemoryTable} (h : db.Stocks id table)
    (others : List MemoryTable) :
    (others.foldl (fun db table => (db.createTable table).2) db).Stocks id table := by
  induction others generalizing db with
  | nil => exact h
  | cons other rest ih => exact ih (h.createTable other)

/-- A table is registered if it has a name whose identifier is free. -/
theorem stocks_createTable {table : MemoryTable} (hname : table.name ≠ "")
    (hvacant : db.registry.get? (db.registry.tableId table.name) = none) :
    (db.createTable table).2.Stocks (db.registry.tableId table.name) table ∧
      (db.createTable table).2.registry.hasher = db.registry.hasher ∧
      ∀ id, id ≠ db.registry.tableId table.name →
        (db.createTable table).2.registry.get? id = db.registry.get? id := by
  have hcreate := Registry.create_of_vacant hname hvacant db.store.size
  obtain ⟨-, -, -, hhasher, hget⟩ := Registry.create_cases hcreate
  change db.registry.create (Backend.name table) db.store.size = _ at hcreate
  unfold Database.createTable
  dsimp only
  rw [hcreate]
  refine ⟨⟨_, (hget _).trans (if_pos rfl), Array.getElem?_push_size⟩, hhasher, fun id hne => ?_⟩
  exact (hget id).trans (if_neg (Ne.symm hne))

/-- Tables with names whose identifiers are distinct are all registered. -/
theorem stocks_withTables (config : Config) (clock : Clock) (hasher : Hasher)
    (hnames : ∀ table ∈ tables, table.name ≠ "")
    (hdistinct : (tables.map fun table => hasher.tableId table.name).Nodup)
    {table : MemoryTable} (htable : table ∈ tables) :
    (withTables config clock hasher tables).Stocks (hasher.tableId table.name) table := by
  -- The induction is on the tables, for all databases in which their identifiers are free.
  have hfold : ∀ db : Database MemoryTable, db.registry.hasher = hasher →
      (∀ table ∈ tables, db.registry.get? (hasher.tableId table.name) = none) →
      (tables.foldl (fun db table => (db.createTable table).2) db).Stocks
        (hasher.tableId table.name) table := by
    induction tables with
    | nil => cases htable
    | cons first rest ih =>
      rintro db rfl hvacant
      obtain ⟨hfirst, hrest⟩ := List.nodup_cons.mp hdistinct
      obtain ⟨hstocks, hhasher, hothers⟩ :=
        stocks_createTable (hnames first List.mem_cons_self) (hvacant first List.mem_cons_self)
      rw [List.foldl_cons]
      rcases List.mem_cons.mp htable with rfl | htable
      · exact hstocks.createAll rest
      · refine ih (fun other hother => hnames other (List.mem_cons_of_mem _ hother)) hrest htable _
          hhasher fun other hother => ?_
        rw [hothers, hvacant other (List.mem_cons_of_mem _ hother)]
        intro hsame
        exact hfirst (List.mem_map.mpr ⟨other, hother, hsame⟩)
  exact hfold (new config clock hasher) rfl fun _ _ => rfl

/-- The settings are those that were given. -/
theorem config_withTables (config : Config) (clock : Clock) (hasher : Hasher)
    (tables : List MemoryTable) : (withTables config clock hasher tables).config = config := by
  have hfold : ∀ db : Database MemoryTable,
      (tables.foldl (fun db table => (db.createTable table).2) db).config = db.config := by
    induction tables with
    | nil => exact fun _ => rfl
    | cons table rest ih =>
      intro db
      rw [List.foldl_cons, ih]
      unfold Database.createTable
      dsimp only
      split <;> rfl
  exact hfold (new config clock hasher)

/-! ## The courses of a transaction -/

/-- Let a connection name rows in `K` only, one call at a time, on tables that nobody registers or
drops, and let nobody else name a row in `K`. Let `results` and `M` be what its statements come to
one after the other on plain maps that start with what the tables hold; if the identifiers of the
tables are distinct, that is what each table holds.

In an explicit transaction the statements are told `results`, and no row in `K` changes. When the
transaction is committed, it is told so, and the rows in `K` hold what `M` holds. When it is rolled
back or its connection is disconnected, they are as they were. Where statements have transactions of
their own, they are told `results` as well, and after each of them the rows hold what the maps hold.
In every course the turns come to an end, and when nothing can run any more every call has its
answer. -/
theorem faithful_of_separate {config : Config} {clock : Clock} {hasher : Hasher}
    {statements : List Statement} {results : List Result} {M : Contents}
    (started : withTables config clock hasher tables = first)
    (admits : Admits (Separate K c) first actions)
    (reached : actions.foldl perform first = db) (replied : first.replies c actions = told)
    (executed : Serial.transaction first.locate statements first.contents = (results, M)) :
    let asked := actions.filterMap (Action.ask? c)
    let calls := Ask.statements statements
    ((∀ table ∈ tables, table.name ≠ "") →
      (tables.map fun table => hasher.tableId table.name).Nodup →
      ∀ table ∈ tables, ∀ row,
        first.contents ⟨hasher.tableId table.name, row⟩ = table.rows.get? row) ∧
    (asked = .begin :: calls →
      db.Delivers told (.ok none :: results) ∧ Set.EqOn db.contents first.contents K) ∧
    (asked = .begin :: calls ++ [.call .commit] →
      db.Delivers told (.ok none :: results ++ [.ok none]) ∧
        (db.Idle c → Set.EqOn db.contents M K)) ∧
    (∀ ending, ending = Call.rollback ∨ ending = Call.disconnect →
      asked = .begin :: calls ++ [.call ending] →
      db.Delivers told (.ok none :: results ++ [.ok none]) ∧
        (db.Idle c → Set.EqOn db.contents first.contents K)) ∧
    (config.implicitTransactions = true → asked = calls →
      db.Delivers told results ∧ (db.Idle c → Set.EqOn db.contents M K)) ∧
    Acc Turns db ∧ db.Unhindered c told := by
  subst started
  obtain ⟨hfollows, hsecluded⟩ := (follows_withTables K c config clock hasher tables).performAll
    (secluded_withTables K c config clock hasher tables) admits
  unfold replies at replied
  rw [reached] at hfollows hsecluded replied
  rw [List.nil_append, List.nil_append] at hfollows
  have hdelivers := hfollows.delivers hsecluded
  have hunhindered := hfollows.unhindered hsecluded
  rw [replied] at hdelivers hunhindered
  have hcontents := hfollows.contents
  have hstage := hfollows.stage
  have hconfig := config_withTables config clock hasher tables
  generalize hfirst : withTables config clock hasher tables = first at *
  intro asked calls
  -- After the statements of a transaction it sees the maps, and the tables are as they were.
  have hopen : first.alone (.begin :: calls) = (.ok none :: results, ⟨first.contents, some M⟩) := by
    unfold alone
    rw [Solo.play_begin, executed]
  refine ⟨?_, fun hasked => ?_, fun hasked => ?_, fun ending hending hasked => ?_,
    fun himplicit hasked => ?_, wellFounded_turns.apply db, hunhindered⟩
  · intro hnames hdistinct table htable row
    rw [← hfirst]
    exact (stocks_withTables config clock hasher hnames hdistinct htable).contents row
  · rw [show actions.filterMap (Action.ask? c) = _ from hasked, hopen] at hdelivers hstage
    exact ⟨hdelivers, (hstage.base_of_view rfl).symm⟩
  · rw [show actions.filterMap (Action.ask? c) = _ from hasked, alone_append, hopen]
      at hdelivers hcontents
    exact ⟨hdelivers, fun hidle => (hcontents hidle).symm⟩
  · rw [show actions.filterMap (Action.ask? c) = _ from hasked, alone_append, hopen]
      at hdelivers hcontents
    rcases hending with rfl | rfl
    · exact ⟨hdelivers, fun hidle => (hcontents hidle).symm⟩
    · exact ⟨hdelivers, fun hidle => (hcontents hidle).symm⟩
  · have halone : first.alone calls = (results, ⟨M, none⟩) := by
      unfold alone
      rw [hconfig, himplicit, Solo.play_implicit, executed]
    rw [show actions.filterMap (Action.ask? c) = _ from hasked, halone] at hdelivers hcontents
    exact ⟨hdelivers, fun hidle => (hcontents hidle).symm⟩

/-- Statements on one row: it is overwritten, read, removed twice and written again, and then the
wrong kind of key is tried. -/
def rewriting : List Statement :=
  [ .put "t" (.integer 1) .null, .get "t" (.integer 1), .delete "t" (.integer 1),
    .delete "t" (.integer 1), .put "t" (.integer 1) (.bool true), .put "t" .null .null ]

/-- A client makes them in one transaction and commits it. -/
def rewritten : List (Action MemoryTable) :=
  .beginTransaction 0 ::
    (rewriting.zipIdx.flatMap fun (s, i) =>
      [.submit 0 (.statement s), .resume i, .resume i, .resume i]) ++
    [.submit 0 .commit, .resume 6, .resume 6, .resume 6]

/-- For instance, the client is told that the row is gone when it removes it again, and that its
key is of the wrong kind, and what it has committed is what the statements come to. -/
theorem faithful_of_separate_rewritten :
    ∃ first db : Database MemoryTable,
      withTables .standard default ⟨"Constant", fun _ => ⟨7⟩⟩
        [⟨"t", .integer, .any, ⟨[(.integer 1, .text "a")]⟩⟩] = first ∧
      rewritten.foldl perform first = db ∧ db.ready = [] ∧
      first.replies 0 rewritten =
        [ some (.ok none), some (.ok none), some (.ok (some .null)), some (.ok none),
          some (.error (Cause.table (.keyNotFound (.integer 1)))), some (.ok none),
          some (.error (Cause.table (.typeMismatch .key .integer .null))), some (.ok none) ] ∧
      Set.EqOn db.contents (Serial.transaction first.locate rewriting first.contents).2 Set.univ ∧
      db.contents ⟨⟨7⟩, .integer 1⟩ = some (.bool true) := by
  have hadmits : Admits (Separate Set.univ 0)
      (withTables .standard default ⟨"Constant", fun _ => ⟨7⟩⟩
        [⟨"t", .integer, .any, ⟨[(.integer 1, .text "a")]⟩⟩]) rewritten := by decide +kernel
  have hasked : rewritten.filterMap (Action.ask? 0) =
      .begin :: Ask.statements rewriting ++ [.call .commit] := by decide +kernel
  refine ⟨_, _, rfl, rfl, by decide +kernel, by decide +kernel, ?_, by decide +kernel⟩
  obtain ⟨-, -, hcommit, -⟩ := faithful_of_separate rfl hadmits rfl rfl rfl
  obtain ⟨-, hcontents⟩ := hcommit hasked
  exact hcontents (by decide +kernel)

end Database

end TxStore
