import TxStore.Proofs.Workload.Row

/-!
# A worker that counts

Between any two turns it is known how far a worker is with its increment (`Follows`): it has no
writes yet, or it has the lock of the row and has read it, or has buffered the next number, or the
number has been applied to the row, and then the increment counts although the worker has not been
told. A worker that has lost its lock is back at the beginning, with a fresh transaction or none.
What happens on other connections leaves all this as it is (`Follows.beside`), since nobody can
change the row while the worker relies on it.
-/

namespace TxStore.CounterPlan

open Database

variable {p : CounterPlan} {target : Target} {t t' : MemoryTable} {db db' : Database Table} {i : TaskId}
  {w : Worker} {k : Nat} {c : ConnectionId} {u : TransactionId} {txn : Transaction}
  {clock : Clock}

/-- Whether a connection is ready for a try: it has no transaction, or an idle one without writes.
-/
def Ready (db : Database Table) (c : ConnectionId) : Prop :=
  db.attached.get? c = none ∨ ∃ u txn, db.Holds c u txn 0 ∧ txn.log = .empty

/-- The write buffer of an increment. -/
def increment (p : CounterPlan) (target : Target) (t : MemoryTable) : WriteBuffer :=
  WriteBuffer.empty.append target.id (.integer p.key) (.put (.integer (p.nextIn t)))

/-- How far a worker is, and how many of its increments are in the row that are still to be counted
off: none or one. -/
inductive Follows (p : CounterPlan) (target : Target) (t : MemoryTable) (db : Database Table)
    (w : Worker) : Nat → Prop where
  /-- It is about to try. -/
  | idle (stand : w.stand = .idle) (ready : Ready db w.connection) : Follows p target t db w 0
  /-- Its read is under way. -/
  | reads {i : TaskId} {op : Operation} {me : Lock.Holder} {txn : Transaction}
      (stand : w.stand = .reading i) (serves : p.Serves target t db i op me txn p.read)
      (own : op.connection = w.connection) (opened : op.opened = false) : Follows p target t db w 0
  /-- It has read the row. -/
  | read {i : TaskId} {u : TransactionId} {txn : Transaction} (stand : w.stand = .reading i)
      (told : db.Told w.connection i (.ok (p.rowIn t))) (holds : db.Holds w.connection u txn 0)
      (empty : txn.log = .empty) (writes : p.Writes target db u) : Follows p target t db w 0
  /-- Its write is under way. -/
  | writes {i : TaskId} {op : Operation} {me : Lock.Holder} {txn : Transaction}
      (stand : w.stand = .writing i)
      (serves : p.Serves target t db i op me txn (p.write (p.nextIn t)))
      (own : op.connection = w.connection) (opened : op.opened = false)
      (writes : p.Writes target db me.txn) : Follows p target t db w 0
  /-- It has written. -/
  | wrote {i : TaskId} {u : TransactionId} {txn : Transaction} (stand : w.stand = .writing i)
      (told : db.Told w.connection i (.ok none)) (holds : db.Holds w.connection u txn 0)
      (log : txn.log = p.increment target t) (writes : p.Writes target db u) :
      Follows p target t db w 0
  /-- It has lost its lock. -/
  | lost {i : TaskId} {e : Error} (stand : w.stand = .reading i ∨ w.stand = .writing i)
      (told : db.Told w.connection i (.error e)) (ready : Ready db w.connection) :
      Follows p target t db w 0
  /-- Its number is about to be applied. -/
  | applies {i : TaskId} {op : Operation} {me : Lock.Holder} {txn : Transaction}
      (stand : w.stand = .committing i) (applies : Applies i op me txn (.ok none) db)
      (own : op.connection = w.connection) (log : txn.log = p.increment target t)
      (writes : p.Writes target db me.txn) : Follows p target t db w 0
  /-- Its number has been applied. -/
  | applied {i : TaskId} {op : Operation} {me : Lock.Holder} (stand : w.stand = .committing i)
      (runs : db.Runs i { op with stand := .applied [] (.ok none) } me)
      (attached : db.attached.get? op.connection = some me.txn)
      (own : op.connection = w.connection) : Follows p target t db w 1
  /-- It has committed. -/
  | committed {i : TaskId} (stand : w.stand = .committing i)
      (told : db.Told w.connection i (.ok none)) (detached : db.attached.get? w.connection = none) :
      Follows p target t db w 1
  /-- It has left the database. -/
  | leaves {i : TaskId} (stand : w.stand = .leaving i) (told : db.Told w.connection i (.ok none)) :
      Follows p target t db w 0
  /-- It is done. -/
  | ended (stand : w.stand = .ended) : Follows p target t db w 0

/-- Whether a connection has the lock of the row. -/
def Grips (p : CounterPlan) (target : Target) (db : Database Table) (c : ConnectionId) : Prop :=
  ∃ u txn, db.directory.find? u = some txn ∧ txn.connection = c ∧ p.Writes target db u

/-! ## What others leave to a worker -/

/-- Only one connection at a time has the lock of the row. -/
theorem Grips.unique {d : ConnectionId} (h : p.Grips target db c) (h' : p.Grips target db d) :
    c = d := by
  obtain ⟨u, txn, hfound, rfl, hwrites⟩ := h
  obtain ⟨u', txn', hfound', rfl, hwrites'⟩ := h'
  have hsame : u = u' := Lock.Holders.eq_of_writes hwrites hwrites'
  subst hsame
  cases hfound.symm.trans hfound'
  rfl

/-- A connection has the locks of the transaction that it holds. -/
theorem grips_of_holds {n : Nat} (h : db.Holds c u txn n) (htidy : db.Tidy)
    (hwrites : p.Writes target db u) : p.Grips target db c :=
  ⟨u, txn, h.found, h.connection htidy, hwrites⟩

/-- What happens elsewhere leaves a connection ready. -/
theorem Ready.beside (h : Ready db c) (htidy : db.Tidy) (hbeside : Beside c db db') :
    Ready db' c := by
  rcases h with hdetached | ⟨u, txn, hholds, hempty⟩
  · exact .inl (hbeside.attached.trans hdetached)
  · exact .inr ⟨u, txn, hholds.beside htidy hbeside, hempty⟩

/-- A worker that relies on what the row holds has the lock of the row. -/
theorem Follows.relies (h : p.Follows target t db w k) (hregular : db.Regular clock) :
    (∀ t', p.Follows target t' db w k) ∨ p.Grips target db w.connection := by
  cases h with
  | idle stand ready => exact .inl fun _ => .idle stand ready
  | reads stand serves own opened =>
    rcases serves.stands.relies with hfree | ⟨row, hfetched⟩
    · exact .inl fun t' => .reads stand { serves with stands := hfree t' } own opened
    · exact .inr (own ▸ grips_of_holds serves.holds hregular.tidy
        (serves.writes hregular.twoPhase hfetched))
  | read stand told holds empty writes => exact .inr (grips_of_holds holds hregular.tidy writes)
  | writes stand serves own opened writes =>
    exact .inr (own ▸ grips_of_holds serves.holds hregular.tidy writes)
  | wrote stand told holds log writes => exact .inr (grips_of_holds holds hregular.tidy writes)
  | lost stand told ready => exact .inl fun _ => .lost stand told ready
  | applies stand applies own log writes =>
    obtain ⟨txn, hfound, hc, -⟩ := hregular.tidy.owner applies.attached
    exact .inr ⟨_, txn, hfound, hc.trans own, writes⟩
  | applied stand runs attached own => exact .inl fun _ => .applied stand runs attached own
  | committed stand told detached => exact .inl fun _ => .committed stand told detached
  | leaves stand told => exact .inl fun _ => .leaves stand told
  | ended stand => exact .inl fun _ => .ended stand

/-- So the row may change when another connection has that lock. -/
theorem Follows.change (h : p.Follows target t db w k) (hregular : db.Regular clock)
    (hgrips : p.Grips target db c) (hne : c ≠ w.connection) (t' : MemoryTable) :
    p.Follows target t' db w k := by
  rcases h.relies hregular with hfree | hown
  · exact hfree t'
  · exact absurd (hgrips.unique hown) hne

/-- What happens elsewhere leaves a worker where it is. -/
theorem Follows.beside (h : p.Follows target t db w k) (hregular : db.Regular clock)
    (hbeside : Beside w.connection db db') (hregistry : db'.registry = db.registry) :
    p.Follows target t db' w k := by
  have htidy := hregular.tidy
  -- The call of a worker, its transaction and the locks of that are its own connection's, which
  -- others leave alone.
  cases h with
  | idle stand ready => exact .idle stand (ready.beside htidy hbeside)
  | reads stand serves own opened =>
    exact .reads stand (serves.beside htidy (own ▸ hbeside)) own opened
  | read stand told holds empty writes =>
    exact .read stand (hbeside.told told) (holds.beside htidy hbeside) empty
      (hbeside.writes _ _ _ holds.found (holds.connection htidy) (.inl holds.phase) writes)
  | writes stand serves own opened writes =>
    have hholds := serves.holds
    refine .writes stand (serves.beside htidy (own ▸ hbeside)) own opened ?_
    exact hbeside.writes _ _ _ hholds.found ((hholds.connection htidy).trans own)
      (.inl hholds.phase) writes
  | wrote stand told holds log writes =>
    exact .wrote stand (hbeside.told told) (holds.beside htidy hbeside) log
      (hbeside.writes _ _ _ holds.found (holds.connection htidy) (.inl holds.phase) writes)
  | lost stand told ready =>
    exact .lost stand (hbeside.told told) (ready.beside htidy hbeside)
  | applies stand applies own log writes =>
    rw [← own] at hbeside
    obtain ⟨txn, hfound, hc, -⟩ := htidy.owner applies.attached
    cases applies.found.symm.trans hfound
    exact .applies stand (applies.beside htidy hbeside hregistry) own log
      (hbeside.writes _ _ _ hfound hc (.inr applies.phase) writes)
  | applied stand runs attached own =>
    rw [← own] at hbeside
    exact .applied stand (hbeside.runs runs rfl) (hbeside.attached.trans attached) own
  | committed stand told detached =>
    exact .committed stand (hbeside.told told) (hbeside.attached.trans detached)
  | leaves stand told => exact .leaves stand (hbeside.told told)
  | ended stand => exact .ended stand

/-! ## Turns of its calls -/

/-- What a turn of the call that a worker waits for comes to: all is as before, or the increment is
applied to the row, of which the worker has the lock. -/
def Advances (p : CounterPlan) (target : Target) (t : MemoryTable) (db : Database Table) (w : Worker)
    (k : Nat) (db' : Database Table) : Prop :=
  ∃ t' k', p.Finds target t' db' ∧ p.Fits t' ∧ p.Follows target t' db' w k' ∧
    (t' = t ∧ k' = k ∨
      p.rowIn t' = some (.integer (p.nextIn t)) ∧ k = 0 ∧ k' = 1 ∧ p.Grips target db w.connection)

/-- A turn that leaves the tables alone may lead the worker on. -/
theorem advances_of_stable (hfinds : p.Finds target t db) (hfits : p.Fits t)
    (hstable : Stable db db') (hfollows : p.Follows target t db' w k) :
    p.Advances target t db w k db' :=
  ⟨t, k, hfinds.of_stable hstable, hfits, hfollows, .inl ⟨rfl, rfl⟩⟩

/-- A connection whose transaction was aborted is ready. -/
theorem ready_of_succeeds {restart : Bool} (h : Succeeds clock db db' c restart) : Ready db' c := by
  unfold Succeeds at h
  split at h
  · obtain ⟨u, fresh, hrenews⟩ := h
    exact .inr ⟨u, fresh, ⟨hrenews.attached, hrenews.found, hrenews.active, hrenews.idle⟩,
      hrenews.empty⟩
  · exact .inl h

/-- A statement of a worker that is refused its lock is over, and its connection is ready. -/
theorem Serves.refused {op : Operation} {me : Lock.Holder} {s : Statement} {why : Lock.Refusal}
    (h : p.Serves target t db i op me txn s) (hregular : db.Regular clock)
    (hending : db.bodyEnding? op me = some (.refused why)) :
    (∃ e, (db.resume i).Told op.connection i (.error e)) ∧ Ready (db.resume i) op.connection ∧
      Stable db (db.resume i) := by
  have hwhy : why ≠ .released := fun heq =>
    hregular.twoPhase.not_released h.runs h.call h.holds.found h.holds.phase (heq ▸ hending)
  obtain ⟨hover, hsucceeds, hstable⟩ := hregular.refused_alone h.holds h.runs hending hwhy
  exact ⟨⟨_, hover.told⟩, ready_of_succeeds hsucceeds, hstable⟩

/-- The read of a worker may have its turn. -/
theorem Serves.resume_read {op : Operation} {me : Lock.Holder}
    (h : p.Serves target t db i op me txn p.read) (hregular : db.Regular clock)
    (hfinds : p.Finds target t db) (hfits : p.Fits t) (hrow : ∃ v, p.rowIn t = some v)
    (hstand : w.stand = .reading i) (hown : op.connection = w.connection)
    (hopened : op.opened = false) : p.Advances target t db w 0 (db.resume i) := by
  rcases h.bodyEnding?_cases hfinds hfits with
    hnone | ⟨why, hrefused⟩ | ⟨-, v, hv, hfetched, hdone⟩ | ⟨n, hwrite, -⟩
  · obtain ⟨stand, hserves, hstable, -⟩ := h.resume hfinds hfits (fun _ => hrow) hnone
    exact advances_of_stable hfinds hfits hstable (.reads hstand hserves hown hopened)
  · obtain ⟨⟨e, htold⟩, hready, hstable⟩ := h.refused hregular hrefused
    rw [hown] at htold hready
    exact advances_of_stable hfinds hfits hstable (.lost (.inl hstand) htold hready)
  · have hrested := h.rested hfinds hopened hdone
    have htold := hrested.runs.told
    have hholds := hrested.holds
    -- The read has had the lock of the row, and still has it.
    have hwrites : p.Writes target (db.resume i) me.txn :=
      (hrested.locks db.Shut hregular.twoPhase.locks).writes _ _ h.holds.not_shut
        (h.writes hregular.twoPhase hfetched)
    rw [← hv, hown] at htold
    rw [hown] at hholds
    exact advances_of_stable hfinds hfits hrested.stable (.read hstand htold hholds h.empty hwrites)
  · cases hwrite

/-- The write of a worker may have its turn. -/
theorem Serves.resume_write {op : Operation} {me : Lock.Holder}
    (h : p.Serves target t db i op me txn (p.write (p.nextIn t))) (hregular : db.Regular clock)
    (hfinds : p.Finds target t db) (hfits : p.Fits t)
    (hstand : w.stand = .writing i) (hown : op.connection = w.connection)
    (hopened : op.opened = false) (hwrites : p.Writes target db me.txn) :
    p.Advances target t db w 0 (db.resume i) := by
  rcases h.bodyEnding?_cases hfinds hfits with
    hnone | ⟨why, hrefused⟩ | ⟨hread, -⟩ | ⟨n, -, hdone⟩
  · obtain ⟨stand, hserves, hstable, hlocks⟩ := h.resume hfinds hfits nofun hnone
    have hkept : p.Writes target (db.resume i) me.txn :=
      (hlocks db.Shut hregular.twoPhase.locks).writes _ _ h.holds.not_shut hwrites
    exact advances_of_stable hfinds hfits hstable (.writes hstand hserves hown hopened hkept)
  · obtain ⟨⟨e, htold⟩, hready, hstable⟩ := h.refused hregular hrefused
    rw [hown] at htold hready
    exact advances_of_stable hfinds hfits hstable (.lost (.inr hstand) htold hready)
  · cases hread
  · have hrested := h.rested hfinds hopened hdone
    have htold := hrested.runs.told
    have hholds := hrested.holds
    have hkept : p.Writes target (db.resume i) me.txn :=
      (hrested.locks db.Shut hregular.twoPhase.locks).writes _ _ h.holds.not_shut hwrites
    rw [hown] at htold hholds
    refine advances_of_stable hfinds hfits hrested.stable (.wrote hstand htold hholds ?_ hkept)
    show txn.log.appendAll _ = p.increment target t
    rw [h.empty]
    rfl

/-- The commit of a worker may apply its number. -/
theorem advances_of_applies {op : Operation} {me : Lock.Holder}
    (h : Applies i op me txn (.ok none) db) (hregular : db.Regular clock)
    (hfinds : p.Finds target t db) (hfits : p.Fits t) (hstand : w.stand = .committing i)
    (hown : op.connection = w.connection) (hlog : txn.log = p.increment target t)
    (hwrites : p.Writes target db me.txn) : p.Advances target t db w 0 (db.resume i) := by
  obtain ⟨t', store, hplan, htable, hfits', hrow'⟩ := hfinds.applyPlan_eq hfits (p.nextIn t)
  obtain ⟨errors, herrors, hruns, hattached, -, hstore, hregistry, -⟩ := h.resume
  obtain ⟨txn', hfound, hc, -⟩ := hregular.tidy.owner h.attached
  have hentries : txn.log.entries = [⟨target.id, .integer p.key, .put (.integer (p.nextIn t))⟩] := by
    rw [hlog]
    rfl
  rw [hentries, hplan] at herrors hstore
  subst herrors
  refine ⟨t', 1, ⟨hregistry ▸ hfinds.looked, ?_⟩, hfits', .applied hstand hruns hattached hown,
    .inr ⟨hrow', rfl, rfl, _, txn', hfound, hc.trans hown, hwrites⟩⟩
  rw [hstore]
  exact htable

/-- A call that a worker waits for may have its turn. -/
theorem Follows.resume (h : p.Follows target t db w k) (hregular : db.Regular clock)
    (hfinds : p.Finds target t db) (hfits : p.Fits t) (hrow : ∃ v, p.rowIn t = some v)
    (hawaits : w.awaits = some i) {op : Operation} (hop : db.tasks[i]? = some (.operation op))
    (hopen : ¬ op.IsOver) : p.Advances target t db w k (db.resume i) := by
  -- A call that has its result is over.
  have htold : ∀ {r}, ¬ db.Told w.connection i r := by
    rintro r ⟨op', hop', -, hover⟩
    cases hop.symm.trans hop'
    exact hopen ⟨r, hover⟩
  unfold Worker.awaits at hawaits
  -- By cases on how far the worker is. The call that it waits for is a statement at work, or the
  -- commit in one of its two phases; everywhere else there is no such call, or it is over.
  cases h with
  | idle stand ready =>
    rw [stand] at hawaits
    cases hawaits
  | ended stand =>
    rw [stand] at hawaits
    cases hawaits
  | reads stand serves own opened =>
    rw [stand] at hawaits
    cases hawaits
    exact serves.resume_read hregular hfinds hfits hrow stand own opened
  | writes stand serves own opened writes =>
    rw [stand] at hawaits
    cases hawaits
    exact serves.resume_write hregular hfinds hfits stand own opened writes
  | applies stand applies own log writes =>
    rw [stand] at hawaits
    cases hawaits
    exact advances_of_applies applies hregular hfinds hfits stand own log writes
  | applied stand runs attached own =>
    rw [stand] at hawaits
    cases hawaits
    have hended := released_resume runs attached
    have hover := hended.runs.told
    have hdetached := hended.attached
    rw [Result.join_nil, own] at hover
    rw [own] at hdetached
    exact advances_of_stable hfinds hfits hended.stable (.committed stand hover hdetached)
  | read stand told holds empty writes =>
    rw [stand] at hawaits
    cases hawaits
    exact absurd told htold
  | wrote stand told holds log writes =>
    rw [stand] at hawaits
    cases hawaits
    exact absurd told htold
  | lost stand told ready =>
    rcases stand with stand | stand <;>
    · rw [stand] at hawaits
      cases hawaits
      exact absurd told htold
  | committed stand told detached =>
    rw [stand] at hawaits
    cases hawaits
    exact absurd told htold
  | leaves stand told =>
    rw [stand] at hawaits
    cases hawaits
    exact absurd told htold

end TxStore.CounterPlan
