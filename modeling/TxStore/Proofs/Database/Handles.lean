import Mathlib.Data.Set.Card
import TxStore.Proofs.Database.Traceless

/-!
# Connections and the directory agree

Which transaction a connection has is kept twice: the connection is attached to it, and the
directory names it as the present one. `Lifecycle` keeps the two equal and `Tidy` says which
transactions they may name, so both can be relied on between any two actions
(`current_of_attached`). In particular a connection that is attached to none has none in the
directory, and so a transaction may always be started on it (`start_of_detached`).
-/

namespace TxStore

/-- The size of a map is the number of keys that have a value. -/
theorem Dict.ncard_keys {κ α : Type} [DecidableEq κ] (d : Dict κ α) :
    {k | (d.get? k).isSome}.ncard = d.size := by
  have hkeys : {k | (d.get? k).isSome} = ↑d.keys.toFinset := by
    ext k
    rw [Set.mem_ofPred_eq, ← d.mem_keys, Finset.mem_coe, List.mem_toFinset]
  have hnodup : d.keys.Nodup := d.nodup_keys
  rw [hkeys, Set.ncard_coe_finset, List.toFinset_card_of_nodup hnodup]
  exact List.length_map ..

namespace Database

variable {σ : Type} {db : Database σ} {c : ConnectionId} {t : TransactionId}

/-- A transaction to which a connection is attached was started on it, and is not over. -/
theorem Tidy.owner (h : db.Tidy) (hattached : db.attached.get? c = some t) :
    ∃ txn, db.directory.find? t = some txn ∧ txn.connection = c ∧ txn.phase ≠ .ready := by
  obtain ⟨txn, hfound, hconnection⟩ := h.home c t hattached
  exact ⟨txn, hfound, hconnection, fun hready =>
    ((h.neat t txn hfound).ready hready).2 c hattached⟩

/-- On a connection that is attached to none a transaction can be started, and the connection is
attached to it then. -/
theorem Tidy.start_of_detached (h : db.Tidy) (hdetached : db.attached.get? c = none)
    (origin : Origin) :
    db.start c origin = (.ok (db.directory.place c db.clock.read.1 origin).1,
      db.placed c db.clock.read.1 db.clock.read.2 origin) :=
  start_eq ((h.agreed c).symm.trans hdetached) origin

/-- So a transaction can be begun on it. -/
theorem Tidy.beginTransaction_of_detached (h : db.Tidy) (hdetached : db.attached.get? c = none) :
    db.beginTransaction c = (.ok (db.directory.place c db.clock.read.1 .explicit).1,
      db.placed c db.clock.read.1 db.clock.read.2 .explicit) := by
  unfold Database.beginTransaction Dict.contains
  rw [hdetached]
  exact h.start_of_detached hdetached .explicit

/-- And one is made for a statement, where the settings allow it. -/
theorem Tidy.attach_of_detached (h : db.Tidy) (hdetached : db.attached.get? c = none)
    (himplicit : db.config.implicitTransactions) :
    db.attach c = (.ok ((db.directory.place c db.clock.read.1 .implicit).1, true),
      db.placed c db.clock.read.1 db.clock.read.2 .implicit) := by
  unfold Database.attach
  rw [hdetached]
  dsimp only
  rw [if_pos himplicit, h.start_of_detached hdetached .implicit]

/-- A statement registers with the transaction that is made for it. -/
theorem Tidy.register_of_detached (h : db.Tidy) (hdetached : db.attached.get? c = none)
    (himplicit : db.config.implicitTransactions) :
    ∃ me, (db.register c).1 = .ok (me, true) ∧ (db.register c).2.attached.get? c = some me.txn := by
  have hfound : (db.placed c db.clock.read.1 db.clock.read.2 .implicit).directory.find?
      (db.directory.place c db.clock.read.1 .implicit).1 =
        some (.new (db.directory.place c db.clock.read.1 .implicit).1 c db.clock.read.1
          .implicit) :=
    (db.directory.find?_place c db.clock.read.1 .implicit _).trans (if_pos rfl)
  unfold Database.register
  rw [h.attach_of_detached hdetached himplicit]
  dsimp only
  unfold Database.enroll
  rw [hfound]
  exact ⟨_, rfl, Dict.get?_insert_self ..⟩

/-- Where the settings do not allow it, the statement is told that there is no transaction. -/
theorem register_of_explicit (hdetached : db.attached.get? c = none)
    (hexplicit : db.config.implicitTransactions = false) :
    (db.register c).1 = .error .notInTransaction := by
  unfold Database.register Database.attach
  rw [hdetached]
  dsimp only
  rw [if_neg (by rw [hexplicit]; exact Bool.false_ne_true)]

variable [Backend σ]

/-- As long as clients get their locks through their connections, a connection is attached to a
transaction exactly if the directory names it as the present one of the connection. It was started
on this connection, it is active or being finished, and no other connection is attached to it. So
the directory counts the connections that are in a transaction. On a connection that is attached to
none a transaction can be begun, and a statement has one made for it or is told, where the settings
have it so, that there is none. -/
theorem current_of_attached {config : Config} {clock : Clock} {hasher : Hasher}
    (run : Run Coordinated (new config clock hasher) db) :
    (∀ c t, db.attached.get? c = some t ↔ db.directory.current.get? c = some t) ∧
    (∀ c t, db.attached.get? c = some t →
      (∃ txn, db.directory.find? t = some txn ∧ txn.connection = c ∧
        (txn.phase = .active ∨ txn.phase = .committing ∨ txn.phase = .aborting)) ∧
      ∀ d, db.attached.get? d = some t → d = c) ∧
    db.directory.activeCount = {c | (db.attached.get? c).isSome}.ncard ∧
    ∀ c, db.attached.get? c = none →
      (∃ t, (db.beginTransaction c).1 = .ok t ∧
        (db.beginTransaction c).2.attached.get? c = some t) ∧
      (db.config.implicitTransactions → ∃ me, (db.register c).1 = .ok (me, true) ∧
        (db.register c).2.attached.get? c = some me.txn) ∧
      (db.config.implicitTransactions = false →
        (db.register c).1 = .error .notInTransaction) := by
  have h : db.Tidy := run.tidy (tidy_new config clock hasher) (lifecycle_new config clock hasher)
    (twoPhase_new config clock hasher)
  refine ⟨fun c t => by rw [h.agreed c], fun c t hattached => ?_, ?_, fun c hdetached =>
    ⟨?_, h.register_of_detached hdetached, register_of_explicit hdetached⟩⟩
  · obtain ⟨txn, hfound, hconnection, hphase⟩ := h.owner hattached
    refine ⟨⟨txn, hfound, hconnection, ?_⟩, fun d hd => ?_⟩
    · cases hcase : txn.phase with
      | active => exact .inl rfl
      | committing => exact .inr (.inl rfl)
      | aborting => exact .inr (.inr rfl)
      | ready => exact absurd hcase hphase
    · exact (h.eq_of_attached hfound hd).symm.trans hconnection
  · have hcurrent : {c | (db.attached.get? c).isSome} =
        {c | (db.directory.current.get? c).isSome} := by
      ext c
      rw [Set.mem_ofPred_eq, Set.mem_ofPred_eq, h.agreed c]
    rw [hcurrent]
    exact (Dict.ncard_keys db.directory.current).symm
  · rw [h.beginTransaction_of_detached hdetached]
    exact ⟨_, rfl, Dict.get?_insert_self ..⟩

/-- Two connections write the same row. The younger transaction is refused the lock, and its
connection goes on with a fresh one. -/
def replaced : List (Action MemoryTable) :=
  [ .createTable ⟨"t", .any, .any, ⟨[]⟩⟩, .beginTransaction 0, .beginTransaction 1,
    .submit 0 (.statement (.put "t" (.integer 1) .null)), .resume 0,
    .submit 1 (.statement (.put "t" (.integer 1) (.bool true))), .resume 1 ]

/-- For instance, the directory then names the fresh transaction, counts two connections, and a
third one can begin a transaction. -/
theorem current_of_attached_replaced :
    ∃ db : Database MemoryTable,
      replaced.foldl perform (new .standard default ⟨"Constant", fun _ => ⟨7⟩⟩) = db ∧
      db.attached.get? 1 = some ⟨2⟩ ∧ db.directory.current.get? 1 = some ⟨2⟩ ∧
      {c | (db.attached.get? c).isSome}.ncard = 2 ∧ ∃ t, (db.beginTransaction 2).1 = .ok t := by
  have run : Run Coordinated (new .standard default ⟨"Constant", fun _ => ⟨7⟩⟩)
      (replaced.foldl perform (new .standard default ⟨"Constant", fun _ => ⟨7⟩⟩)) :=
    Run.performAll .start (by decide)
  obtain ⟨hagree, -, hcount, hfree⟩ := current_of_attached run
  obtain ⟨⟨t, hbegun, -⟩, -⟩ := hfree 2 (by decide)
  exact ⟨_, rfl, by decide, (hagree 1 ⟨2⟩).mp (by decide), hcount.symm.trans (by decide), t,
    hbegun⟩

end Database

end TxStore
