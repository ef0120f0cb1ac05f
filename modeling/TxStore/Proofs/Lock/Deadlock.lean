import Mathlib.Logic.Relation
import TxStore.Proofs.Lock.Everyone
import TxStore.Proofs.Lock.Heads

/-!
# Who waits for whom

A request may wait only for younger holders, and so one would expect that no cycle of waiters can
form. But the rule is applied when a request joins a queue, and again only while it is at the head.
Serving stops at the first request that has to keep waiting, and the requests behind it stay
although the key may have gone to an older transaction meanwhile; and a reader is let in to other
readers past a parked writer, younger or older. Such a waiter is `Overtaken`.

`deadlocked_iff` shows that nothing else goes wrong: every wait goes from an older to a younger
transaction or its waiter is overtaken, and a deadlock is a cycle through an overtaken waiter. The
proof rests on an invariant of the heads of the queues, `KeyLock.Fronted`: the head is younger than
none of the holders that oppose it, or at least older than one. `standoff` is a deadlock of two
transactions that only write.
-/

namespace TxStore.Lock

/-- The transactions that use a lock manager, and their ages. -/
structure Clients where
  /-- Whether a transaction is one of them. -/
  member : TransactionId → Prop
  /-- The timestamp of each. -/
  age : TransactionId → Timestamp
  /-- No two of them have the same timestamp. -/
  distinct : ∀ t u, member t → member u → age t = age u → t = u

/-- Whether a holder is one of the clients, with its own timestamp. -/
def Clients.Knows (clients : Clients) (h : Holder) : Prop :=
  clients.member h.txn ∧ h.timestamp = clients.age h.txn

variable {clients : Clients} {released : List TransactionId} {t u : TransactionId}

namespace KeyLock

variable {l : KeyLock}

/-- All holders and waiters are clients. -/
structure Knows (clients : Clients) (l : KeyLock) : Prop where
  /-- The holders are clients. -/
  holders : ∀ b, l.holders.Opposes b .write → clients.Knows b
  /-- The waiters are clients. -/
  waiters : ∀ w ∈ l.queue, clients.Knows w.holder

end KeyLock

namespace Manager

variable {m : Manager} {k : Key} {call : Call} {l' : KeyLock}

/-- Whether `t` has a request in a queue whose caller still listens. -/
def Waits (m : Manager) (t : TransactionId) : Prop :=
  ∃ k, ∃ w ∈ (m.lockOf k).queue, w.holder.txn = t ∧ w.live

/-- What the clients may do: they ask in their own name, and none asks again while it waits. -/
def Disciplined (clients : Clients) (m : Manager) : Call → Prop
  | .request _ me _ => clients.Knows me ∧ ¬ m.Waits me.txn
  | _ => True

/-- Whether `t` has a request parked for a key that another transaction `u` holds in a mode that
conflicts with it. -/
def WaitsFor (m : Manager) (t u : TransactionId) : Prop :=
  ∃ k, ∃ w ∈ (m.lockOf k).queue,
    w.holder.txn = t ∧ u ≠ t ∧ (m.lockOf k).holders.Excludes u w.mode

/-- Whether some transaction waits for itself through others. -/
def Deadlocked (m : Manager) : Prop :=
  ∃ t, Relation.TransGen m.WaitsFor t t

/-- Whether `t` waits for an older transaction `u`: its request stands behind another one, or `u` is
a mere reader of the key. -/
def Overtaken (clients : Clients) (m : Manager) (t u : TransactionId) : Prop :=
  ∃ k ahead w behind, (m.lockOf k).queue = ahead ++ w :: behind ∧
    w.holder.txn = t ∧ u ≠ t ∧ (m.lockOf k).holders.Excludes u w.mode ∧
    (clients.age u).isBefore (clients.age t) ∧
    (ahead ≠ [] ∨ ¬ (m.lockOf k).holders.writes u)

/-- A transaction is not waiting if no queue has it. -/
theorem not_waits_of_entries
    (h : ∀ e ∈ m.locks.entries, ∀ w ∈ e.2.queue, w.holder.txn ≠ t) : ¬ m.Waits t := by
  rintro ⟨k, w, hw, htxn, -⟩
  unfold lockOf Dict.getD Dict.get? at hw
  cases hfind : Entries.find? k m.locks.entries with
  | none =>
    rw [hfind] at hw
    cases hw
  | some lock =>
    rw [hfind] at hw
    exact h (k, lock) (Entries.mem_of_find? hfind) w hw htxn

/-! ## What a run keeps -/

/-- After a run of the clients all holders and waiters are clients. -/
theorem Run.knows {timeout : Option Duration} (run : Run (Disciplined clients) timeout m)
    (k : Key) : (m.lockOf k).Knows clients :=
  have heveryone : (m.lockOf k).Everyone fun b _ => clients.Knows b :=
    run.everyone (fun _ _ _ _ hcall => hcall.1) k
  ⟨fun _ hb => heveryone.of_opposes hb, heveryone.waiters⟩

/-! ## Cycles -/

/-- A waiter that is overtaken waits. -/
theorem Overtaken.waitsFor (h : Overtaken clients m t u) : m.WaitsFor t u := by
  obtain ⟨k, ahead, w, behind, hqueue, htxn, hne, hexcludes, -, -⟩ := h
  refine ⟨k, w, ?_, htxn, hne, hexcludes⟩
  rw [hqueue]
  exact List.mem_append_right _ List.mem_cons_self

/-- Every wait goes from an older to a younger transaction, or its waiter is overtaken. -/
theorem Run.older_or_overtaken {timeout : Option Duration}
    (run : Run (Disciplined clients) timeout m) (h : m.WaitsFor t u) :
    (clients.age t).isBefore (clients.age u) ∨ Overtaken clients m t u := by
  have hknows := run.knows
  have hfronted := run.fronted
  obtain ⟨k, w, hw, rfl, hne, hexcludes⟩ := h
  obtain ⟨hmember, htime⟩ := (hknows k).waiters w hw
  obtain ⟨b, hb, rfl⟩ := Holders.excludes_iff.mp hexcludes
  obtain ⟨hmember', -⟩ := (hknows k).holders b hb.write
  have hages : clients.age w.holder.txn ≠ clients.age b.txn := fun heq =>
    hne (clients.distinct _ _ hmember' hmember heq.symm)
  refine (Timestamp.isBefore_or_isBefore hages).imp id fun hyounger => ?_
  -- The waiter is the younger one. Somebody is ahead of it, or it waits for mere readers.
  obtain ⟨ahead, behind, hqueue⟩ := List.append_of_mem hw
  refine ⟨k, ahead, w, behind, hqueue, rfl, hne, hexcludes, hyounger, ?_⟩
  by_cases hahead : ahead = []
  case neg => exact .inl hahead
  refine .inr fun hwrites => ?_
  subst hahead
  -- At the head the writer is the younger opponent.
  obtain ⟨c, hc, -, hbefore⟩ := hfronted k w behind hqueue
  have hholds : (m.lockOf k).holders.holds b.txn w.mode := by
    cases w.mode with
    | read => exact Holders.holds_read_iff.mpr (.inl hwrites)
    | write => exact Holders.holds_write_iff.mpr hwrites
  have hsame : c.txn = b.txn :=
    (run.consistent.exclusive k).eq_of_excludes hholds (Holders.excludes_iff.mpr ⟨c, hc, rfl⟩)
  obtain ⟨-, hc⟩ := (hknows k).holders c hc.write
  rw [hc, htime, hsame] at hbefore
  -- So the waiter would be older than itself.
  have hloop := Timestamp.isBefore_trans hbefore hyounger
  rw [Timestamp.not_isBefore_self] at hloop
  cases hloop

/-- A chain of waits goes from an older to a younger transaction, or leads past an overtaken
waiter. -/
theorem Run.older_or_overtaken_of_chain {timeout : Option Duration}
    (run : Run (Disciplined clients) timeout m) (h : Relation.TransGen m.WaitsFor t u) :
    (clients.age t).isBefore (clients.age u) ∨
      ∃ v w, Relation.ReflTransGen m.WaitsFor t v ∧ Overtaken clients m v w ∧
        Relation.ReflTransGen m.WaitsFor w u := by
  -- The induction is on the chain from its end, since the last wait may be the overtaken one.
  induction h with
  | single h => exact (run.older_or_overtaken h).imp id fun h => ⟨_, _, .refl, h, .refl⟩
  | tail hchain hlast ih =>
    rcases ih with ih | ⟨v, w, htv, hover, hwu⟩
    · rcases run.older_or_overtaken hlast with hlast | hlast
      · exact .inl (Timestamp.isBefore_trans ih hlast)
      · exact .inr ⟨_, _, hchain.to_reflTransGen, hlast, .refl⟩
    · exact .inr ⟨v, w, htv, hover, hwu.tail hlast⟩

/-- In every run of clients with distinct timestamps, a wait goes from an older to a younger
transaction unless its waiter is overtaken, and there is a deadlock exactly if some overtaken waiter
is waited for by the transaction that overtook it. -/
theorem deadlocked_iff {timeout : Option Duration} (run : Run (Disciplined clients) timeout m) :
    (∀ t u, m.WaitsFor t u →
      (clients.age t).isBefore (clients.age u) ∨ Overtaken clients m t u) ∧
    (m.Deadlocked ↔ ∃ t u, Overtaken clients m t u ∧ Relation.TransGen m.WaitsFor u t) := by
  refine ⟨fun _ _ h => run.older_or_overtaken h, ⟨?cycle, ?closed⟩⟩
  case cycle =>
    rintro ⟨t, hloop⟩
    rcases run.older_or_overtaken_of_chain hloop with hage | ⟨v, w, htv, hover, hwt⟩
    · rw [Timestamp.not_isBefore_self] at hage
      cases hage
    · refine ⟨v, w, hover, ?_⟩
      obtain ⟨-, -, -, -, -, -, hne, -⟩ := hover
      rcases Relation.reflTransGen_iff_eq_or_transGen.mp (hwt.trans htv) with heq | hchain
      · exact absurd heq.symm hne
      · exact hchain
  case closed =>
    rintro ⟨t, u, hover, hchain⟩
    exact ⟨t, .head hover.waitsFor hchain⟩

/-- Where no queue has two waiters and no key is shared by readers, there is no deadlock. -/
theorem Run.not_deadlocked {timeout : Option Duration} (run : Run (Disciplined clients) timeout m)
    (hshort : ∀ k, (m.lockOf k).queue.length ≤ 1)
    (hunshared : ∀ k, (m.lockOf k).holders.readers = []) : ¬ m.Deadlocked := by
  rintro ⟨t, hloop⟩
  rcases run.older_or_overtaken_of_chain hloop with hage | ⟨v, u, -, hover, -⟩
  · rw [Timestamp.not_isBefore_self] at hage
    cases hage
  · obtain ⟨k, ahead, w, behind, hqueue, -, -, hexcludes, -, hpast⟩ := hover
    have hlength := hshort k
    rw [hqueue, List.length_append, List.length_cons] at hlength
    have hahead : ahead = [] := List.eq_nil_of_length_eq_zero (by omega)
    rcases hexcludes with hwrites | ⟨-, hreads⟩
    · exact hpast.elim (fun h => h hahead) (fun h => h hwrites)
    · obtain ⟨r, hr, -⟩ := Holders.reads_iff.mp hreads
      rw [hunshared k] at hr
      cases hr

/-! ## A deadlock of two writers -/

/-- The transactions that are as old as their numbers. -/
def numbered : Clients where
  member t := t.number < UInt64.size
  age t := ⟨.ofNat t.number⟩
  distinct := by
    rintro ⟨a⟩ ⟨b⟩ ha hb h
    have hreading := congrArg (fun s : Timestamp => s.reading.toNat) h
    simp only [UInt64.toNat_ofNat', Nat.mod_eq_of_lt ha, Nat.mod_eq_of_lt hb] at hreading
    exact congrArg TransactionId.mk hreading

/-- Five writers and two keys. Transaction 7 has the second key, and waits for the first one behind
5 and 3. When 10 releases the first key, it goes to 5; 3 has to wait, and nobody looks at 7. Then 5
asks for the second key, and waits for 7. -/
def standoff : Manager :=
  let first : Key := ⟨⟨1⟩, .integer 1⟩
  let second : Key := ⟨⟨1⟩, .integer 2⟩
  [ .request .write ⟨⟨7⟩, ⟨7⟩⟩ second, .request .write ⟨⟨10⟩, ⟨10⟩⟩ first,
    .request .write ⟨⟨5⟩, ⟨5⟩⟩ first, .request .write ⟨⟨3⟩, ⟨3⟩⟩ first,
    .request .write ⟨⟨7⟩, ⟨7⟩⟩ first, .release ⟨10⟩ [first],
    .request .write ⟨⟨5⟩, ⟨5⟩⟩ second ].foldl perform (new none)

/-- The clients keep to the discipline. -/
theorem standoff_run : Run (Disciplined numbered) none standoff := by
  have hidle : ∀ (m : Manager) (mode : Mode) (me : Holder) (k : Key),
      me.txn.number < UInt64.size → me.timestamp = ⟨.ofNat me.txn.number⟩ →
      (∀ e ∈ m.locks.entries, ∀ w ∈ e.2.queue, w.holder.txn ≠ me.txn) →
      Disciplined numbered m (.request mode me k) :=
    fun _ _ _ _ hmember hage hqueues => ⟨⟨hmember, hage⟩, not_waits_of_entries hqueues⟩
  refine Run.performAll .new ⟨⟨trivial, hidle _ _ _ _ ?_ ?_ ?_⟩,
    ⟨trivial, hidle _ _ _ _ ?_ ?_ ?_⟩, ⟨trivial, hidle _ _ _ _ ?_ ?_ ?_⟩,
    ⟨trivial, hidle _ _ _ _ ?_ ?_ ?_⟩, ⟨trivial, hidle _ _ _ _ ?_ ?_ ?_⟩,
    ⟨.of_eq ?_, trivial⟩, ⟨trivial, hidle _ _ _ _ ?_ ?_ ?_⟩, trivial⟩
  all_goals decide

/-- Transaction 5 waits for 7 at the second key, and 7, overtaken, for 5 at the first. -/
theorem standoff_waits :
    standoff.WaitsFor ⟨5⟩ ⟨7⟩ ∧ Overtaken numbered standoff ⟨7⟩ ⟨5⟩ :=
  ⟨⟨⟨⟨1⟩, .integer 2⟩, ⟨⟨⟨5⟩, ⟨5⟩⟩, .write, 4, true⟩,
      by decide, rfl, by decide, .inl (by decide)⟩,
    ⟨⟨⟨1⟩, .integer 1⟩, [⟨⟨⟨3⟩, ⟨3⟩⟩, .write, 2, true⟩], ⟨⟨⟨7⟩, ⟨7⟩⟩, .write, 3, true⟩, [],
      by decide, rfl, by decide, .inl (by decide), by decide, .inl (by decide)⟩⟩

/-- So clients that keep to the discipline, and only write, can get into a deadlock. -/
theorem standoff_deadlocked :
    ¬ ∀ clients timeout m, Run (Disciplined clients) timeout m → ¬ m.Deadlocked := by
  intro hnever
  have htransfers := standoff_waits.2.waitsFor
  exact hnever numbered none standoff standoff_run
    ⟨⟨5⟩, .head standoff_waits.1 (.single htransfers)⟩

/-- The deadlock is seen by its overtaken waiter. -/
theorem deadlocked_iff_standoff :
    Run (Disciplined numbered) none standoff ∧ standoff.Deadlocked := by
  refine ⟨standoff_run, ?_⟩
  obtain ⟨-, hiff⟩ := deadlocked_iff standoff_run
  exact hiff.mpr ⟨⟨7⟩, ⟨5⟩, standoff_waits.2, .single standoff_waits.1⟩

end Manager

end TxStore.Lock
