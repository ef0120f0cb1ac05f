import TxStore.Proofs.Transaction.Directory
import TxStore.Proofs.Transaction.Edits

/-!
# The logs of transactions are private

Clients start, restart and end transactions, ask for the present one of a connection or for its log,
and write to every log that they were ever given, also when its transaction has long been replaced
or ended. A log is given out as the identifier of its transaction, and each answer tells which one
that is. What has happened is a list of events, the last one first, and from it alone one can read
which transaction a connection has (`latest`) and what was done to the log of a transaction since it
was created (`editsOf`). The directory never holds anything else (`Tells`), and so a log that was
given out before a restart does not lead to the new transaction (`logs_private`). What a call can do
to a directory at all is said once, by `change`.
-/

namespace TxStore.Directory

variable {d d' : Directory} {t u : TransactionId} {c c' : ConnectionId} {txn : Transaction}

/-- What a client may ask for. -/
inductive Call where
  /-- Start a transaction. -/
  | start (c : ConnectionId) (ts : Timestamp) (origin : Origin)
  /-- Replace a transaction by a fresh one. -/
  | restart (c : ConnectionId) (ts : Timestamp)
  /-- End a transaction. -/
  | stop (c : ConnectionId)
  /-- Empty the log of a connection's transaction. -/
  | clearLog (c : ConnectionId)
  /-- Which transaction does a connection have? -/
  | get (c : ConnectionId)
  /-- Which log does the transaction of a connection have? -/
  | getLog (c : ConnectionId)
  /-- Change the log of a transaction. -/
  | edit (t : TransactionId) (change : WriteBuffer.Edit)

/-- What a client is told: which transaction it was about, if it is given one, or an error. -/
abbrev Answer := Except Cause (Option TransactionId)

/-- What a client is told of a transaction that is started, replaced or ended, and the directory
after it; if there is none, it is as before. -/
def grant (d : Directory) : Except Cause (TransactionId × Directory) → Answer × Directory
  | .error e => (.error e, d)
  | .ok (t, d') => (.ok (some t), d')

/-- The answer to a call, and the directory after it. -/
def perform (d : Directory) : Call → Answer × Directory
  | .start c ts origin => d.grant (d.start c ts origin)
  | .restart c ts => d.grant (d.restart c ts)
  | .stop c => d.grant (d.stop c)
  | .clearLog c =>
    match d.clearLog c with
    | .error e => (.error e, d)
    | .ok d' => (.ok none, d')
  | .get c => (.ok ((d.get? c).map Transaction.id), d)
  | .getLog c =>
    match d.get? c with
    | none => (.error .notInTransaction, d)
    | some txn => (.ok (some txn.id), d)
  | .edit t change => (.ok none, d.modifyLog t (·.edit change))

/-- A call and the answer to it. -/
structure Event where
  /-- The call. -/
  call : Call
  /-- The answer. -/
  answer : Answer

/-- What has happened, the last event first, and the directory after it. -/
def step (s : List Event × Directory) (call : Call) : List Event × Directory :=
  (⟨call, (s.2.perform call).1⟩ :: s.1, (s.2.perform call).2)

/-- What happens in several calls, beginning with no transactions. -/
def history (calls : List Call) : List Event × Directory :=
  calls.foldl step ([], .empty)

/-! ## What the events tell -/

namespace Event

/-- The transaction that a client was told about. -/
def told (e : Event) : Option TransactionId :=
  e.answer.toOption.join

/-- The transaction that an event gave to a connection: a new one, or none if it ended the last one.
Nothing if it did neither. -/
def gives (e : Event) (c : ConnectionId) : Option (Option TransactionId) :=
  match e.call with
  | .start c' _ _ | .restart c' _ => if c' = c then e.told.map some else none
  | .stop c' => if c' = c then e.told.map fun _ => none else none
  | .clearLog _ | .get _ | .getLog _ | .edit _ _ => none

/-- Whether an event created a transaction. -/
def Creates (e : Event) (t : TransactionId) : Prop :=
  match e.call with
  | .start _ _ _ | .restart _ _ => e.told = some t
  | .stop _ | .clearLog _ | .get _ | .getLog _ | .edit _ _ => False

/-- It can be found out from the call and what its caller was told. -/
instance (e : Event) (t : TransactionId) : Decidable (e.Creates t) := by
  unfold Creates
  split <;> infer_instance

/-- Who is told of no transaction is given none. -/
theorem gives_eq_none {e : Event} (h : e.told = none) (c : ConnectionId) : e.gives c = none := by
  unfold gives
  rw [h]
  cases e.call with
  | start | restart | stop => exact ite_self none
  | clearLog | get | getLog | edit => rfl

/-- Then none is created either. -/
theorem not_creates {e : Event} (h : e.told = none) (t : TransactionId) : ¬ e.Creates t := by
  unfold Creates
  rw [h]
  cases e.call with
  | start | restart => exact (Option.some_ne_none t).symm
  | stop | clearLog | get | getLog | edit => exact not_false

end Event

/-- The transaction that was started on a connection last, or put in place of another there, unless
it has been ended since. -/
def latest (c : ConnectionId) : List Event → Option TransactionId
  | [] => none
  | e :: past => (e.gives c).getD (latest c past)

/-- What a call has done to the log of a transaction, by the log itself or by the connection whose
transaction it was. -/
def Call.changes (past : List Event) (t : TransactionId) : Call → List WriteBuffer.Edit
  | .edit t' change => if t' = t then [change] else []
  | .clearLog c => if latest c past = some t then [.clear] else []
  | .start _ _ _ | .restart _ _ | .stop _ | .get _ | .getLog _ => []

/-- What was done to the log of a transaction since it was created. -/
def editsOf (t : TransactionId) : List Event → List WriteBuffer.Edit
  | [] => []
  | e :: past => if e.Creates t then [] else editsOf t past ++ e.call.changes past t

/-- The connection that a call is about: for a log, that of its transaction. -/
def Call.connection? (d : Directory) : Call → Option ConnectionId
  | .start c _ _ | .restart c _ | .stop c | .clearLog c | .get c | .getLog c => some c
  | .edit t _ => (d.find? t).map Transaction.connection

/-! ## What a call can do -/

/-- What a call can do to a directory. -/
inductive Change (d : Directory) (call : Call) : Directory → Prop where
  /-- Nothing. -/
  | same : Change d call d
  /-- A new transaction for its connection. -/
  | placed {c : ConnectionId} (about : call.connection? d = some c) (ts : Timestamp)
      (origin : Origin) : Change d call (d.place c ts origin).2
  /-- The end of its connection's transaction. -/
  | stopped {c : ConnectionId} (about : call.connection? d = some c) :
      Change d call { d with current := d.current.erase c }
  /-- A change of one log, given by itself or as that of its connection's transaction. -/
  | edited {u : TransactionId} (f : WriteBuffer → WriteBuffer)
      (about : call.connection? d = (d.find? u).map Transaction.connection ∨
        ∃ c, call.connection? d = some c ∧ d.current.get? c = some u) :
      Change d call (d.modifyLog u f)

/-- A call does one of these things. -/
theorem change (d : Directory) (call : Call) : d.Change call (d.perform call).2 := by
  cases call with
  | start c ts origin =>
    dsimp only [perform]
    unfold start
    split
    · exact .same
    · exact .placed rfl ts origin
  | restart c ts =>
    dsimp only [perform]
    unfold restart
    split
    · exact .same
    · exact .placed rfl ts _
  | stop c =>
    dsimp only [perform]
    unfold stop
    split
    · exact .same
    · exact .stopped rfl
  | clearLog c =>
    dsimp only [perform]
    unfold clearLog
    cases hcurrent : d.current.get? c with
    | none => exact .same
    | some id =>
      have habout : Call.connection? d (.clearLog c) = some c := rfl
      exact .edited (fun _ => .empty) (.inr ⟨c, habout, hcurrent⟩)
  | get c => exact .same
  | getLog c =>
    dsimp only [perform]
    split <;> exact .same
  | edit u change =>
    have habout : Call.connection? d (.edit u change) =
        (d.find? u).map Transaction.connection := rfl
    exact .edited (·.edit change) (.inl habout)

/-- Of a transaction that is there, a call can change the log only. -/
theorem find?_perform (h : d.find? t = some txn) (call : Call) :
    ∃ log, (d.perform call).2.find? t = some { txn with log := log } := by
  have hchange := d.change call
  generalize (d.perform call).2 = d' at hchange ⊢
  cases hchange with
  | same => exact ⟨txn.log, h⟩
  | placed about ts origin => exact ⟨txn.log, find?_place_of_some ts origin h⟩
  | stopped about => exact ⟨txn.log, h⟩
  | @edited u f about =>
    have hfind := find?_modify d u t fun txn => { txn with log := f txn.log }
    by_cases hut : u = t
    · subst hut
      rw [if_pos rfl, h] at hfind
      exact ⟨_, hfind⟩
    · rw [if_neg hut] at hfind
      exact ⟨txn.log, hfind.trans h⟩

/-- A transaction that was not there before a call is new after it. -/
theorem new_of_find?_perform {call : Call} (hnone : d.find? t = none)
    (h : (d.perform call).2.find? t = some txn) : ∃ c ts origin, txn = .new t c ts origin := by
  have hchange := d.change call
  generalize (d.perform call).2 = d' at hchange h
  cases hchange with
  | same => cases hnone.symm.trans h
  | @placed c about ts origin =>
    rw [find?_place] at h
    split at h
    · rename_i heq
      cases h
      exact ⟨c, ts, origin, heq ▸ rfl⟩
    · cases hnone.symm.trans h
  | stopped about => cases hnone.symm.trans h
  | @edited u f about =>
    have hfind := (find?_modify d u t fun txn => { txn with log := f txn.log }).symm.trans h
    split at hfind
    · rename_i heq
      rw [heq, hnone] at hfind
      cases hfind
    · cases hnone.symm.trans hfind

/-! ## The directory holds what the events tell -/

/-- Whether a directory holds what the events tell. -/
structure Tells (past : List Event) (d : Directory) : Prop where
  /-- The transactions stand under their own identifiers. -/
  numbered : d.Numbered
  /-- Each connection has the transaction that it was given last. -/
  current : ∀ c, d.current.get? c = latest c past
  /-- This is there, and belongs to the connection. -/
  belongs : ∀ c t, d.current.get? c = some t → ∃ txn, d.find? t = some txn ∧ txn.connection = c
  /-- Each log holds what was written to it since it was created or cleared. -/
  log : ∀ t txn, d.find? t = some txn →
    txn.log = WriteBuffer.empty.appendAll (WriteBuffer.pending (editsOf t past))
  /-- Every transaction that a client was told about is there. -/
  known : ∀ e ∈ past, ∀ t, e.told = some t → ∃ txn, d.find? t = some txn

namespace Tells

variable {past : List Event} {e : Event}

/-- At the beginning there is nothing to tell. -/
theorem nil : Tells [] .empty where
  numbered t txn hfound := by cases hfound
  current c := rfl
  belongs c t hcurrent := by cases hcurrent
  log t txn hfound := by cases hfound
  known e he := by cases he

/-- The present transaction of a connection is the one that it was given last. -/
theorem get?_eq (h : Tells past d) (c : ConnectionId) :
    d.get? c = (latest c past).bind d.find? := by
  unfold get?
  rw [h.current]

/-- It is there and known by its own identifier. -/
theorem map_get? (h : Tells past d) (c : ConnectionId) :
    (d.get? c).map Transaction.id = latest c past := by
  rw [h.get?_eq]
  cases hlatest : latest c past with
  | none => rfl
  | some t =>
    obtain ⟨txn, hfound, -⟩ := h.belongs c t ((h.current c).trans hlatest)
    rw [Option.bind_some, hfound, Option.map_some, h.numbered t txn hfound]

/-- It is found under its identifier. -/
theorem find?_of_get? (h : Tells past d) (hget : d.get? c = some txn) :
    d.find? txn.id = some txn := by
  obtain ⟨t, -, hfound⟩ := Option.bind_eq_some_iff.mp hget
  rw [h.numbered t txn hfound]
  exact hfound

/-- An event that gives nobody a transaction and changes no log may be told of the same directory.
-/
theorem same (h : Tells past d) (hgives : ∀ c, e.gives c = none) (hcreates : ∀ t, ¬ e.Creates t)
    (hchanges : ∀ t, e.call.changes past t = [])
    (htold : ∀ t, e.told = some t → ∃ txn, d.find? t = some txn) : Tells (e :: past) d where
  numbered := h.numbered
  current c := by
    rw [latest, hgives]
    exact h.current c
  belongs := h.belongs
  log t txn hfound := by
    rw [editsOf, if_neg (hcreates t), hchanges, List.append_nil]
    exact h.log t txn hfound
  known := List.forall_mem_cons.mpr ⟨htold, h.known⟩

/-- A log may be changed. -/
theorem edited (h : Tells past d) (t : TransactionId) (change : WriteBuffer.Edit)
    (hgives : ∀ c, e.gives c = none) (hcreates : ∀ t, ¬ e.Creates t)
    (hchanges : ∀ u, e.call.changes past u = if t = u then [change] else [])
    (htold : e.told = none) : Tells (e :: past) (d.modifyLog t (·.edit change)) := by
  have hfind : ∀ u, (d.modifyLog t (·.edit change)).find? u =
      if t = u then (d.find? t).map fun txn => { txn with log := txn.log.edit change }
      else d.find? u := fun u => find?_modify d t u _
  -- Whoever was found is still there, and belongs to the same connection.
  have hkept : ∀ u txn, d.find? u = some txn → ∃ txn',
      (d.modifyLog t (·.edit change)).find? u = some txn' ∧ txn'.connection = txn.connection := by
    intro u txn hfound
    rw [hfind]
    split
    · rename_i heq
      rw [heq, hfound]
      exact ⟨_, rfl, rfl⟩
    · exact ⟨txn, hfound, rfl⟩
  -- The records of connections and numbers do not mention logs; the log of `t` has one edit more,
  -- as the events have.
  refine ⟨fun u txn hfound => ?_, fun c => ?_, fun c u hcurrent => ?_, fun u txn hfound => ?_,
    List.forall_mem_cons.mpr ⟨fun u hu => ?_, fun f hf u hu => ?_⟩⟩
  · rw [hfind] at hfound
    split at hfound
    · rename_i heq
      obtain ⟨old, hold, rfl⟩ := Option.map_eq_some_iff.mp hfound
      exact (h.numbered t old hold).trans heq
    · exact h.numbered u txn hfound
  · rw [latest, hgives]
    exact (congrArg (·.get? c) (current_modify ..)).trans (h.current c)
  · obtain ⟨txn, hfound, hconnection⟩ :=
      h.belongs c u ((congrArg (·.get? c) (current_modify ..)).symm.trans hcurrent)
    obtain ⟨txn', hfound', hsame⟩ := hkept u txn hfound
    exact ⟨txn', hfound', hsame.trans hconnection⟩
  · rw [editsOf, if_neg (hcreates u), hchanges]
    rw [hfind] at hfound
    split at hfound
    · rename_i heq
      subst heq
      obtain ⟨old, hold, rfl⟩ := Option.map_eq_some_iff.mp hfound
      rw [if_pos rfl, WriteBuffer.pending_concat, ← WriteBuffer.edit_appendAll, ← h.log t old hold]
    · rename_i hne
      rw [if_neg hne, List.append_nil]
      exact h.log u txn hfound
  · rw [htold] at hu
    cases hu
  · obtain ⟨txn, hfound⟩ := h.known f hf u hu
    obtain ⟨txn', hfound', -⟩ := hkept u txn hfound
    exact ⟨txn', hfound'⟩

/-- A connection may be given a new transaction. -/
theorem placed (h : Tells past d) (c : ConnectionId) (ts : Timestamp) (origin : Origin)
    (hgives : ∀ c', e.gives c' = if c = c' then some (some (d.place c ts origin).1) else none)
    (hcreates : ∀ t, e.Creates t ↔ e.told = some t) (hchanges : ∀ t, e.call.changes past t = [])
    (htold : e.told = some (d.place c ts origin).1) :
    Tells (e :: past) (d.place c ts origin).2 := by
  have hcurrent : ∀ c', (d.place c ts origin).2.current.get? c' =
      if c = c' then some (d.place c ts origin).1 else d.current.get? c' :=
    fun c' => Dict.get?_insert ..
  -- Whatever is found afterwards is the new transaction or one that was there before.
  refine ⟨fun u txn hfound => ?_, fun c' => ?_, fun c' u hgiven => ?_, fun u txn hfound => ?_,
    List.forall_mem_cons.mpr ⟨fun u hu => ?_, fun f hf u hu => ?_⟩⟩
  · rw [find?_place] at hfound
    split at hfound
    · rename_i heq
      cases hfound
      exact heq
    · exact h.numbered u txn hfound
  · rw [hcurrent, latest, hgives]
    split
    · rfl
    · exact h.current c'
  · rw [hcurrent] at hgiven
    split at hgiven
    · rename_i heq
      cases hgiven
      rw [find?_place, if_pos rfl]
      exact ⟨_, rfl, heq⟩
    · obtain ⟨txn, hfound, hconnection⟩ := h.belongs c' u hgiven
      exact ⟨txn, find?_place_of_some ts origin hfound, hconnection⟩
  · rw [find?_place] at hfound
    split at hfound
    · rename_i heq
      cases hfound
      rw [editsOf, if_pos ((hcreates u).mpr (htold.trans (congrArg some heq)))]
      rfl
    · rename_i hne
      have hold : ¬ e.Creates u := fun hcreate =>
        hne (Option.some.inj (htold.symm.trans ((hcreates u).mp hcreate)))
      rw [editsOf, if_neg hold, hchanges, List.append_nil]
      exact h.log u txn hfound
  · rw [find?_place, if_pos (Option.some.inj (htold.symm.trans hu))]
    exact ⟨_, rfl⟩
  · obtain ⟨txn, hfound⟩ := h.known f hf u hu
    exact ⟨txn, find?_place_of_some ts origin hfound⟩

/-- The transaction of a connection may be ended. -/
theorem stopped (h : Tells past d) (c : ConnectionId)
    (hgives : ∀ c', e.gives c' = if c = c' then some none else none)
    (hcreates : ∀ t, ¬ e.Creates t) (hchanges : ∀ t, e.call.changes past t = [])
    (htold : ∀ t, e.told = some t → ∃ txn, d.find? t = some txn) :
    Tells (e :: past) { d with current := d.current.erase c } where
  numbered := h.numbered
  current c' := by
    rw [latest, hgives]
    show (d.current.erase c).get? c' = _
    rw [Dict.get?_erase]
    split
    · rfl
    · exact h.current c'
  belongs c' t hcurrent := by
    have hcurrent : (d.current.erase c).get? c' = some t := hcurrent
    rw [Dict.get?_erase] at hcurrent
    split at hcurrent
    · cases hcurrent
    · exact h.belongs c' t hcurrent
  log t txn hfound := by
    rw [editsOf, if_neg (hcreates t), hchanges, List.append_nil]
    exact h.log t txn hfound
  known := List.forall_mem_cons.mpr ⟨htold, h.known⟩

/-- A refused call changes nothing. -/
theorem refused (h : Tells past d) (call : Call) (cause : Cause)
    (hchanges : ∀ t, call.changes past t = []) : Tells (⟨call, .error cause⟩ :: past) d :=
  h.same (Event.gives_eq_none rfl) (Event.not_creates rfl) hchanges fun t htold => by cases htold

/-- After every call the directory holds what the events tell. -/
theorem step (h : Tells past d) (call : Call) :
    Tells (⟨call, (d.perform call).1⟩ :: past) (d.perform call).2 := by
  -- A call is refused and changes nothing, or it places, stops or edits a transaction, or it only
  -- looks.
  cases call with
  | start c ts origin =>
    dsimp only [perform]
    unfold start
    split
    · exact h.refused _ _ fun _ => rfl
    · exact h.placed c ts origin (fun _ => rfl) (fun _ => .rfl) (fun _ => rfl) rfl
  | restart c ts =>
    dsimp only [perform]
    unfold restart
    split
    · exact h.refused _ _ fun _ => rfl
    · exact h.placed c ts _ (fun _ => rfl) (fun _ => .rfl) (fun _ => rfl) rfl
  | stop c =>
    dsimp only [perform]
    unfold stop
    split
    · exact h.refused _ _ fun _ => rfl
    · rename_i id hcurrent
      refine h.stopped c (fun _ => rfl) (fun _ => not_false) (fun _ => rfl) fun t htold => ?_
      cases htold
      obtain ⟨txn, hfound, -⟩ := h.belongs c id hcurrent
      exact ⟨txn, hfound⟩
  | clearLog c =>
    dsimp only [perform]
    unfold clearLog
    cases hcurrent : d.current.get? c with
    | none =>
      refine h.refused _ _ fun t => ?_
      rw [Call.changes, ← h.current, hcurrent]
      rfl
    | some t =>
      refine h.edited t .clear (fun _ => rfl) (fun _ => not_false) (fun u => ?_) rfl
      rw [Call.changes, ← h.current, hcurrent]
      simp only [Option.some.injEq]
  | get c =>
    refine h.same (fun _ => rfl) (fun _ => not_false) (fun _ => rfl) fun t htold => ?_
    obtain ⟨txn, hget, rfl⟩ := Option.map_eq_some_iff.mp htold
    exact ⟨txn, h.find?_of_get? hget⟩
  | getLog c =>
    dsimp only [perform]
    split
    · exact h.refused _ _ fun _ => rfl
    · rename_i txn hget
      refine h.same (fun _ => rfl) (fun _ => not_false) (fun _ => rfl) fun t htold => ?_
      cases htold
      exact ⟨txn, h.find?_of_get? hget⟩
  | edit t change => exact h.edited t change (fun _ => rfl) (fun _ => not_false) (fun _ => rfl) rfl

/-- After any calls the directory holds what the events tell. -/
theorem of_history (calls : List Call) : Tells (history calls).1 (history calls).2 := by
  have hfold : ∀ (calls : List Call) (s : List Event × Directory), Tells s.1 s.2 →
      Tells (calls.foldl Directory.step s).1 (calls.foldl Directory.step s).2 := by
    intro calls
    induction calls with
    | nil => exact fun _ h => h
    | cons call rest ih => exact fun s h => ih _ (h.step call)
  exact hfold calls ([], .empty) nil

/-- A call about one connection changes neither the present transaction of another nor any that
belongs to it. -/
theorem frame (h : Tells past d) {call : Call} (hother : call.connection? d ≠ some c) :
    (d.perform call).2.current.get? c = d.current.get? c ∧
      ∀ t txn, d.find? t = some txn → txn.connection = c →
        (d.perform call).2.find? t = some txn := by
  have hne : ∀ {c'}, call.connection? d = some c' → c' ≠ c := by
    rintro c' habout rfl
    exact hother habout
  have hchange := d.change call
  generalize (d.perform call).2 = d' at hchange ⊢
  cases hchange with
  | same => exact ⟨rfl, fun _ _ hfound _ => hfound⟩
  | placed about ts origin =>
    refine ⟨(Dict.get?_insert ..).trans (if_neg (hne about)), fun t txn hfound _ => ?_⟩
    exact find?_place_of_some ts origin hfound
  | stopped about =>
    exact ⟨(Dict.get?_erase ..).trans (if_neg (hne about)), fun _ _ hfound _ => hfound⟩
  | @edited u f about =>
    refine ⟨congrArg (·.get? c) (current_modify ..), fun t txn hfound hconnection => ?_⟩
    have hut : u ≠ t := by
      rintro rfl
      rcases about with habout | ⟨c', habout, hcurrent⟩
      · rw [hfound] at habout
        exact hne habout hconnection
      · obtain ⟨txn', hfound', hbelongs⟩ := h.belongs c' u hcurrent
        cases hfound.symm.trans hfound'
        exact hne habout (hbelongs.symm.trans hconnection)
    exact (find?_modify ..).trans ((if_neg hut).trans hfound)

/-- So it does not change what the other connection gets. -/
theorem get?_frame (h : Tells past d) {call : Call} (hother : call.connection? d ≠ some c) :
    (d.perform call).2.get? c = d.get? c := by
  obtain ⟨hcurrent, hfind⟩ := h.frame hother
  unfold get?
  rw [hcurrent]
  cases hc : d.current.get? c with
  | none => rfl
  | some t =>
    obtain ⟨txn, hfound, hconnection⟩ := h.belongs c t hc
    rw [Option.bind_some, Option.bind_some, hfind t txn hfound hconnection, hfound]

end Tells

/-- A change of one log leaves all other transactions, also those of the same connection. -/
theorem find?_edit_of_ne (d : Directory) (change : WriteBuffer.Edit) (h : t ≠ u) :
    (d.perform (.edit t change)).2.find? u = d.find? u :=
  (find?_modify ..).trans (if_neg h)

/-- A restart makes a fresh transaction of the same origin, with an empty log, and leaves the old
one. -/
theorem restart_eq {old : Transaction} (hget : d.get? c = some old) (ts : Timestamp) :
    d.perform (.restart c ts) =
      (.ok (some (d.place c ts old.origin).1), (d.place c ts old.origin).2) := by
  dsimp only [perform]
  unfold restart
  rw [hget]
  rfl

/-- A connection gets the transaction that was placed on it. -/
theorem get?_place (d : Directory) (c : ConnectionId) (ts : Timestamp) (origin : Origin) :
    (d.place c ts origin).2.get? c = some (.new (d.place c ts origin).1 c ts origin) := by
  unfold get?
  have hcurrent : (d.place c ts origin).2.current.get? c = some (d.place c ts origin).1 :=
    Dict.get?_insert_self ..
  rw [hcurrent, Option.bind_some, find?_place, if_pos rfl]

/-- After any calls, and writes and clearings through any logs: a connection gets, and gets the log
of, the transaction that was started on it last or took the place of another there, if that has not
been ended. Every transaction that a client was ever told about is still there, and its log holds
exactly what was written to it since it was created or last cleared. A restart gives a transaction
of the same origin with an empty log, which no write to the log of the old one reaches, and leaves
the old one. No call about one connection or its logs changes the transactions and logs of another,
and no write to a log changes another log. -/
theorem logs_private (calls : List Call) :
    let past := (history calls).1
    let d := (history calls).2
    (∀ c, (d.get? c).map Transaction.id = latest c past ∧
      (d.perform (.get c)).1 = .ok (latest c past) ∧
      (d.perform (.getLog c)).1 = match latest c past with
        | none => .error .notInTransaction
        | some t => .ok (some t)) ∧
    ((∀ e ∈ past, ∀ t, e.told = some t → ∃ txn, d.find? t = some txn) ∧
      ∀ t txn, d.find? t = some txn →
        txn.log = WriteBuffer.empty.appendAll (WriteBuffer.pending (editsOf t past)) ∧
        txn.log.entries = (WriteBuffer.pending (editsOf t past)).mergeSort WriteBuffer.byTable) ∧
    (∀ c ts old, d.get? c = some old →
      let d' := (d.perform (.restart c ts)).2
      ∃ fresh txn, (d.perform (.restart c ts)).1 = .ok (some fresh) ∧ d.find? fresh = none ∧
        d'.get? c = some txn ∧ txn.id = fresh ∧ txn.timestamp = ts ∧ txn.origin = old.origin ∧
        txn.log = .empty ∧ d'.find? old.id = some old ∧
        ∀ change, (d'.perform (.edit old.id change)).2.get? c = some txn) ∧
    (∀ call c, call.connection? d ≠ some c → (d.perform call).2.get? c = d.get? c ∧
      ∀ t txn, d.find? t = some txn → txn.connection = c →
        (d.perform call).2.find? t = some txn) ∧
    ∀ t u change, t ≠ u → (d.perform (.edit t change)).2.find? u = d.find? u := by
  intro past d
  have htells : Tells past d := Tells.of_history calls
  refine ⟨fun c => ?_, ⟨htells.known, fun t txn hfound => ?_⟩, fun c ts old hget => ?_,
    fun call c hother => ⟨htells.get?_frame hother, (htells.frame hother).2⟩,
    fun t u change hne => find?_edit_of_ne d change hne⟩
  · have hlatest := htells.map_get? c
    refine ⟨hlatest, congrArg Except.ok hlatest, ?_⟩
    rw [← hlatest]
    dsimp only [perform]
    cases d.get? c with
    | none => rfl
    | some txn => rfl
  · have hlog := htells.log t txn hfound
    refine ⟨hlog, ?_⟩
    rw [hlog, ← WriteBuffer.foldl_edit]
    exact WriteBuffer.entries_edits _
  · have hold : d.find? old.id = some old := htells.find?_of_get? hget
    have hne : old.id ≠ (d.place c ts old.origin).1 := by
      intro heq
      rw [heq, find?_place_new] at hold
      cases hold
    have hplaced := get?_place d c ts old.origin
    dsimp only
    rw [restart_eq hget]
    refine ⟨_, _, rfl, find?_place_new .., hplaced, rfl, rfl, rfl, rfl,
      find?_place_of_some ts old.origin hold, fun change => ?_⟩
    -- The old transaction is not the one that the connection has now.
    have hcurrent : ∀ d' : Directory, d'.current = (d.place c ts old.origin).2.current →
        d'.get? c = d'.find? (d.place c ts old.origin).1 := by
      intro d' heq
      unfold get?
      rw [heq]
      exact congrArg (Option.bind · d'.find?) (Dict.get?_insert_self ..)
    have hafter := hcurrent ((d.place c ts old.origin).2.perform (.edit old.id change)).2
      (current_modify ..)
    exact hafter.trans ((find?_edit_of_ne _ change hne).trans ((hcurrent _ rfl).symm.trans hplaced))

/-- A row is deleted by way of a log. -/
def deletion (key : Int64) : WriteBuffer.Edit :=
  .append ⟨⟨7⟩, .integer key, .delete⟩

/-- A log is written to before and after its transaction is replaced, and another one after its
transaction has ended. -/
def staleWrites : List Call :=
  [.start 0 ⟨1⟩ .explicit, .start 1 ⟨2⟩ .implicit, .getLog 0, .edit ⟨0⟩ (deletion 1),
    .restart 0 ⟨5⟩, .edit ⟨0⟩ (deletion 2), .stop 1, .edit ⟨1⟩ (deletion 3)]

/-- Both stale logs have what was written to them, and the present one is empty, also when its
transaction is in its turn replaced and written to. -/
theorem logs_private_stale :
    let d := (history staleWrites).2
    (d.perform (.getLog 0)).1 = .ok (some ⟨2⟩) ∧
      (d.perform (.getLog 1)).1 = .error .notInTransaction ∧
      (∃ old, d.find? ⟨0⟩ = some old ∧
        old.log.entries = [⟨⟨7⟩, .integer 1, .delete⟩, ⟨⟨7⟩, .integer 2, .delete⟩]) ∧
      (∃ ended, d.find? ⟨1⟩ = some ended ∧ ended.log.entries = [⟨⟨7⟩, .integer 3, .delete⟩]) ∧
      (∃ present, d.get? 0 = some present ∧ present.origin = .explicit ∧ present.log = .empty) ∧
      (∃ txn, ((d.perform (.restart 0 ⟨9⟩)).2.perform (.edit ⟨2⟩ (deletion 4))).2.get? 0 =
        some txn ∧ txn.id = ⟨3⟩ ∧ txn.origin = .explicit ∧ txn.log = .empty) ∧
      (d.perform (.restart 0 ⟨9⟩)).2.get? 1 = none := by
  intro d
  obtain ⟨hcurrent, ⟨hknown, hlog⟩, hrestart, hframe, -⟩ := logs_private staleWrites
  have hlogs : ∀ e ∈ (history staleWrites).1, ∀ t, e.told = some t → ∃ txn, d.find? t = some txn ∧
      txn.log = WriteBuffer.empty.appendAll
        (WriteBuffer.pending (editsOf t (history staleWrites).1)) := by
    intro e he t htold
    obtain ⟨txn, hfound⟩ := hknown e he t htold
    exact ⟨txn, hfound, (hlog t txn hfound).1⟩
  obtain ⟨old, hold, hwritten⟩ :=
    hlogs ⟨.getLog 0, .ok (some ⟨0⟩)⟩ (List.mem_of_getElem? (i := 5) rfl) ⟨0⟩ rfl
  obtain ⟨ended, hended, hwritten'⟩ :=
    hlogs ⟨.stop 1, .ok (some ⟨1⟩)⟩ (List.mem_of_getElem? (i := 1) rfl) ⟨1⟩ rfl
  obtain ⟨fresh, txn, hanswer, -, -, hid, -, horigin, hempty, -, hafter⟩ :=
    hrestart 0 ⟨9⟩ (.new ⟨2⟩ 0 ⟨5⟩ .explicit) (by decide +kernel)
  have hfresh : fresh = ⟨3⟩ := by
    have hthird : (d.perform (.restart 0 ⟨9⟩)).1 = .ok (some ⟨3⟩) := rfl
    exact Option.some.inj (Except.ok.inj (hanswer.symm.trans hthird))
  exact ⟨(hcurrent 0).2.2, (hcurrent 1).2.2, ⟨old, hold, hwritten ▸ (by decide +kernel)⟩,
    ⟨ended, hended, hwritten' ▸ (by decide +kernel)⟩,
    ⟨_, (by decide +kernel : d.get? 0 = some (.new ⟨2⟩ 0 ⟨5⟩ .explicit)), rfl, rfl⟩,
    ⟨txn, hafter (deletion 4), hid.trans hfresh, horigin, hempty⟩,
    (hframe (.restart 0 ⟨9⟩) 1 nofun).1⟩

end TxStore.Directory
