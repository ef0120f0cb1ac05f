import Mathlib.Algebra.BigOperators.Intervals
import TxStore.Workload.Counter

/-!
# Crews at work

Workers and the tasks of the database take turns in any order, and time passes in between
(`Crew.Works`); the order in which `Crew.work` lets them go on is one of these. A turn of a worker
changes no other worker and takes back no end (`Crew.Changes`). So once a worker has given up, or is
about to, the workload ends with an error (`Crew.Doomed.turn`, `Crew.Doomed.total`).
-/

namespace TxStore.Crew

variable {c c' first : Crew} {n m : Nat} {w w' : Worker} {a : Agent} {e : Error} {r : Result}
  {i : TaskId} {ends : List (Except Error Nat)}

/-- The crews that come about from a first one when workers and tasks take turns in any order and
time passes. Who stands in line makes no difference. -/
inductive Works (first : Crew) : Crew → Prop where
  /-- Nothing has happened. -/
  | start : Works first first
  /-- Somebody takes a turn. -/
  | turn {c : Crew} (works : Works first c) (a : Agent) : Works first (c.turn a)
  /-- Time passes. -/
  | reach {c : Crew} (works : Works first c) (instant : Duration) :
      Works first { c with db := c.db.reach instant }
  /-- The line changes. -/
  | line {c : Crew} (works : Works first c) (line : List Agent) : Works first { c with line := line }

/-- What a turn of a worker leaves: the other workers, and the ends that there were. -/
structure Changes (c : Crew) (n : Nat) (c' : Crew) : Prop where
  /-- The other workers are where they were. -/
  workers : ∀ m, n ≠ m → c'.workers[m]? = c.workers[m]?
  /-- No end is taken back. -/
  ends : c.ends <+: c'.ends

/-- Whether a worker has given up, or is about to. -/
def Doomed (c : Crew) : Prop :=
  (∃ e, .error e ∈ c.ends) ∨ ∃ (n : Nat) (w : Worker) (i : TaskId) (e : Error),
    c.workers[n]? = some w ∧ w.stand = .rollingBack i e

/-- The order of a line is one of the orders in which turns may be taken. -/
theorem Works.work (fuel : Nat) (works : Works first c) : Works first (Crew.work fuel c) := by
  induction fuel generalizing c with
  | zero => exact works
  | succ fuel ih =>
    unfold Crew.work
    split
    · exact works
    · rename_i a rest _
      exact ih (((works.line rest).turn a).line _)

/-! ## Turns of workers -/

/-- A worker that is set stands where it is set. -/
theorem getElem?_setWorker (hw : c.workers[n]? = some w) (w' : Worker) (m : Nat) :
    (c.setWorker n w').workers[m]? = if n = m then some w' else c.workers[m]? := by
  have hlt : n < c.workers.size := (Array.getElem?_eq_some_iff.mp hw).1
  unfold Crew.setWorker
  rw [Array.getElem?_setIfInBounds, if_pos hlt]

/-- Setting a worker changes it and nothing else. -/
theorem changes_setWorker (c : Crew) (n : Nat) (w : Worker) : c.Changes n (c.setWorker n w) where
  workers _ hne := Array.getElem?_setIfInBounds_ne hne
  ends := List.prefix_refl _

/-- So does making a call for it. -/
theorem changes_call (c : Crew) (n : Nat) (w : Worker) (call : TxStore.Call)
    (stand : TaskId → WorkerStand) : c.Changes n (c.call n w call stand) where
  workers _ hne := Array.getElem?_setIfInBounds_ne hne
  ends := List.prefix_refl _

/-- A worker ends with one more result. -/
theorem changes_endWorker (c : Crew) (n : Nat) (w : Worker) (result : Except Error Nat) :
    c.Changes n (c.endWorker n w result) where
  workers _ hne := Array.getElem?_setIfInBounds_ne hne
  ends := List.prefix_append ..

/-- A worker that meets an error changes at most so. -/
theorem changes_fail (c : Crew) (n : Nat) (w : Worker) (e : Error) : c.Changes n (c.fail n w e) := by
  unfold Crew.fail
  split
  · have hset := changes_setWorker c n { w with retries := w.retries + 1, stand := .idle }
    exact ⟨hset.workers, hset.ends⟩
  · split
    · exact changes_call ..
    · exact changes_endWorker ..

/-- So does a worker that tries. -/
theorem changes_tryNext (c : Crew) (n : Nat) (w : Worker) : c.Changes n (c.tryNext n w) := by
  unfold Crew.tryNext
  split
  · exact changes_call ..
  · dsimp only
    split
    · exact changes_call ..
    · split
      · rename_i e db _
        have hfail := changes_fail { c with db := db } n w (.one e)
        exact ⟨hfail.workers, hfail.ends⟩
      · rename_i db _
        have hcall := changes_call { c with db := db } n w
          (.statement (.get c.plan.table (.integer c.plan.key))) .reading
        exact ⟨hcall.workers, hcall.ends⟩

/-- So does a worker that is told a result. -/
theorem changes_receive (c : Crew) (n : Nat) (w : Worker) (r : Result) :
    c.Changes n (c.receive n w r) := by
  unfold Crew.receive
  split
  · exact changes_call ..
  · exact changes_call ..
  · exact changes_tryNext ..
  · exact changes_fail ..
  · exact changes_fail ..
  · exact changes_fail ..
  · exact changes_endWorker ..
  · exact changes_endWorker ..
  · exact changes_endWorker ..
  · exact ⟨fun _ _ => rfl, List.prefix_refl _⟩
  · exact ⟨fun _ _ => rfl, List.prefix_refl _⟩

/-- So does every worker in its turn. -/
theorem changes_turn (c : Crew) (n : Nat) : c.Changes n (c.turn (.worker n)) := by
  unfold Crew.turn
  dsimp only
  split
  · exact ⟨fun _ _ => rfl, List.prefix_refl _⟩
  · split
    · exact changes_tryNext ..
    · exact changes_receive ..
    · exact ⟨fun _ _ => rfl, List.prefix_refl _⟩

/-- A worker whose wait is over goes on with the result. -/
theorem turn_of_told (hw : c.workers[n]? = some w) (hawaits : w.awaits = some i)
    (htold : c.db.result? i = some r) : c.turn (.worker n) = c.receive n w r := by
  have hresult : w.awaits.bind c.db.result? = some r := by
    rw [hawaits]
    exact htold
  unfold Crew.turn
  dsimp only
  rw [hw]
  dsimp only
  rw [hresult]
  unfold Worker.awaits at hawaits
  cases hstand : w.stand with
  | idle =>
    rw [hstand] at hawaits
    cases hawaits
  | reading i | writing i | committing i | rollingBack i e | leaving i | ended => rfl

/-- One whose wait is not over stays as it is. -/
theorem turn_of_waiting (hw : c.workers[n]? = some w) (hawaits : w.awaits = some i)
    (hwaits : c.db.result? i = none) : c.turn (.worker n) = c := by
  have hresult : w.awaits.bind c.db.result? = none := by
    rw [hawaits]
    exact hwaits
  unfold Crew.turn
  dsimp only
  rw [hw]
  dsimp only
  rw [hresult]
  unfold Worker.awaits at hawaits
  cases hstand : w.stand with
  | idle =>
    rw [hstand] at hawaits
    cases hawaits
  | reading | writing | committing | rollingBack | leaving | ended => rfl

/-! ## Ends -/

/-- A worker that is rolling back ends with its error, or still waits. -/
theorem turn_of_rollingBack (hw : c.workers[n]? = some w) (hstand : w.stand = .rollingBack i e) :
    c.turn (.worker n) = c ∨ c.turn (.worker n) = c.endWorker n w (.error e) := by
  have hawaits : w.awaits = some i := by
    unfold Worker.awaits
    rw [hstand]
  cases hresult : c.db.result? i with
  | none => exact .inl (turn_of_waiting hw hawaits hresult)
  | some r =>
    refine .inr ((turn_of_told hw hawaits hresult).trans ?_)
    unfold Crew.receive
    rw [hstand]

/-- A worker that gives up does not come back. -/
theorem Doomed.turn (h : c.Doomed) (a : Agent) : (c.turn a).Doomed := by
  cases a with
  | task i => exact h
  | worker n =>
    have hchanges := changes_turn c n
    rcases h with ⟨e, he⟩ | ⟨m, w, i, e, hw, hstand⟩
    · exact .inl ⟨e, hchanges.ends.subset he⟩
    · by_cases hnm : n = m
      · subst hnm
        rcases turn_of_rollingBack hw hstand with heq | heq
        · rw [heq]
          exact .inr ⟨n, w, i, e, hw, hstand⟩
        · rw [heq]
          exact .inl ⟨e, List.mem_append_right _ (List.mem_singleton.mpr rfl)⟩
      · exact .inr ⟨m, w, i, e, (hchanges.workers m hnm).trans hw, hstand⟩

/-- Adds an end to a total. -/
def addEnd : Except Error Nat → Except Error Nat → Except Error Nat
  | .error e, .ok _ => .error e
  | _, .error e => .error e
  | .ok n, .ok m => .ok (n + m)

/-- The total adds one end after the other. -/
theorem total_eq (ends : List (Except Error Nat)) : total ends = ends.foldl addEnd (.ok 0) :=
  rfl

/-- Nothing can be added to a total that is an error. -/
theorem foldl_addEnd_error (e : Error) (ends : List (Except Error Nat)) :
    ∃ e', ends.foldl addEnd (.error e) = .error e' := by
  induction ends generalizing e with
  | nil => exact ⟨e, rfl⟩
  | cons last rest ih =>
    cases last with
    | ok n => exact ih e
    | error e' => exact ih e'

/-- With an error among the ends the total is one. -/
theorem total_of_error (h : .error e ∈ ends) : ∃ e', total ends = .error e' := by
  have hfold : ∀ sum, ∃ e', ends.foldl addEnd sum = .error e' := by
    induction ends with
    | nil => cases h
    | cons last rest ih =>
      intro sum
      rcases List.mem_cons.mp h with rfl | hrest
      · have hadded : addEnd sum (.error e) = .error e := by
          cases sum <;> rfl
        rw [List.foldl_cons, hadded]
        exact foldl_addEnd_error e rest
      · exact ih hrest _
  rw [total_eq]
  exact hfold _

/-- If all workers end alike the total is a multiple. -/
theorem total_replicate (k n : Nat) : total (List.replicate k (.ok n)) = .ok (k * n) := by
  have hfold : ∀ m, (List.replicate k (.ok n)).foldl addEnd (.ok m) = .ok (m + k * n) := by
    induction k with
    | zero => simp
    | succ k ih =>
      intro m
      have hadded : addEnd (.ok m) (.ok n) = .ok (m + n) := rfl
      rw [List.replicate_succ, List.foldl_cons, hadded, ih, Nat.add_mul, Nat.one_mul]
      congr 1
      omega
  rw [total_eq, hfold, Nat.zero_add]

/-- When all workers have ended and one has given up, there is no total. -/
theorem Doomed.total (h : c.Doomed) (hended : ∀ (n : Nat) (w : Worker), c.workers[n]? = some w →
    w.stand = .ended) : ∃ e, Crew.total c.ends = .error e := by
  rcases h with ⟨e, he⟩ | ⟨n, w, i, e, hw, hstand⟩
  · exact total_of_error he
  · cases (hended n w hw).symm.trans hstand

end TxStore.Crew
