import DegreeTwo.Proofs.Run
import DegreeTwo.Update

/-!
# Operations in place

What an operation in place answers, and the destination that it leaves, follow from its steps.  An
operation is atomic if a refusal leaves the destination as it was; the run of atomic operations is
the run of their outcomes, in which a refused one is passed over.
-/

namespace DegreeTwo.InPlace

variable {σ τ υ α β : Type}

/-! ## Answers -/

theorem answer_bind (first : InPlace σ α) (next : α → InPlace σ β) (dest : σ) :
    (first >>= next).answer dest = (do
      let (answer, after) ← first.answer dest
      match answer with
      | .ok value => (next value).answer after
      | .error error => pure (.error error, after)) := by
  rw [answer, ExceptT.run_bind, StateT.run_bind]
  apply bind_congr
  rintro ⟨_ | _, after⟩ <;> rfl

theorem answer_get_bind (next : σ → InPlace σ α) (dest : σ) :
    (get >>= next : InPlace σ α).answer dest = (next dest).answer dest := rfl

theorem answer_change (step : σ → Except Fault σ) (dest : σ) :
    (change step).answer dest = step dest >>= fun after => pure (.ok (), after) := by
  rw [change, answer_get_bind]
  cases step dest <;> rfl

theorem answer_check (test : Except Failure Unit) (dest : σ) :
    (check test).answer dest =
      match test with
      | .ok () => .ok (.ok (), dest)
      | .error (.refused error) => .ok (.error error, dest)
      | .error (.faulted fault) => .error fault := by
  rcases test with (error | fault) | _ <;> rfl

theorem answer_within (part : Part σ τ) (operation : InPlace τ α) (whole : σ) :
    (within part operation).answer whole = (do
      let value ← part.read whole
      let (answer, after) ← operation.answer value
      pure (answer, part.write whole after)) := rfl

/-! ## Outcomes -/

@[simp]
theorem outcome_bind (first second : InPlace σ Unit) (dest : σ) :
    (first >>= fun _ => second).outcome dest = first.outcome dest >>= second.outcome := by
  rw [outcome, answer_bind, outcome]
  rcases first.answer dest with fault | ⟨_ | _, after⟩ <;> rfl

@[simp]
theorem outcome_get_bind (next : σ → InPlace σ Unit) (dest : σ) :
    (get >>= next : InPlace σ Unit).outcome dest = (next dest).outcome dest := rfl

@[simp]
theorem outcome_modify (update : σ → σ) (dest : σ) :
    (modify update : InPlace σ Unit).outcome dest = pure (update dest) := rfl

@[simp]
theorem outcome_change (step : σ → Except Fault σ) (dest : σ) :
    (change step).outcome dest = liftM (step dest) := by
  rw [outcome, answer_change]
  cases step dest <;> rfl

@[simp]
theorem outcome_check (test : Except Failure Unit) (dest : σ) :
    (check test).outcome dest = test >>= fun _ => pure dest := by
  rcases test with (error | fault) | _ <;> rfl

@[simp]
theorem outcome_within (part : Part σ τ) (operation : InPlace τ Unit) (whole : σ) :
    (within part operation).outcome whole = (do
      let value ← part.read whole
      let after ← operation.outcome value
      pure (part.write whole after)) := by
  unfold outcome
  rw [answer_within]
  cases part.read whole with
  | error fault => rfl
  | ok value =>
      rw [ok_bind, lift_ok, ok_bind]
      rcases operation.answer value with fault | ⟨_ | _, after⟩ <;> rfl

/-! ## Runs -/

/-- A refusal of the operation leaves the destination as it was. -/
def Atomic (operation : InPlace σ Unit) : Prop :=
  ∀ (dest after : σ) (error : Error),
    operation.answer dest = .ok (.error error, after) → after = dest

theorem leaves_of_answer {operation : InPlace σ Unit} {answer : Except Error Unit} {dest after : σ}
    (answered : operation.answer dest = .ok (answer, after)) :
    operation.leaves dest = .ok after := by
  rw [leaves, answered]
  rfl

/-- An atomic operation leaves its outcome or, if it is refused, the destination as it was. -/
theorem leaves_eq_settle {operation : InPlace σ Unit} (atomic : Atomic operation) (dest : σ) :
    operation.leaves dest = settle dest (operation.outcome dest) := by
  rw [leaves, outcome]
  rcases answered : operation.answer dest with fault | ⟨error | _, after⟩
  · rfl
  · obtain rfl := atomic dest after error answered
    rfl
  · rfl

theorem performAll_cons (perform : υ → InPlace σ Unit) (update : υ) (updates : List υ)
    (start : σ) :
    performAll perform (update :: updates) start =
      (perform update).leaves start >>= performAll perform updates :=
  List.foldlM_cons

theorem performAll_append (perform : υ → InPlace σ Unit) (front back : List υ) (start : σ) :
    performAll perform (front ++ back) start =
      performAll perform front start >>= performAll perform back :=
  List.foldlM_append

/-- A run of atomic operations is the run of their outcomes. -/
theorem performAll_eq_runUpdates {perform : υ → InPlace σ Unit}
    (atomic : ∀ update, Atomic (perform update)) (updates : List υ) (start : σ) :
    performAll perform updates start =
      runUpdates (fun update => (perform update).outcome) updates start := by
  simp only [performAll, runUpdates, leaves_eq_settle (atomic _)]

end DegreeTwo.InPlace
