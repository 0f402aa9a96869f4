import DegreeTwo.Proofs.Outcome

/-!
# Steps of a run

Where a refused update leaves the state as it was, a run is determined by the outcomes of its
updates.  What one step establishes between the states before and after it holds at every step of a
run.  A run breaks off at its first fault, so a run without an overflow has no step with one.
-/

namespace DegreeTwo

variable {σ υ : Type}

/-- The state after an update whose outcome is given: a refusal keeps the state before it. -/
def settle (before : σ) : Except Failure σ → Except Fault σ
  | .ok after => .ok after
  | .error (.refused _) => .ok before
  | .error (.faulted fault) => .error fault

/-- The state after a sequence of updates whose outcomes are given. -/
def runUpdates (apply : υ → σ → Except Failure σ) (updates : List υ) (start : σ) :
    Except Fault σ :=
  updates.foldlM (fun state update => settle state (apply update state)) start

variable {apply : υ → σ → Except Failure σ}

/-! ## Settled outcomes -/

/-- A computation that cannot refuse is settled by its own outcome. -/
@[simp]
theorem settle_lift (before : σ) (computation : Except Fault σ) :
    settle before (liftM computation) = computation := by
  cases computation <;> rfl

theorem settle_lift_bind {α : Type} (before : σ) (computation : Except Fault α) (result : α → σ) :
    settle before (liftM computation >>= fun value => pure (result value)) =
      computation >>= fun value => pure (result value) := by
  cases computation <;> rfl

/-- An update of a part settles as the part does. -/
theorem settle_bind {τ : Type} (part : τ) (whole : τ → σ) (outcome : Except Failure τ) :
    settle (whole part) (outcome >>= fun after => pure (whole after)) =
      settle part outcome >>= fun after => pure (whole after) := by
  cases outcome with
  | ok after => rfl
  | error failure => cases failure <;> rfl

/-- An update leaves its result behind or, if it is refused, the state before it. -/
theorem settle_eq_ok {before after : σ} {outcome : Except Failure σ} :
    settle before outcome = .ok after ↔
      outcome = .ok after ∨ before = after ∧ ∃ error, outcome = .error (.refused error) := by
  cases outcome with
  | ok value => simp [settle]
  | error failure => cases failure <;> simp [settle]

/-- A failing check of a length leaves the state as it is. -/
theorem settle_checkLength (before : σ) (argument : Argument) (expected actual : Nat)
    (next : Unit → Except Failure σ) :
    settle before (checkLength argument expected actual >>= next) =
      if expected = actual then settle before (next ()) else .ok before := by
  rw [checkLength]
  split <;> rfl

/-! ## Runs -/

theorem runUpdates_append (front back : List υ) (start : σ) :
    runUpdates apply (front ++ back) start =
      runUpdates apply front start >>= runUpdates apply back :=
  List.foldlM_append

theorem runUpdates_cons (update : υ) (updates : List υ) (start : σ) :
    runUpdates apply (update :: updates) start =
      settle start (apply update start) >>= runUpdates apply updates :=
  List.foldlM_cons

theorem runUpdates_singleton (update : υ) (start : σ) :
    runUpdates apply [update] start = settle start (apply update start) := by
  rw [runUpdates_cons]
  exact bind_pure _

/-- After an update that is not refused, a run depends on nothing but the outcome of the update. -/
theorem run_after_accepted {front back : List υ} {update : υ} {start before other : σ}
    (run_front : runUpdates apply front start = .ok before)
    (accepted : ∀ error, apply update before ≠ .error (.refused error))
    (same_outcome : apply update before = apply update other) :
    runUpdates apply (front ++ update :: back) start = runUpdates apply (update :: back) other := by
  rw [runUpdates_append, run_front, ok_bind, runUpdates_cons, runUpdates_cons, ← same_outcome]
  cases outcome : apply update before with
  | ok after => rfl
  | error failure =>
      cases failure with
      | refused error => exact absurd outcome (accepted error)
      | faulted fault => rfl

/-- Two runs of the same updates keep their states in a relation that each step keeps. -/
theorem runUpdates_related (related : σ → σ → Prop) {updates : List υ}
    (step : ∀ update ∈ updates, ∀ {first second firstAfter secondAfter}, related first second →
      settle first (apply update first) = .ok firstAfter →
      settle second (apply update second) = .ok secondAfter → related firstAfter secondAfter)
    {first second firstFinal secondFinal : σ} (start : related first second)
    (first_run : runUpdates apply updates first = .ok firstFinal)
    (second_run : runUpdates apply updates second = .ok secondFinal) :
    related firstFinal secondFinal := by
  induction updates generalizing first second with
  | nil =>
      cases first_run
      cases second_run
      exact start
  | cons update updates ih =>
      rw [runUpdates_cons] at first_run second_run
      obtain ⟨firstAfter, first_settles, first_run⟩ := bind_eq_ok.mp first_run
      obtain ⟨secondAfter, second_settles, second_run⟩ := bind_eq_ok.mp second_run
      exact ih (fun other member => step other (List.mem_cons_of_mem update member))
        (step update List.mem_cons_self start first_settles second_settles) first_run second_run

/-- A run keeps what each of its steps keeps. -/
theorem runUpdates_keeps (kept : σ → Prop) {updates : List υ}
    (step : ∀ update ∈ updates, ∀ {before after}, kept before →
      settle before (apply update before) = .ok after → kept after)
    {start final : σ} (start_holds : kept start)
    (run : runUpdates apply updates start = .ok final) : kept final :=
  runUpdates_related (fun state _ => kept state)
    (fun update member _ _ _ _ holds settles _ => step update member holds settles)
    start_holds run run

/-- A run keeps what each update keeps that is not refused. -/
theorem runUpdates_keeps_of_accepted (kept : σ → Prop) {updates : List υ}
    (step : ∀ update ∈ updates, ∀ {before after}, kept before →
      apply update before = .ok after → kept after)
    {start final : σ} (start_holds : kept start)
    (run : runUpdates apply updates start = .ok final) : kept final := by
  apply runUpdates_keeps kept _ start_holds run
  intro update member before after holds settles
  rcases settle_eq_ok.mp settles with accepted | ⟨rfl, -⟩
  · exact step update member holds accepted
  · exact holds

/-- What one update establishes and the later ones keep holds at the end of a run. -/
theorem runUpdates_keeps_after (kept : σ → Prop) {front back : List υ} {update : υ}
    (establishes : ∀ {before after}, settle before (apply update before) = .ok after → kept after)
    (step : ∀ update ∈ back, ∀ {before after}, kept before →
      apply update before = .ok after → kept after)
    {start final : σ} (run : runUpdates apply (front ++ update :: back) start = .ok final) :
    kept final := by
  rw [runUpdates_append] at run
  obtain ⟨before, -, rest⟩ := bind_eq_ok.mp run
  rw [runUpdates_cons] at rest
  obtain ⟨after, settles, run_back⟩ := bind_eq_ok.mp rest
  exact runUpdates_keeps_of_accepted kept step (establishes settles) run_back

variable {relation : υ → σ → σ → Prop}

theorem runUpdates_yields
    (step : ∀ update state, Yields (settle state (apply update state)) (relation update state))
    (updates : List υ) (start : σ) : Yields (runUpdates apply updates start) fun _ => True := by
  induction updates generalizing start with
  | nil => exact .pure trivial
  | cons update updates ih =>
      rw [runUpdates_cons]
      exact (step update start).bind fun after _ => ih after

/-- Every step of a run without an overflow leads from a state to a related one. -/
theorem exists_step_of_run
    (step : ∀ update state, Yields (settle state (apply update state)) (relation update state))
    {updates front back : List υ} {update : υ} {start : σ}
    (no_overflow : ∀ operation, runUpdates apply updates start ≠ .error (.overflow operation))
    (split : updates = front ++ update :: back) :
    ∃ before after, runUpdates apply front start = .ok before ∧
      runUpdates apply (front ++ [update]) start = .ok after ∧ relation update before after := by
  -- A fault of the front or of the step itself would be the outcome of the whole run.
  rw [split, runUpdates_append] at no_overflow
  have front_runs : ∀ operation, runUpdates apply front start ≠ .error (.overflow operation) := by
    intro operation overflow
    exact no_overflow operation (by rw [overflow, error_bind])
  obtain ⟨before, run_front, -⟩ := (runUpdates_yields step front start).exists_ok front_runs
  rw [run_front, ok_bind, runUpdates_cons] at no_overflow
  have step_runs : ∀ operation,
      settle before (apply update before) ≠ .error (.overflow operation) := by
    intro operation overflow
    exact no_overflow operation (by rw [overflow, error_bind])
  obtain ⟨after, run_step, related⟩ := (step update before).exists_ok step_runs
  refine ⟨before, after, run_front, ?_, related⟩
  rw [runUpdates_append, run_front, ok_bind, runUpdates_singleton, run_step]

end DegreeTwo
