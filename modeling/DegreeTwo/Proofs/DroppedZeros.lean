import DegreeTwo.Proofs.Evaluation
import DegreeTwo.Proofs.NumberProducts

/-!
# Evaluation without zeros

A term with coefficient zero adds zero to the running sum of an evaluation, whatever the values of
its variables are, provided that they have values.  So dropping it leaves all later running sums as
they are, and with them the first one that overflows.
-/

namespace DegreeTwo

variable {T V : ScalarType} {width valueWidth : IntWidth}

/-! ## Idle steps -/

/-- The computation reports a variable without a value. -/
def ReportsMissing {α : Type} (outcome : Except Failure α) : Prop :=
  ∃ x, outcome = refuse (.missingValue x)

theorem ReportsMissing.bind {α β : Type} {outcome : Except Failure α}
    (missing : ReportsMissing outcome) (next : α → Except Failure β) :
    ReportsMissing (outcome >>= next) := by
  obtain ⟨x, rfl⟩ := missing
  exact ⟨x, rfl⟩

/-- Inputs whose steps do nothing but report a missing variable may be dropped from a fold that
reports none. -/
theorem foldlM_filter_of_idle {σ α : Type} {step : σ → α → Except Failure σ} {keep : α → Bool}
    (idle : ∀ state input, keep input = false →
      step state input = .ok state ∨ ReportsMissing (step state input))
    {start : σ} {inputs : List α} (no_missing : ¬ ReportsMissing (inputs.foldlM step start)) :
    (inputs.filter keep).foldlM step start = inputs.foldlM step start := by
  induction inputs generalizing start with
  | nil => rfl
  | cons input inputs ih =>
      rw [List.foldlM_cons] at no_missing ⊢
      cases kept : keep input with
      | true =>
          rw [List.filter_cons_of_pos kept, List.foldlM_cons]
          apply bind_congr_ok
          intro after succeeds
          rw [succeeds, ok_bind] at no_missing
          exact ih no_missing
      | false =>
          rw [List.filter_cons_of_neg (by simp [kept])]
          rcases idle start input kept with unchanged | missing
          · rw [unchanged, ok_bind] at no_missing ⊢
            exact ih no_missing
          · exact absurd (missing.bind _) no_missing

/-! ## Terms with coefficient zero -/

namespace Scalar

variable {C : ScalarType} [C.IsInteger]

theorem widen_eq_zero (h : T ≤ C) {a : Scalar T} (vanishes : a.toInt = 0) : a.widen h = zero := by
  apply ext_integer
  obtain ⟨wide, rfl⟩ := ScalarType.IsInteger.exists_width (T := C)
  rw [toInt_widen, vanishes, toInt_zero]

theorem zero_mul_integer (a : Scalar C) : zero.mul a = .ok zero := by
  obtain ⟨wide, rfl⟩ := ScalarType.IsInteger.exists_width (T := C)
  exact zero_mul a

theorem add_zero_integer (a : Scalar C) : a.add zero = .ok a := by
  obtain ⟨wide, rfl⟩ := ScalarType.IsInteger.exists_width (T := C)
  exact add_zero a

/-- Only zeros are dropped: the magnitude of any other integer exceeds zero, even where it
saturates. -/
theorem eq_zero_of_dropped {a : Scalar (.integer width)} (dropped : zero.less a.magnitude = false) :
    a.toInt = 0 := by
  rwa [less_magnitude_zero, decide_eq_false_iff_not, not_not] at dropped

end Scalar

theorem Assignment.lookup_cases (values : Assignment V) (x : Variable) :
    (∃ value, values.lookup x = .ok value) ∨ ReportsMissing (values.lookup x) := by
  rw [lookup]
  cases values.value? x with
  | none => exact .inr ⟨x, rfl⟩
  | some value => exact .inl ⟨value, rfl⟩

section Idle

variable [T.IsInteger] [V.IsInteger] (values : Assignment V) (sum : Scalar (T.common V))

theorem AffineFunction.addTermValue_of_zero {term : LinearTerm T}
    (vanishes : term.coeff.toInt = 0) :
    addTermValue values sum term = .ok sum ∨ ReportsMissing (addTermValue values sum term) := by
  rw [addTermValue, Scalar.widen_eq_zero _ vanishes]
  rcases values.lookup_cases term.var with ⟨value, found⟩ | missing
  · rw [found, ok_bind, Scalar.zero_mul_integer, lift_ok, ok_bind, sum.add_zero_integer]
    exact .inl rfl
  · exact .inr (missing.bind _)

theorem QuadraticFunction.addTermValue_of_zero {term : QuadraticTerm T}
    (vanishes : term.coeff.toInt = 0) :
    addTermValue values sum term = .ok sum ∨ ReportsMissing (addTermValue values sum term) := by
  rw [addTermValue, Scalar.widen_eq_zero _ vanishes]
  rcases values.lookup_cases term.row with ⟨row, row_found⟩ | row_missing
  · rcases values.lookup_cases term.col with ⟨col, col_found⟩ | col_missing
    · rw [row_found, ok_bind, col_found, ok_bind, Scalar.zero_mul_integer, lift_ok, ok_bind,
        Scalar.zero_mul_integer, lift_ok, ok_bind, sum.add_zero_integer]
      exact .inl rfl
    · rw [row_found, ok_bind]
      exact .inr (col_missing.bind _)
  · exact .inr (row_missing.bind _)

end Idle

/-! ## Functions without zeros -/

variable (values : Assignment (.integer valueWidth))

/-- The terms with coefficient zero may be dropped from an evaluation that reports no missing
variable. -/
theorem AffineFunction.evaluate_pruneZeros {f : AffineFunction (.integer width)}
    (no_missing : ¬ ReportsMissing (f.evaluate values)) :
    f.pruneZeros.evaluate values = f.evaluate values := by
  apply foldlM_filter_of_idle _ no_missing
  intro sum term dropped
  exact addTermValue_of_zero values sum (Scalar.eq_zero_of_dropped dropped)

/-- The terms with coefficient zero may be dropped from an evaluation that reports no missing
variable. -/
theorem QuadraticFunction.evaluate_pruneZeros {f : QuadraticFunction (.integer width)}
    (no_missing : ¬ ReportsMissing (f.evaluate values)) :
    f.pruneZeros.evaluate values = f.evaluate values := by
  have affine_no_missing : ¬ ReportsMissing (f.affine.evaluate values) := fun missing =>
    no_missing (missing.bind _)
  have affine : f.pruneZeros.affine.evaluate values = f.affine.evaluate values :=
    AffineFunction.evaluate_pruneZeros values affine_no_missing
  rw [evaluate, evaluate, affine]
  apply bind_congr_ok
  intro start succeeds
  rw [evaluate, succeeds, ok_bind] at no_missing
  apply foldlM_filter_of_idle _ no_missing
  intro sum term dropped
  exact addTermValue_of_zero values sum (Scalar.eq_zero_of_dropped dropped)

/-- Unless an evaluation over integers reports a variable without a value, it has the same outcome
without the terms of coefficient zero: the same number, or the same overflow. -/
theorem evaluation_without_zeros (width valueWidth : IntWidth)
    (values : Assignment (.integer valueWidth)) :
    (∀ f : AffineFunction (.integer width),
      (∀ x, f.evaluate values ≠ refuse (.missingValue x)) →
        f.pruneZeros.evaluate values = f.evaluate values) ∧
    ∀ f : QuadraticFunction (.integer width),
      (∀ x, f.evaluate values ≠ refuse (.missingValue x)) →
        f.pruneZeros.evaluate values = f.evaluate values :=
  ⟨fun _ no_missing => AffineFunction.evaluate_pruneZeros values (not_exists.mpr no_missing),
    fun _ no_missing => QuadraticFunction.evaluate_pruneZeros values (not_exists.mpr no_missing)⟩

/-- The function `90 * x1 + 0 * x0 + 90 * x1`, whose value does not fit. -/
def overfullSum : AffineFunction (.integer .bits8) :=
  ⟨[⟨⟨90, by decide, by decide⟩, ⟨1⟩⟩, ⟨.zero, ⟨0⟩⟩, ⟨⟨90, by decide, by decide⟩, ⟨1⟩⟩], .zero⟩

/-- The function `0 * x1 * x0 + 90 * x0 * x1 + 0 * x0 + 30 * x1`. -/
def diluted : QuadraticFunction (.integer .bits8) :=
  ⟨[⟨.zero, ⟨1⟩, ⟨0⟩⟩, ⟨⟨90, by decide, by decide⟩, ⟨0⟩, ⟨1⟩⟩],
    [⟨.zero, ⟨0⟩⟩, ⟨⟨30, by decide, by decide⟩, ⟨1⟩⟩], .zero⟩

theorem evaluation_without_zeros_overfull :
    overfullSum.pruneZeros.evaluate (.dense [.one, .one] : Assignment (.integer .bits8)) =
        .error (.faulted (.overflow .add)) ∧
      diluted.pruneZeros.evaluate (.dense [.one, .one] : Assignment (.integer .bits8)) =
        .ok ⟨120, by decide, by decide⟩ ∧
      overfullSum.evaluate (.sparse [(⟨1⟩, .one)] : Assignment (.integer .bits8)) =
        refuse (.missingValue ⟨0⟩) := by
  obtain ⟨affine, quadratic⟩ := evaluation_without_zeros .bits8 .bits8 (.dense [.one, .one])
  refine ⟨?_, ?_, rfl⟩
  · exact (affine overfullSum fun _ => nofun).trans rfl
  · exact (quadratic diluted fun _ => nofun).trans rfl

end DegreeTwo
