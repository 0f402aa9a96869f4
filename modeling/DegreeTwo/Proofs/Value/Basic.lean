import DegreeTwo.Proofs.Outcome
import DegreeTwo.Quadratic.Basic
import Mathlib.Algebra.BigOperators.Group.List.Basic
import Mathlib.Algebra.BigOperators.Ring.List
import Mathlib.Tactic.Ring

/-!
# Values over the integers

A function with integer coefficients is a polynomial: it has a value at every assignment of integers
to the variables, without any bound on the numbers.  Arithmetic on coefficients computes with these
integers as long as the results fit.
-/

namespace DegreeTwo

/-! ## Sums over lists of results -/

section Sums

variable {α β σ ι : Type}

theorem sum_eq_of_forall₂ {before : α → Int} {after : β → Int} {inputs : List α} {outputs : List β}
    (related : List.Forall₂ (fun input output => after output = before input) inputs outputs) :
    (outputs.map after).sum = (inputs.map before).sum := by
  induction related with
  | nil => rfl
  | cons equal _ ih => rw [List.map_cons, List.map_cons, List.sum_cons, List.sum_cons, equal, ih]

/-- The sum of results is the sum of what the results have to be. -/
theorem Yields.mapM_sum {f : α → Except Fault β} (before : ι → α → Int) (after : ι → β → Int)
    {inputs : List α}
    (each : ∀ input ∈ inputs, Yields (f input) fun output => ∀ i, after i output = before i input) :
    Yields (inputs.mapM f) fun outputs =>
      ∀ i, (outputs.map (after i)).sum = (inputs.map (before i)).sum := by
  apply (Yields.mapM each).imp
  intro outputs related i
  exact sum_eq_of_forall₂ (related.imp fun _ _ equal => equal i)

/-- Results that are multiples by one number have this multiple of the sum. -/
theorem Yields.mapM_sum_mul {f : α → Except Fault β} {before : ι → α → Int} {after : ι → β → Int}
    {number : Int} {inputs : List α}
    (each : ∀ input ∈ inputs,
      Yields (f input) fun output => ∀ i, after i output = before i input * number) :
    Yields (inputs.mapM f) fun outputs =>
      ∀ i, (outputs.map (after i)).sum = (inputs.map (before i)).sum * number := by
  apply (Yields.mapM_sum (fun i input => before i input * number) after each).imp
  intro outputs sums i
  rw [sums i, List.sum_map_mul_right]

/-- Steps that each add a weight to a total add the sum of the weights. -/
theorem Yields.foldlM_sum {step : σ → α → Except Fault σ} (total : ι → σ → Int)
    (weight : ι → α → Int)
    (each : ∀ state input, Yields (step state input) fun after =>
      ∀ i, total i after = total i state + weight i input) (start : σ) (inputs : List α) :
    Yields (inputs.foldlM step start) fun final =>
      ∀ i, total i final = total i start + (inputs.map (weight i)).sum := by
  induction inputs generalizing start with
  | nil => exact .pure fun i => by simp
  | cons input inputs ih =>
      rw [List.foldlM_cons]
      apply (each start input).bind
      intro after added
      apply (ih after).imp
      intro final rest i
      rw [rest i, added i, List.map_cons, List.sum_cons, Int.add_assoc]

end Sums

/-! ## Coefficients -/

/-- What lies below an integer type is an integer type. -/
theorem ScalarType.exists_integer {S : ScalarType} {width : IntWidth} (h : S ≤ .integer width) :
    ∃ narrow, S = .integer narrow := by
  cases S with
  | integer narrow => exact ⟨narrow, rfl⟩
  | single => exact absurd h (by cases width <;> decide)
  | double => exact absurd h (by cases width <;> decide)

namespace Scalar

/-- The integer that a coefficient of an integer type is.  Floating-point numbers count as zero;
only coefficients of integer types are ever read in this way. -/
def toInt : {T : ScalarType} → Scalar T → Int
  | .integer _, a => a.val
  | .single, _ => 0
  | .double, _ => 0

variable {width : IntWidth}

@[simp]
theorem toInt_zero : (zero : Scalar (.integer width)).toInt = 0 := rfl

@[simp]
theorem toInt_one : (one : Scalar (.integer width)).toInt = 1 := rfl

@[simp]
theorem toInt_minusOne : (minusOne : Scalar (.integer width)).toInt = -1 := rfl

/-- What lies below an integer type is an integer type, and widening keeps the integer. -/
@[simp]
theorem toInt_widen {S : ScalarType} (h : S ≤ .integer width) (a : Scalar S) :
    (a.widen h).toInt = a.toInt := by
  cases S with
  | integer narrow => rfl
  | single => exact absurd h (by cases width <;> decide)
  | double => exact absurd h (by cases width <;> decide)

theorem ext_toInt {a b : Scalar (.integer width)} (h : a.toInt = b.toInt) : a = b :=
  BoundedInt.ext h

theorem fit_yields (operation : Operation) (n : Int) :
    Yields (BoundedInt.fit operation n) fun a : Scalar (.integer width) => a.toInt = n := by
  cases result : (BoundedInt.fit operation n : Except Fault (BoundedInt width)) with
  | error fault =>
      obtain ⟨rfl, -⟩ := BoundedInt.fit_eq_error.mp result
      exact .overflow operation
  | ok a => exact BoundedInt.fit_eq_ok.mp result

theorem add_yields (a b : Scalar (.integer width)) :
    Yields (a.add b) fun sum => sum.toInt = a.toInt + b.toInt := fit_yields .add _

theorem sub_yields (a b : Scalar (.integer width)) :
    Yields (a.sub b) fun difference => difference.toInt = a.toInt - b.toInt :=
  fit_yields .subtract _

theorem mul_yields (a b : Scalar (.integer width)) :
    Yields (a.mul b) fun product => product.toInt = a.toInt * b.toInt := fit_yields .multiply _

theorem neg_yields (a : Scalar (.integer width)) :
    Yields a.neg fun opposite => opposite.toInt = -a.toInt := fit_yields .negate _

end Scalar

/-! ## Terms -/

namespace LinearTerm

/-- The value of a linear term at a point. -/
def value {T : ScalarType} (point : Variable → Int) (term : LinearTerm T) : Int :=
  term.coeff.toInt * point term.var

variable {width : IntWidth}

@[simp]
theorem value_widen {S : ScalarType} (h : S ≤ .integer width) (point : Variable → Int)
    (term : LinearTerm S) : (term.widen h).value point = term.value point := by
  rw [value, value, widen, Scalar.toInt_widen]

theorem value_comp_widen {S : ScalarType} (h : S ≤ .integer width) (point : Variable → Int) :
    value point ∘ widen h = value point := funext (value_widen h point)

theorem scale_yields (term : LinearTerm (.integer width)) (number : Scalar (.integer width)) :
    Yields (term.scale number) fun scaled =>
      ∀ point, scaled.value point = term.value point * number.toInt := by
  apply (Scalar.mul_yields _ _).bind
  intro coeff coeff_eq
  refine .pure fun point => ?_
  rw [value, value, coeff_eq]
  ring

theorem neg_yields (term : LinearTerm (.integer width)) :
    Yields term.neg fun opposite => ∀ point, opposite.value point = -term.value point := by
  apply (Scalar.neg_yields _).bind
  intro coeff coeff_eq
  refine .pure fun point => ?_
  rw [value, value, coeff_eq, Int.neg_mul]

end LinearTerm

namespace QuadraticTerm

/-- The value of a quadratic term at a point. -/
def value {T : ScalarType} (point : Variable → Int) (term : QuadraticTerm T) : Int :=
  term.coeff.toInt * point term.row * point term.col

variable {width : IntWidth}

@[simp]
theorem value_widen {S : ScalarType} (h : S ≤ .integer width) (point : Variable → Int)
    (term : QuadraticTerm S) : (term.widen h).value point = term.value point := by
  rw [value, value, widen, Scalar.toInt_widen]

theorem value_comp_widen {S : ScalarType} (h : S ≤ .integer width) (point : Variable → Int) :
    value point ∘ widen h = value point := funext (value_widen h point)

@[simp]
theorem value_orient {T : ScalarType} (point : Variable → Int) (term : QuadraticTerm T) :
    term.orient.value point = term.value point := by
  rw [orient]
  split
  · simp only [value]
    ring
  · rfl

theorem value_comp_orient {T : ScalarType} (point : Variable → Int) :
    value point ∘ (orient : QuadraticTerm T → QuadraticTerm T) = value point :=
  funext (value_orient point)

theorem scale_yields (term : QuadraticTerm (.integer width)) (number : Scalar (.integer width)) :
    Yields (term.scale number) fun scaled =>
      ∀ point, scaled.value point = term.value point * number.toInt := by
  apply (Scalar.mul_yields _ _).bind
  intro coeff coeff_eq
  refine .pure fun point => ?_
  rw [value, value, coeff_eq]
  ring

theorem neg_yields (term : QuadraticTerm (.integer width)) :
    Yields term.neg fun opposite => ∀ point, opposite.value point = -term.value point := by
  apply (Scalar.neg_yields _).bind
  intro coeff coeff_eq
  refine .pure fun point => ?_
  rw [value, value, coeff_eq]
  ring

end QuadraticTerm

theorem LinearTerm.times_yields {width : IntWidth} (left right : LinearTerm (.integer width)) :
    Yields (left.times right) fun product =>
      ∀ point, product.value point = left.value point * right.value point := by
  apply (Scalar.mul_yields _ _).bind
  intro coeff coeff_eq
  refine .pure fun point => ?_
  rw [QuadraticTerm.value, value, value, coeff_eq]
  ring

/-! ## Functions -/

/-- The value of an affine function at a point. -/
def AffineFunction.value {T : ScalarType} (point : Variable → Int) (f : AffineFunction T) : Int :=
  (f.linear.map (LinearTerm.value point)).sum + f.constant.toInt

/-- The value of a quadratic function at a point. -/
def QuadraticFunction.value {T : ScalarType} (point : Variable → Int) (f : QuadraticFunction T) :
    Int :=
  (f.quadratic.map (QuadraticTerm.value point)).sum + f.affine.value point

end DegreeTwo
