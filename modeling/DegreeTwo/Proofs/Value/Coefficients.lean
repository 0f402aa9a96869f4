import DegreeTwo.Proofs.Sorting.Collected
import DegreeTwo.Proofs.Value.Basic
import DegreeTwo.Proofs.VariableOrder

/-!
# Coefficients from values

The coefficients of a polynomial of degree at most two are combinations of its values at the origin,
at the unit points and their opposites, and at the sums of two unit points.  So two functions with
the same values have the same coefficients, however these are split over terms.
-/

namespace DegreeTwo

variable {width : IntWidth}

/-- The sum of the coefficients on a variable. -/
def AffineFunction.coefficient (f : AffineFunction (.integer width)) (x : Variable) : Int :=
  totalAt LinearTerm.var (fun term => term.coeff.toInt) f.linear x

/-- The sum of the coefficients on a pair of variables, in either order of them. -/
def QuadraticFunction.coefficient (f : QuadraticFunction (.integer width)) (pair : VariablePair) :
    Int :=
  totalAt QuadraticTerm.pair (fun term => term.coeff.toInt) (f.quadratic.map QuadraticTerm.orient)
    pair

/-- The point with value one at a variable and zero elsewhere. -/
def unitPoint (x : Variable) : Variable → Int := fun y => if y = x then 1 else 0

/-! ## Linear terms -/

theorem LinearTerm.sum_value_zero (terms : List (LinearTerm (.integer width))) :
    (terms.map (value fun _ => 0)).sum = 0 := by
  induction terms with
  | nil => rfl
  | cons term terms ih => rw [List.map_cons, List.sum_cons, ih, value, Int.mul_zero, Int.add_zero]

theorem LinearTerm.sum_value_neg (point : Variable → Int)
    (terms : List (LinearTerm (.integer width))) :
    (terms.map (value fun x => -point x)).sum = -(terms.map (value point)).sum := by
  induction terms with
  | nil => rfl
  | cons term terms ih =>
      rw [List.map_cons, List.sum_cons, ih, List.map_cons, List.sum_cons, value, value]
      ring

theorem LinearTerm.sum_value_add (first second : Variable → Int)
    (terms : List (LinearTerm (.integer width))) :
    (terms.map (value fun x => first x + second x)).sum =
      (terms.map (value first)).sum + (terms.map (value second)).sum := by
  induction terms with
  | nil => rfl
  | cons term terms ih =>
      rw [List.map_cons, List.sum_cons, ih, List.map_cons, List.sum_cons, List.map_cons,
        List.sum_cons, value, value, value]
      ring

theorem LinearTerm.sum_value_unitPoint (x : Variable) (terms : List (LinearTerm (.integer width))) :
    (terms.map (value (unitPoint x))).sum = totalAt var (fun term => term.coeff.toInt) terms x := by
  induction terms with
  | nil => rfl
  | cons term terms ih =>
      rw [List.map_cons, List.sum_cons, ih, totalAt_cons, value, unitPoint, mul_ite, Int.mul_one,
        Int.mul_zero]

/-! ## Quadratic terms -/

namespace QuadraticTerm

theorem sum_value_neg (point : Variable → Int) (terms : List (QuadraticTerm (.integer width))) :
    (terms.map (value fun x => -point x)).sum = (terms.map (value point)).sum := by
  induction terms with
  | nil => rfl
  | cons term terms ih =>
      rw [List.map_cons, List.sum_cons, ih, List.map_cons, List.sum_cons, value, value]
      ring

theorem sum_value_zero (terms : List (QuadraticTerm (.integer width))) :
    (terms.map (value fun _ => 0)).sum = 0 := by
  induction terms with
  | nil => rfl
  | cons term terms ih => rw [List.map_cons, List.sum_cons, ih, value, Int.mul_zero, Int.add_zero]

theorem value_unitPoint (x : Variable) (term : QuadraticTerm (.integer width)) :
    term.value (unitPoint x) = if term.pair = ⟨x, x⟩ then term.coeff.toInt else 0 := by
  simp only [value, unitPoint, pair, VariablePair.mk.injEq]
  by_cases row : term.row = x
  · by_cases col : term.col = x <;> simp [row, col]
  · simp [row]

theorem sum_value_unitPoint (x : Variable) (terms : List (QuadraticTerm (.integer width))) :
    (terms.map (value (unitPoint x))).sum =
      totalAt pair (fun term => term.coeff.toInt) terms ⟨x, x⟩ := by
  rw [totalAt]
  congr 1
  exact List.map_congr_left fun term _ => term.value_unitPoint x

/-- At the sum of two unit points an oriented term counts for the two squares and for the product in
one of its orders. -/
theorem value_two_unitPoints {x y : Variable} (less : x < y) {term : QuadraticTerm (.integer width)}
    (oriented : term.row ≤ term.col) :
    term.value (fun z => unitPoint x z + unitPoint y z) =
      (if term.pair = ⟨x, x⟩ then term.coeff.toInt else 0) +
        (if term.pair = ⟨y, y⟩ then term.coeff.toInt else 0) +
        if term.pair = ⟨x, y⟩ then term.coeff.toInt else 0 := by
  obtain ⟨coeff, row, col⟩ := term
  simp only [value, unitPoint, pair, VariablePair.mk.injEq] at oriented ⊢
  have x_ne_y : x ≠ y := ne_of_lt less
  have y_ne_x : y ≠ x := x_ne_y.symm
  by_cases row_x : row = x
  · by_cases col_x : col = x
    · simp [row_x, col_x, x_ne_y]
    · by_cases col_y : col = y <;> simp [row_x, col_x, col_y, x_ne_y, y_ne_x]
  · by_cases row_y : row = y
    · have col_ne_x : col ≠ x := by
        rintro rfl
        rw [row_y] at oriented
        exact absurd oriented (not_le.mpr less)
      by_cases col_y : col = y <;> simp [row_y, col_ne_x, col_y, y_ne_x]
    · simp [row_x, row_y]

theorem sum_value_two_unitPoints {x y : Variable} (less : x < y)
    {terms : List (QuadraticTerm (.integer width))}
    (oriented : ∀ term ∈ terms, term.row ≤ term.col) :
    (terms.map (value fun z => unitPoint x z + unitPoint y z)).sum =
      totalAt pair (fun term => term.coeff.toInt) terms ⟨x, x⟩ +
        totalAt pair (fun term => term.coeff.toInt) terms ⟨y, y⟩ +
        totalAt pair (fun term => term.coeff.toInt) terms ⟨x, y⟩ := by
  induction terms with
  | nil => rfl
  | cons term terms ih =>
      rw [List.map_cons, List.sum_cons, ih fun other member =>
        oriented other (List.mem_cons_of_mem term member), totalAt_cons, totalAt_cons, totalAt_cons,
        value_two_unitPoints less (oriented term List.mem_cons_self)]
      ring

theorem orient_row_le_col {T : ScalarType} (term : QuadraticTerm T) :
    term.orient.row ≤ term.orient.col := by
  rw [orient]
  split
  · exact le_of_lt ‹_›
  · exact not_lt.mp ‹_›

end QuadraticTerm

/-! ## Functions with the same values -/

namespace AffineFunction

theorem value_zero (f : AffineFunction (.integer width)) :
    f.value (fun _ => 0) = f.constant.toInt := by
  rw [value, LinearTerm.sum_value_zero, Int.zero_add]

theorem value_unitPoint (f : AffineFunction (.integer width)) (x : Variable) :
    f.value (unitPoint x) = f.coefficient x + f.constant.toInt := by
  rw [value, LinearTerm.sum_value_unitPoint, coefficient]

variable {f g : AffineFunction (.integer width)}

theorem constant_eq_of_value (same : ∀ point, f.value point = g.value point) :
    f.constant = g.constant := by
  apply Scalar.ext_toInt
  rw [← f.value_zero, ← g.value_zero, same]

theorem coefficient_eq_of_value (same : ∀ point, f.value point = g.value point) (x : Variable) :
    f.coefficient x = g.coefficient x := by
  have at_unit := same (unitPoint x)
  rw [f.value_unitPoint, g.value_unitPoint, constant_eq_of_value same] at at_unit
  omega

end AffineFunction

namespace QuadraticFunction

theorem value_zero (f : QuadraticFunction (.integer width)) :
    f.value (fun _ => 0) = f.affine.constant.toInt := by
  rw [value, QuadraticTerm.sum_value_zero, f.affine.value_zero, Int.zero_add]

theorem value_eq_oriented (f : QuadraticFunction (.integer width)) (point : Variable → Int) :
    f.value point =
      ((f.quadratic.map QuadraticTerm.orient).map (QuadraticTerm.value point)).sum +
        f.affine.value point := by
  rw [value, List.map_map, QuadraticTerm.value_comp_orient]

theorem value_unitPoint (f : QuadraticFunction (.integer width)) (x : Variable) :
    f.value (unitPoint x) =
      f.coefficient ⟨x, x⟩ + (f.affine.coefficient x + f.affine.constant.toInt) := by
  rw [value_eq_oriented, QuadraticTerm.sum_value_unitPoint, f.affine.value_unitPoint, coefficient]

theorem value_neg_unitPoint (f : QuadraticFunction (.integer width)) (x : Variable) :
    f.value (fun y => -unitPoint x y) =
      f.coefficient ⟨x, x⟩ + (-f.affine.coefficient x + f.affine.constant.toInt) := by
  rw [value_eq_oriented, QuadraticTerm.sum_value_neg, QuadraticTerm.sum_value_unitPoint,
    AffineFunction.value, LinearTerm.sum_value_neg, LinearTerm.sum_value_unitPoint, coefficient,
    AffineFunction.coefficient]

theorem value_two_unitPoints (f : QuadraticFunction (.integer width)) {x y : Variable}
    (less : x < y) :
    f.value (fun z => unitPoint x z + unitPoint y z) =
      f.coefficient ⟨x, x⟩ + f.coefficient ⟨y, y⟩ + f.coefficient ⟨x, y⟩ +
        (f.affine.coefficient x + f.affine.coefficient y + f.affine.constant.toInt) := by
  have oriented : ∀ term ∈ f.quadratic.map QuadraticTerm.orient, term.row ≤ term.col := by
    intro term member
    obtain ⟨source, -, rfl⟩ := List.mem_map.mp member
    exact source.orient_row_le_col
  rw [value_eq_oriented, QuadraticTerm.sum_value_two_unitPoints less oriented,
    AffineFunction.value, LinearTerm.sum_value_add, LinearTerm.sum_value_unitPoint,
    LinearTerm.sum_value_unitPoint]
  rfl

theorem coefficient_of_not_oriented (f : QuadraticFunction (.integer width)) {pair : VariablePair}
    (not_oriented : ¬ pair.row ≤ pair.col) : f.coefficient pair = 0 := by
  apply totalAt_eq_zero
  intro occurs
  obtain ⟨term, member, rfl⟩ := List.mem_map.mp occurs
  obtain ⟨source, -, rfl⟩ := List.mem_map.mp member
  exact not_oriented source.orient_row_le_col

variable {f g : QuadraticFunction (.integer width)}

theorem constant_eq_of_value (same : ∀ point, f.value point = g.value point) :
    f.affine.constant = g.affine.constant := by
  apply Scalar.ext_toInt
  rw [← f.value_zero, ← g.value_zero, same]

/-- The values at a unit point and its opposite separate the square from the linear part. -/
theorem square_eq_of_value (same : ∀ point, f.value point = g.value point) (x : Variable) :
    f.coefficient ⟨x, x⟩ = g.coefficient ⟨x, x⟩ ∧
      f.affine.coefficient x = g.affine.coefficient x := by
  have at_unit := same (unitPoint x)
  have at_opposite := same fun y => -unitPoint x y
  rw [f.value_unitPoint, g.value_unitPoint, constant_eq_of_value same] at at_unit
  rw [f.value_neg_unitPoint, g.value_neg_unitPoint, constant_eq_of_value same] at at_opposite
  omega

theorem coefficient_eq_of_value (same : ∀ point, f.value point = g.value point)
    (pair : VariablePair) : f.coefficient pair = g.coefficient pair := by
  obtain ⟨x, y⟩ := pair
  rcases lt_trichotomy x y with less | rfl | greater
  · have at_sum := same fun z => unitPoint x z + unitPoint y z
    obtain ⟨x_square, x_linear⟩ := square_eq_of_value same x
    obtain ⟨y_square, y_linear⟩ := square_eq_of_value same y
    rw [f.value_two_unitPoints less, g.value_two_unitPoints less, constant_eq_of_value same]
      at at_sum
    omega
  · exact (square_eq_of_value same x).1
  · -- No oriented term has its greater variable first.
    rw [f.coefficient_of_not_oriented (not_le.mpr greater),
      g.coefficient_of_not_oriented (not_le.mpr greater)]

end QuadraticFunction

end DegreeTwo
