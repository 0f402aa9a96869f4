import DegreeTwo.Quadratic.Basic
import Mathlib.Logic.Basic

/-!
# Equality of integer functions

Coefficients of integer types are compared as the integers that they are, so two functions over such
a type compare equal exactly if they are the same.
-/

namespace DegreeTwo

variable {width : IntWidth}

instance : LawfulBEq (Scalar (.integer width)) where
  rfl := decide_eq_true rfl
  eq_of_beq same := BoundedInt.ext (of_decide_eq_true same)

instance : LawfulBEq (LinearTerm (.integer width)) where
  rfl {term} := by
    change (term.coeff == term.coeff && term.var == term.var) = true
    simp
  eq_of_beq {left right} same := by
    change (left.coeff == right.coeff && left.var == right.var) = true at same
    rw [Bool.and_eq_true, beq_iff_eq, beq_iff_eq] at same
    cases left
    cases right
    rw [LinearTerm.mk.injEq]
    exact same

instance : LawfulBEq (QuadraticTerm (.integer width)) where
  rfl {term} := by
    change (term.coeff == term.coeff && term.row == term.row && term.col == term.col) = true
    simp
  eq_of_beq {left right} same := by
    change (left.coeff == right.coeff && left.row == right.row && left.col == right.col) = true
      at same
    rw [Bool.and_eq_true, Bool.and_eq_true, beq_iff_eq, beq_iff_eq, beq_iff_eq, and_assoc] at same
    cases left
    cases right
    rw [QuadraticTerm.mk.injEq]
    exact same

instance : LawfulBEq (AffineFunction (.integer width)) where
  rfl {f} := by
    change (f.linear == f.linear && f.constant == f.constant) = true
    simp
  eq_of_beq {left right} same := by
    change (left.linear == right.linear && left.constant == right.constant) = true at same
    rw [Bool.and_eq_true, beq_iff_eq, beq_iff_eq] at same
    cases left
    cases right
    rw [AffineFunction.mk.injEq]
    exact same

instance : LawfulBEq (QuadraticFunction (.integer width)) where
  rfl {f} := by
    change (f.quadratic == f.quadratic && f.affine == f.affine) = true
    simp
  eq_of_beq {left right} same := by
    change (left.quadratic == right.quadratic && left.affine == right.affine) = true at same
    rw [Bool.and_eq_true, beq_iff_eq, beq_iff_eq] at same
    cases left
    cases right
    rw [QuadraticFunction.mk.injEq]
    exact same

end DegreeTwo
