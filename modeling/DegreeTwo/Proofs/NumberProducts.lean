import DegreeTwo.Proofs.Buffers
import DegreeTwo.Proofs.Value.Basic

/-!
# Products with a number

A factor times a number can be written as a multiple, which is added to an affine function, or as a
product of two factors, of which the right one has no terms.  Both append the multiples of the terms
and add the product of the constants, in this order, so that they end alike.
-/

namespace DegreeTwo

variable {T : ScalarType} {width : IntWidth}

/-! ## Arithmetic of integer coefficients -/

namespace Scalar

theorem add_eq_ok {a b sum : Scalar (.integer width)} :
    a.add b = .ok sum ↔ sum.toInt = a.toInt + b.toInt := BoundedInt.fit_eq_ok

theorem mul_eq_ok {a b product : Scalar (.integer width)} :
    a.mul b = .ok product ↔ product.toInt = a.toInt * b.toInt := BoundedInt.fit_eq_ok

/-- Two products with exchanged factors are the same number, or overflow alike. -/
theorem mul_comm (a b : Scalar (.integer width)) : a.mul b = b.mul a :=
  congrArg (BoundedInt.fit .multiply) (Int.mul_comm a.val b.val)

@[simp]
theorem zero_add (a : Scalar (.integer width)) : zero.add a = .ok a := by
  simp [add_eq_ok]

@[simp]
theorem add_zero (a : Scalar (.integer width)) : a.add zero = .ok a := by
  simp [add_eq_ok]

@[simp]
theorem one_mul (a : Scalar (.integer width)) : one.mul a = .ok a := by
  simp [mul_eq_ok]

@[simp]
theorem mul_one (a : Scalar (.integer width)) : a.mul one = .ok a := by
  simp [mul_eq_ok]

@[simp]
theorem zero_mul (a : Scalar (.integer width)) : zero.mul a = .ok zero := by
  simp [mul_eq_ok]

end Scalar

@[simp]
theorem LinearTerm.scale_ofVariable (x : Variable) (number : Scalar (.integer width)) :
    (ofVariable x).scale number = .ok ⟨number, x⟩ := by
  simp [scale, ofVariable]

/-! ## Multiples of factors -/

namespace Factor

@[simp]
theorem terms_same (f : AffineFunction T) : (function (.same f)).terms = f.linear :=
  LinearTerm.map_widen_self _ f.linear

@[simp]
theorem constant?_same (f : AffineFunction T) :
    (function (.same f)).constant? = some f.constant :=
  congrArg some (f.constant.widen_self _)

end Factor

namespace AffineFunction

/-- Adding a multiple of a factor appends the multiples of its terms and adds that of its
constant. -/
theorem addScaledFactor_eq {dest : AffineFunction (.integer width)} {x : Factor (.integer width)}
    (number : Scalar (.integer width))
    (fits : dest.linear.length + x.terms.length < Index.limit) :
    dest.addScaledFactor number x = (do
      let scaled ← x.terms.mapM fun term => term.scale number
      let constant ← QuadraticFunction.addConstants dest.constant x.constant? (some number)
      pure ⟨dest.linear ++ scaled, constant⟩) := by
  cases x with
  | var x =>
      rw [Factor.terms, List.mapM_cons, List.mapM_nil, LinearTerm.scale_ofVariable]
      rfl
  | term x =>
      rw [Factor.terms, List.mapM_cons, List.mapM_nil, addScaledFactor]
      cases x.linearTerm.scale number <;> rfl
  | function x =>
      rw [Factor.terms, List.length_map] at fits
      rw [addScaledFactor_function, Index.add_eq_ok_of_lt fits, ok_bind, Factor.terms,
        List.mapM_map]
      simp only [bind_assoc, Factor.constant?, QuadraticFunction.addConstants]
      rfl

end AffineFunction

namespace QuadraticFunction

/-- Terms times no terms are no terms. -/
theorem appendProducts_nil {buffer : List (QuadraticTerm T)} (x : List (LinearTerm T))
    (fits : buffer.length < Index.limit) : appendProducts buffer x [] = .ok buffer := by
  have rows_empty : (x.mapM fun left => ([] : List (LinearTerm T)).mapM fun right =>
      left.times right) = .ok (x.map fun _ => []) := by
    rw [mapM_eq_ok, List.forall₂_map_right_iff]
    exact List.forall₂_same.mpr fun _ _ => rfl
  have no_products : Index.mul x.length 0 = .ok 0 := Index.mul_eq_ok.mpr ⟨Nat.zero_lt_succ _, rfl⟩
  have no_slots : Index.add buffer.length 0 = .ok buffer.length := Index.add_eq_ok_of_lt fits
  have flat : (x.map fun _ => ([] : List (QuadraticTerm T))).flatten = [] := by simp
  rw [appendProducts_eq, List.length_nil, no_products, ok_bind, no_slots, ok_bind, rows_empty,
    ok_bind, flat, List.append_nil]
  rfl

/-- Only the terms of the left factor are scaled where the left factor has no constant or the right
one has no terms. -/
theorem appendScaled_left {buffer x y : List (LinearTerm T)} {xConstant : Option (Scalar T)}
    (number : Scalar T) (none_right : xConstant = none ∨ y = [])
    (fits : buffer.length + x.length < Index.limit) :
    appendScaled buffer x y xConstant (some number) = (do
      let scaled ← x.mapM fun term => term.scale number
      pure (buffer ++ scaled)) := by
  have no_terms : scaleTerms y xConstant = .ok [] := by
    rcases none_right with rfl | rfl
    · rfl
    · cases xConstant <;> rfl
  have no_slots : (if xConstant.isSome then y.length else 0) = 0 := by
    rcases none_right with rfl | rfl <;> simp
  have count : Index.add x.length 0 = .ok x.length := Index.add_eq_ok_of_lt (by omega)
  rw [appendScaled_eq, no_slots, no_terms]
  simp only [Option.isSome_some, if_true, scaleTerms, count, ok_bind, Index.add_eq_ok_of_lt fits,
    List.append_nil]

/-- Writing a factor times a number as a product of two factors adds a multiple of the factor to the
affine part. -/
theorem addFactorProduct_number {dest : QuadraticFunction (.integer width)}
    {x : Factor (.integer width)} (number : Below Scalar (.integer width))
    (quadratic_fits : dest.quadratic.length < Index.limit)
    (linear_fits : dest.affine.linear.length + x.terms.length < Index.limit) :
    dest.addFactorProduct x (.number number) =
      mk dest.quadratic <$> dest.affine.addScaledFactor number.scalar x := by
  rw [addFactorProduct, AffineOperand.terms, AffineOperand.constant?,
    appendProducts_nil x.terms quadratic_fits, ok_bind,
    appendScaled_left number.scalar (.inr rfl) linear_fits, bind_assoc,
    AffineFunction.addScaledFactor_eq number.scalar linear_fits]
  simp only [pure_bind, map_bind, map_pure]

end QuadraticFunction

end DegreeTwo
