import DegreeTwo.Proofs.Exact
import DegreeTwo.Proofs.Multiples
import DegreeTwo.Proofs.NormalForm
import DegreeTwo.Proofs.Value.Quadratic
import DegreeTwo.Proofs.Widening.Basic

/-!
# Opposites

The opposite of a function can be asked for by changing its sign, by multiplying it by minus one and
by subtracting it from the zero function.  A width has one integer more below zero than above, so
that the least one has no opposite; each of the ways breaks off exactly if that integer stands in
the function, and otherwise all of them end with the same function.  Subtracting a function is
adding its opposite, under the same condition and one on the constant.
-/

namespace DegreeTwo

variable {T : ScalarType} {width : IntWidth}

/-! ## Numbers of a function -/

/-- The coefficients of the terms and the constant of a function. -/
def AffineFunction.numbers (f : AffineFunction T) : List (Scalar T) :=
  f.linear.map LinearTerm.coeff ++ [f.constant]

/-- The coefficients of the terms and the constant of a function. -/
def QuadraticFunction.numbers (f : QuadraticFunction T) : List (Scalar T) :=
  f.quadratic.map QuadraticTerm.coeff ++ f.affine.numbers

/-- Replace every number of a function, first the terms in order, then the constant. -/
def AffineFunction.mapNumbers (operation : Scalar T → Except Fault (Scalar T))
    (f : AffineFunction T) : Except Fault (AffineFunction T) := do
  let linear ← f.linear.mapM fun term => do
    let coeff ← operation term.coeff
    pure ⟨coeff, term.var⟩
  let constant ← operation f.constant
  pure ⟨linear, constant⟩

/-- Replace every number of a function, first the quadratic terms in order, then the affine part. -/
def QuadraticFunction.mapNumbers (operation : Scalar T → Except Fault (Scalar T))
    (f : QuadraticFunction T) : Except Fault (QuadraticFunction T) := do
  let quadratic ← f.quadratic.mapM fun term => do
    let coeff ← operation term.coeff
    pure ⟨coeff, term.row, term.col⟩
  let affine ← f.affine.mapNumbers operation
  pure ⟨quadratic, affine⟩

namespace AffineFunction

theorem neg_eq_mapNumbers (f : AffineFunction T) : f.neg = f.mapNumbers Scalar.neg := rfl

theorem scale_eq_mapNumbers (f : AffineFunction T) (number : Scalar T) :
    f.scale number = f.mapNumbers fun a => a.mul number := rfl

end AffineFunction

namespace QuadraticFunction

theorem neg_eq_mapNumbers (f : QuadraticFunction T) : f.neg = f.mapNumbers Scalar.neg := rfl

theorem scale_eq_mapNumbers (f : QuadraticFunction T) (number : Scalar T) :
    f.scale number = f.mapNumbers fun a => a.mul number := rfl

end QuadraticFunction

/-! ## Opposites -/

/-- The numbers are opposite. -/
def Scalar.IsOpposite (a b : Scalar (.integer width)) : Prop := b.toInt = -a.toInt

/-- The least number of its type, which is the only one without an opposite. -/
def Scalar.IsLeast (a : Scalar (.integer width)) : Prop := a.toInt = -width.limit

instance (a : Scalar (.integer width)) : Decidable a.IsLeast :=
  inferInstanceAs (Decidable (a.toInt = -width.limit))

/-- The operation returns the opposite of every number but the least one, where it breaks off with
the fault. -/
def Negates (operation : Scalar (.integer width) → Except Fault (Scalar (.integer width)))
    (fault : Fault) : Prop :=
  ∀ a, YieldsIff (operation a) (· = fault) (¬ a.IsLeast) a.IsOpposite

namespace Scalar

theorem fits_neg_iff (a : Scalar (.integer width)) : width.Fits (-a.toInt) ↔ ¬ a.IsLeast := by
  obtain ⟨lower, upper⟩ := a.fits_toInt
  rw [IntWidth.Fits, IsLeast]
  omega

theorem neg_negates : Negates (fun a : Scalar (.integer width) => a.neg) (.overflow .negate) :=
  fun a => (fit_yieldsIff .negate (-a.toInt)).congr a.fits_neg_iff

theorem mul_minusOne_negates :
    Negates (fun a : Scalar (.integer width) => a.mul .minusOne) (.overflow .multiply) := by
  intro a
  have product : a.toInt * (minusOne : Scalar (.integer width)).toInt = -a.toInt := by
    rw [toInt_minusOne, Int.mul_neg_one]
  have yields := a.mul_yieldsIff minusOne
  rw [product] at yields
  exact yields.congr a.fits_neg_iff

theorem IsOpposite.symm {a b : Scalar (.integer width)} (opposite : a.IsOpposite b) :
    b.IsOpposite a := by
  rw [IsOpposite] at opposite ⊢
  omega

/-- Adding the opposite is subtracting. -/
theorem IsOpposite.add_yieldsIff {a b : Scalar (.integer width)} (opposite : a.IsOpposite b)
    (c : Scalar (.integer width)) :
    YieldsIff (c.add b) (· = .overflow .add) (width.Fits (c.toInt - a.toInt)) fun sum =>
      sum.toInt = c.toInt - a.toInt := by
  rw [Int.sub_eq_add_neg, ← show b.toInt = -a.toInt from opposite]
  exact Scalar.add_yieldsIff c b

theorem IsOpposite.not_isLeast {a b : Scalar (.integer width)} (opposite : a.IsOpposite b) :
    ¬ a.IsLeast := by
  have upper := b.fits_toInt.2
  rw [IsOpposite] at opposite
  rw [IsLeast]
  omega

end Scalar

section Negation

variable {operation : Scalar (.integer width) → Except Fault (Scalar (.integer width))}
variable {fault : Fault}

theorem Negates.eq_ok (negates : Negates operation fault) {a b : Scalar (.integer width)}
    (opposite : a.IsOpposite b) : operation a = .ok b := by
  obtain ⟨c, succeeds, c_opposite⟩ := (negates a).ok_iff.mpr opposite.not_isLeast
  have same : c = b := Scalar.ext_toInt (Eq.trans c_opposite (Eq.symm opposite))
  rw [succeeds, same]

/-- The terms are on one variable, with opposite coefficients. -/
def LinearTerm.IsOpposite (left right : LinearTerm (.integer width)) : Prop :=
  left.coeff.IsOpposite right.coeff ∧ left.var = right.var

/-- The terms are on the same two variables, with opposite coefficients. -/
def QuadraticTerm.IsOpposite (left right : QuadraticTerm (.integer width)) : Prop :=
  left.coeff.IsOpposite right.coeff ∧ left.pair = right.pair

theorem LinearTerm.IsOpposite.symm {left right : LinearTerm (.integer width)}
    (opposite : left.IsOpposite right) : right.IsOpposite left :=
  ⟨opposite.1.symm, opposite.2.symm⟩

theorem QuadraticTerm.IsOpposite.symm {left right : QuadraticTerm (.integer width)}
    (opposite : left.IsOpposite right) : right.IsOpposite left :=
  ⟨opposite.1.symm, opposite.2.symm⟩

namespace AffineFunction

variable {f g : AffineFunction (.integer width)}

/-- A number of the function is the least one of its type. -/
def HasLeast (f : AffineFunction (.integer width)) : Prop := ∃ a ∈ f.numbers, a.IsLeast

instance (f : AffineFunction (.integer width)) : Decidable f.HasLeast :=
  inferInstanceAs (Decidable (∃ a ∈ f.numbers, a.IsLeast))

/-- The functions have the same variables in the same order, and opposite numbers. -/
structure IsOpposite (f g : AffineFunction (.integer width)) : Prop where
  /-- The terms are opposite, pair by pair. -/
  linear : List.Forall₂ LinearTerm.IsOpposite f.linear g.linear
  /-- The constants are opposite. -/
  constant : f.constant.IsOpposite g.constant

theorem IsOpposite.symm (opposite : f.IsOpposite g) : g.IsOpposite f :=
  ⟨(opposite.linear.imp fun _ _ related => related.symm).flip, opposite.constant.symm⟩

/-- Negating every number returns a function unless the least number is there. -/
theorem mapNumbers_yieldsIff (negates : Negates operation fault)
    (f : AffineFunction (.integer width)) :
    YieldsIff (f.mapNumbers operation) (· = fault) (¬ f.HasLeast) f.IsOpposite := by
  have terms : YieldsIff (f.linear.mapM fun term => do
      let coeff ← operation term.coeff
      pure (⟨coeff, term.var⟩ : LinearTerm (.integer width))) (· = fault)
        (∀ term ∈ f.linear, ¬ term.coeff.IsLeast) (List.Forall₂ LinearTerm.IsOpposite f.linear) :=
    .mapM fun term _ => (negates term.coeff).map fun coeff opposite => ⟨opposite, rfl⟩
  have function : YieldsIff (f.mapNumbers operation) (· = fault)
      ((∀ term ∈ f.linear, ¬ term.coeff.IsLeast) ∧ ¬ f.constant.IsLeast) f.IsOpposite :=
    terms.bind fun linear related =>
      (negates f.constant).map fun constant opposite => ⟨related, opposite⟩
  apply function.congr
  simp [HasLeast, numbers]

/-- Negating every number of a function returns its opposite, if it has one. -/
theorem IsOpposite.mapNumbers_eq_ok (opposite : f.IsOpposite g)
    (negates : Negates operation fault) : f.mapNumbers operation = .ok g := by
  have terms : (f.linear.mapM fun term => do
      let coeff ← operation term.coeff
      pure (⟨coeff, term.var⟩ : LinearTerm (.integer width))) = .ok g.linear := by
    apply mapM_eq_ok.mpr
    apply opposite.linear.imp
    intro left right related
    rw [negates.eq_ok related.1, related.2]
    rfl
  rw [mapNumbers, terms, ok_bind, negates.eq_ok opposite.constant]
  rfl

theorem neg_yieldsIff (f : AffineFunction (.integer width)) :
    YieldsIff f.neg (· = .overflow .negate) (¬ f.HasLeast) f.IsOpposite := by
  rw [neg_eq_mapNumbers]
  exact f.mapNumbers_yieldsIff Scalar.neg_negates

theorem scale_minusOne_yieldsIff (f : AffineFunction (.integer width)) :
    YieldsIff (f.scale .minusOne) (· = .overflow .multiply) (¬ f.HasLeast) f.IsOpposite := by
  rw [scale_eq_mapNumbers]
  exact f.mapNumbers_yieldsIff Scalar.mul_minusOne_negates

theorem IsOpposite.neg_eq_ok (opposite : f.IsOpposite g) : f.neg = .ok g := by
  rw [neg_eq_mapNumbers]
  exact opposite.mapNumbers_eq_ok Scalar.neg_negates

theorem IsOpposite.scale_minusOne (opposite : f.IsOpposite g) : f.scale .minusOne = .ok g := by
  rw [scale_eq_mapNumbers]
  exact opposite.mapNumbers_eq_ok Scalar.mul_minusOne_negates

/-- Changing the sign and multiplying by minus one break off for the same functions. -/
theorem HasLeast.breaks_off (least : f.HasLeast) :
    f.neg = .error (.overflow .negate) ∧ f.scale .minusOne = .error (.overflow .multiply) :=
  ⟨f.neg_yieldsIff.eq_error (not_not_intro least),
    f.scale_minusOne_yieldsIff.eq_error (not_not_intro least)⟩

/-- Changing the sign and multiplying by minus one return the opposite for the other functions. -/
theorem exists_opposite (no_least : ¬ f.HasLeast) :
    ∃ g, f.IsOpposite g ∧ f.neg = .ok g ∧ f.scale .minusOne = .ok g ∧ g.neg = .ok f := by
  obtain ⟨g, negated, opposite⟩ := f.neg_yieldsIff.ok_iff.mpr no_least
  exact ⟨g, opposite, negated, opposite.scale_minusOne, opposite.symm.neg_eq_ok⟩

theorem IsOpposite.length_eq (opposite : f.IsOpposite g) : g.linear.length = f.linear.length :=
  opposite.linear.length_eq.symm

end AffineFunction

namespace QuadraticFunction

variable {f g : QuadraticFunction (.integer width)}

/-- A number of the function is the least one of its type. -/
def HasLeast (f : QuadraticFunction (.integer width)) : Prop := ∃ a ∈ f.numbers, a.IsLeast

instance (f : QuadraticFunction (.integer width)) : Decidable f.HasLeast :=
  inferInstanceAs (Decidable (∃ a ∈ f.numbers, a.IsLeast))

/-- The functions have the same variables in the same order, and opposite numbers. -/
structure IsOpposite (f g : QuadraticFunction (.integer width)) : Prop where
  /-- The quadratic terms are opposite, pair by pair. -/
  quadratic : List.Forall₂ QuadraticTerm.IsOpposite f.quadratic g.quadratic
  /-- The affine parts are opposite. -/
  affine : f.affine.IsOpposite g.affine

theorem IsOpposite.symm (opposite : f.IsOpposite g) : g.IsOpposite f :=
  ⟨(opposite.quadratic.imp fun _ _ related => related.symm).flip, opposite.affine.symm⟩

/-- Negating every number returns a function unless the least number is there. -/
theorem mapNumbers_yieldsIff (negates : Negates operation fault)
    (f : QuadraticFunction (.integer width)) :
    YieldsIff (f.mapNumbers operation) (· = fault) (¬ f.HasLeast) f.IsOpposite := by
  have terms : YieldsIff (f.quadratic.mapM fun term => do
      let coeff ← operation term.coeff
      pure (⟨coeff, term.row, term.col⟩ : QuadraticTerm (.integer width))) (· = fault)
        (∀ term ∈ f.quadratic, ¬ term.coeff.IsLeast)
        (List.Forall₂ QuadraticTerm.IsOpposite f.quadratic) :=
    .mapM fun term _ => (negates term.coeff).map fun coeff opposite => ⟨opposite, rfl⟩
  have function : YieldsIff (f.mapNumbers operation) (· = fault)
      ((∀ term ∈ f.quadratic, ¬ term.coeff.IsLeast) ∧ ¬ f.affine.HasLeast) f.IsOpposite :=
    terms.bind fun quadratic related =>
      (f.affine.mapNumbers_yieldsIff negates).map fun affine opposite => ⟨related, opposite⟩
  apply function.congr
  simp [HasLeast, AffineFunction.HasLeast, numbers, or_imp, forall_and]

/-- Negating every number of a function returns its opposite, if it has one. -/
theorem IsOpposite.mapNumbers_eq_ok (opposite : f.IsOpposite g)
    (negates : Negates operation fault) : f.mapNumbers operation = .ok g := by
  have terms : (f.quadratic.mapM fun term => do
      let coeff ← operation term.coeff
      pure (⟨coeff, term.row, term.col⟩ : QuadraticTerm (.integer width))) = .ok g.quadratic := by
    apply mapM_eq_ok.mpr
    apply opposite.quadratic.imp
    intro left right related
    obtain ⟨row_eq, col_eq⟩ := (VariablePair.mk.injEq ..).mp related.2
    rw [negates.eq_ok related.1, row_eq, col_eq]
    rfl
  rw [mapNumbers, terms, ok_bind, opposite.affine.mapNumbers_eq_ok negates]
  rfl

theorem neg_yieldsIff (f : QuadraticFunction (.integer width)) :
    YieldsIff f.neg (· = .overflow .negate) (¬ f.HasLeast) f.IsOpposite := by
  rw [neg_eq_mapNumbers]
  exact f.mapNumbers_yieldsIff Scalar.neg_negates

theorem scale_minusOne_yieldsIff (f : QuadraticFunction (.integer width)) :
    YieldsIff (f.scale .minusOne) (· = .overflow .multiply) (¬ f.HasLeast) f.IsOpposite := by
  rw [scale_eq_mapNumbers]
  exact f.mapNumbers_yieldsIff Scalar.mul_minusOne_negates

theorem IsOpposite.neg_eq_ok (opposite : f.IsOpposite g) : f.neg = .ok g := by
  rw [neg_eq_mapNumbers]
  exact opposite.mapNumbers_eq_ok Scalar.neg_negates

theorem IsOpposite.scale_minusOne (opposite : f.IsOpposite g) : f.scale .minusOne = .ok g := by
  rw [scale_eq_mapNumbers]
  exact opposite.mapNumbers_eq_ok Scalar.mul_minusOne_negates

/-- Changing the sign and multiplying by minus one break off for the same functions. -/
theorem HasLeast.breaks_off (least : f.HasLeast) :
    f.neg = .error (.overflow .negate) ∧ f.scale .minusOne = .error (.overflow .multiply) :=
  ⟨f.neg_yieldsIff.eq_error (not_not_intro least),
    f.scale_minusOne_yieldsIff.eq_error (not_not_intro least)⟩

/-- Changing the sign and multiplying by minus one return the opposite for the other functions. -/
theorem exists_opposite (no_least : ¬ f.HasLeast) :
    ∃ g, f.IsOpposite g ∧ f.neg = .ok g ∧ f.scale .minusOne = .ok g ∧ g.neg = .ok f := by
  obtain ⟨g, negated, opposite⟩ := f.neg_yieldsIff.ok_iff.mpr no_least
  exact ⟨g, opposite, negated, opposite.scale_minusOne, opposite.symm.neg_eq_ok⟩

theorem IsOpposite.length_eq (opposite : f.IsOpposite g) :
    g.quadratic.length = f.quadratic.length := opposite.quadratic.length_eq.symm

end QuadraticFunction

end Negation

/-! ## Subtraction -/

namespace AffineFunction

variable {f g : AffineFunction (.integer width)}

theorem scale_one (f : AffineFunction (.integer width)) : f.scale .one = .ok f := by
  have terms : (f.linear.mapM fun term => term.scale .one) = .ok f.linear := by
    simp only [LinearTerm.scale, Scalar.mul_one]
    exact List.mapM_pure.trans (congrArg _ (List.map_id _))
  rw [scale, terms, ok_bind, Scalar.mul_one]
  rfl

/-- Subtracting a function adds its opposite, if it has one. -/
theorem sub_eq_add {dest : AffineFunction (.integer width)} (opposite : f.IsOpposite g)
    (fits : dest.linear.length + f.linear.length < Index.limit) :
    dest.sub (.factor (.function (.same f))) = dest.add (.factor (.function (.same g))) := by
  have opposite_fits : dest.linear.length + g.linear.length < Index.limit :=
    opposite.length_eq ▸ fits
  rw [sub, add, addScaled, addScaled, addScaledFactor_same _ fits,
    addScaledFactor_same _ opposite_fits, opposite.scale_minusOne, g.scale_one]

/-- A difference exists if the subtrahend has an opposite and the difference of the constants
fits. -/
theorem sub_yieldsIff {dest : AffineFunction (.integer width)}
    (fits : dest.linear.length + f.linear.length < Index.limit) :
    YieldsIff (dest.sub (.factor (.function (.same f)))) Fault.IsOverflow
      (¬ f.HasLeast ∧ width.Fits (dest.constant.toInt - f.constant.toInt)) fun _ => True := by
  rw [sub, addScaled, addScaledFactor_same _ fits]
  apply f.scale_minusOne_yieldsIff.isOverflow.bind
  intro multiple opposite
  exact (opposite.constant.add_yieldsIff dest.constant).isOverflow.map fun _ _ => trivial

/-- A difference that exists is the sum with the opposite. -/
theorem exists_sub {dest : AffineFunction (.integer width)}
    (fits : dest.linear.length + f.linear.length < Index.limit) (no_least : ¬ f.HasLeast)
    (constant_fits : width.Fits (dest.constant.toInt - f.constant.toInt)) :
    ∃ g after, f.neg = .ok g ∧ dest.sub (.factor (.function (.same f))) = .ok after ∧
      dest.add (.factor (.function (.same g))) = .ok after := by
  obtain ⟨g, opposite, negated, -, -⟩ := exists_opposite no_least
  obtain ⟨after, subtracted, -⟩ := (sub_yieldsIff fits).ok_iff.mpr ⟨no_least, constant_fits⟩
  have added := (sub_eq_add opposite fits).symm.trans subtracted
  exact ⟨g, after, negated, subtracted, added⟩

/-- A function subtracted from itself leaves nothing. -/
theorem setDifference_self {dest after : AffineFunction (.integer width)}
    (succeeds : dest.setDifference (.factor (.function (.same f))) (.factor (.function (.same f))) =
      .ok after)
    (no_overflow : ∀ operation, after.canonicalize ≠ .error (.overflow operation)) :
    ∃ canonical, after.canonicalize = .ok canonical ∧ canonical.pruneZeros = zero := by
  obtain ⟨canonical, canonicalized, -⟩ := after.canonicalize_yields.exists_ok no_overflow
  have zero_canonicalize : (zero : AffineFunction (.integer width)).canonicalize = .ok zero := rfl
  refine ⟨canonical, canonicalized, ?_⟩
  apply (canonicalize_pruneZeros_eq_iff canonicalized zero_canonicalize).mpr
  intro point
  have difference := (dest.setDifference_yields _ _).result succeeds point
  rw [difference, Int.sub_self]
  rfl

end AffineFunction

namespace QuadraticFunction

variable {f g : QuadraticFunction (.integer width)}

theorem scale_one (f : QuadraticFunction (.integer width)) : f.scale .one = .ok f := by
  have terms : (f.quadratic.mapM fun term => term.scale .one) = .ok f.quadratic := by
    simp only [QuadraticTerm.scale, Scalar.mul_one]
    exact List.mapM_pure.trans (congrArg _ (List.map_id _))
  rw [scale, terms, ok_bind, f.affine.scale_one]
  rfl

/-- Subtracting a function adds its opposite, if it has one. -/
theorem sub_eq_add {dest : QuadraticFunction (.integer width)} (opposite : f.IsOpposite g)
    (quadratic_fits : dest.quadratic.length + f.quadratic.length < Index.limit)
    (linear_fits : dest.affine.linear.length + f.affine.linear.length < Index.limit) :
    dest.sub (.function (.same f)) = dest.add (.function (.same g)) := by
  have opposite_quadratic_fits : dest.quadratic.length + g.quadratic.length < Index.limit :=
    opposite.length_eq ▸ quadratic_fits
  have opposite_linear_fits : dest.affine.linear.length + g.affine.linear.length < Index.limit :=
    opposite.affine.length_eq ▸ linear_fits
  rw [sub, add, addScaled, addScaled, addScaledFunction_same _ quadratic_fits linear_fits,
    addScaledFunction_same _ opposite_quadratic_fits opposite_linear_fits, opposite.scale_minusOne,
    g.scale_one]

/-- A difference exists if the subtrahend has an opposite and the difference of the constants
fits. -/
theorem sub_yieldsIff {dest : QuadraticFunction (.integer width)}
    (quadratic_fits : dest.quadratic.length + f.quadratic.length < Index.limit)
    (linear_fits : dest.affine.linear.length + f.affine.linear.length < Index.limit) :
    YieldsIff (dest.sub (.function (.same f))) Fault.IsOverflow
      (¬ f.HasLeast ∧ width.Fits (dest.affine.constant.toInt - f.affine.constant.toInt))
      fun _ => True := by
  rw [sub, addScaled, addScaledFunction_same _ quadratic_fits linear_fits]
  apply f.scale_minusOne_yieldsIff.isOverflow.bind
  intro multiple opposite
  exact (opposite.affine.constant.add_yieldsIff dest.affine.constant).isOverflow.map
    fun _ _ => trivial

/-- A difference that exists is the sum with the opposite. -/
theorem exists_sub {dest : QuadraticFunction (.integer width)}
    (quadratic_fits : dest.quadratic.length + f.quadratic.length < Index.limit)
    (linear_fits : dest.affine.linear.length + f.affine.linear.length < Index.limit)
    (no_least : ¬ f.HasLeast)
    (constant_fits : width.Fits (dest.affine.constant.toInt - f.affine.constant.toInt)) :
    ∃ g after, f.neg = .ok g ∧ dest.sub (.function (.same f)) = .ok after ∧
      dest.add (.function (.same g)) = .ok after := by
  obtain ⟨g, opposite, negated, -, -⟩ := exists_opposite no_least
  obtain ⟨after, subtracted, -⟩ :=
    (sub_yieldsIff quadratic_fits linear_fits).ok_iff.mpr ⟨no_least, constant_fits⟩
  have added := (sub_eq_add opposite quadratic_fits linear_fits).symm.trans subtracted
  exact ⟨g, after, negated, subtracted, added⟩

/-- A function subtracted from itself leaves nothing. -/
theorem setDifference_self {dest after : QuadraticFunction (.integer width)}
    (succeeds : dest.setDifference (.function (.same f)) (.function (.same f)) = .ok after)
    (no_overflow : ∀ operation, after.canonicalize ≠ .error (.overflow operation)) :
    ∃ canonical, after.canonicalize = .ok canonical ∧ canonical.pruneZeros = zero := by
  obtain ⟨canonical, canonicalized, -⟩ := after.canonicalize_yields.exists_ok no_overflow
  have zero_canonicalize :
      (zero : QuadraticFunction (.integer width)).canonicalize = .ok zero := rfl
  refine ⟨canonical, canonicalized, ?_⟩
  apply (canonicalize_pruneZeros_eq_iff canonicalized zero_canonicalize).mpr
  intro point
  have difference := (dest.setDifference_yields _ _).result succeeds point
  rw [difference, Int.sub_self]
  rfl

end QuadraticFunction

/-- Changing the sign, multiplying by minus one and subtracting from the zero function have the same
outcome: they break off exactly if the least number of the type is a coefficient or the constant,
and otherwise end with the opposite function.  Subtracting a function is adding its opposite, and
breaks off exactly if there is none or the difference of the constants does not fit.  A function
subtracted from itself is zero in its canonical form without zeros. -/
theorem opposites_agree (width : IntWidth) :
    (∀ f : AffineFunction (.integer width), f.linear.length < Index.limit →
      (∀ (dest : AffineFunction (.integer width)) {S : ScalarType} (below : S ≤ .integer width),
        dest.setProduct (.factorTimes (.function (.same f)) ⟨S, below, .minusOne⟩) =
          f.scale .minusOne) ∧
      AffineFunction.zero.sub (.factor (.function (.same f))) = f.scale .minusOne ∧
      (f.HasLeast →
        f.neg = .error (.overflow .negate) ∧ f.scale .minusOne = .error (.overflow .multiply)) ∧
      (¬ f.HasLeast →
        ∃ g, f.IsOpposite g ∧ f.neg = .ok g ∧ f.scale .minusOne = .ok g ∧ g.neg = .ok f)) ∧
    (∀ dest f : AffineFunction (.integer width),
      dest.linear.length + f.linear.length < Index.limit →
      ((∃ fault, dest.sub (.factor (.function (.same f))) = .error fault) ↔
        f.HasLeast ∨ ¬ width.Fits (dest.constant.toInt - f.constant.toInt)) ∧
      (¬ f.HasLeast → width.Fits (dest.constant.toInt - f.constant.toInt) →
        ∃ g after, f.neg = .ok g ∧ dest.sub (.factor (.function (.same f))) = .ok after ∧
          dest.add (.factor (.function (.same g))) = .ok after)) ∧
    (∀ dest f after : AffineFunction (.integer width),
      dest.setDifference (.factor (.function (.same f))) (.factor (.function (.same f))) =
        .ok after →
      (∀ operation, after.canonicalize ≠ .error (.overflow operation)) →
      ∃ canonical, after.canonicalize = .ok canonical ∧ canonical.pruneZeros = .zero) ∧
    (∀ f : QuadraticFunction (.integer width),
      f.quadratic.length < Index.limit → f.affine.linear.length < Index.limit →
      (∀ (dest : QuadraticFunction (.integer width)) {S : ScalarType} (below : S ≤ .integer width),
        dest.setProduct (.functionTimes (.same f) ⟨S, below, .minusOne⟩) = f.scale .minusOne) ∧
      QuadraticFunction.zero.sub (.function (.same f)) = f.scale .minusOne ∧
      (f.HasLeast →
        f.neg = .error (.overflow .negate) ∧ f.scale .minusOne = .error (.overflow .multiply)) ∧
      (¬ f.HasLeast →
        ∃ g, f.IsOpposite g ∧ f.neg = .ok g ∧ f.scale .minusOne = .ok g ∧ g.neg = .ok f)) ∧
    (∀ dest f : QuadraticFunction (.integer width),
      dest.quadratic.length + f.quadratic.length < Index.limit →
      dest.affine.linear.length + f.affine.linear.length < Index.limit →
      ((∃ fault, dest.sub (.function (.same f)) = .error fault) ↔
        f.HasLeast ∨ ¬ width.Fits (dest.affine.constant.toInt - f.affine.constant.toInt)) ∧
      (¬ f.HasLeast → width.Fits (dest.affine.constant.toInt - f.affine.constant.toInt) →
        ∃ g after, f.neg = .ok g ∧ dest.sub (.function (.same f)) = .ok after ∧
          dest.add (.function (.same g)) = .ok after)) ∧
    ∀ dest f after : QuadraticFunction (.integer width),
      dest.setDifference (.function (.same f)) (.function (.same f)) = .ok after →
      (∀ operation, after.canonicalize ≠ .error (.overflow operation)) →
      ∃ canonical, after.canonicalize = .ok canonical ∧ canonical.pruneZeros = .zero := by
  refine ⟨?_, ?_, ?_, ?_, ?_, ?_⟩
  · intro f fits
    refine ⟨fun dest S below => ?_, AffineFunction.addScaledFactor_zero .minusOne fits,
      AffineFunction.HasLeast.breaks_off, AffineFunction.exists_opposite⟩
    rw [dest.setProduct_function _ fits, Below.scalar, Scalar.widen_minusOne]
  · intro dest f fits
    refine ⟨?_, AffineFunction.exists_sub fits⟩
    rw [(AffineFunction.sub_yieldsIff fits).exists_error_iff, not_and_or, not_not]
  · exact fun dest f after => AffineFunction.setDifference_self
  · intro f quadratic_fits linear_fits
    refine ⟨fun dest S below => ?_,
      QuadraticFunction.addScaledFunction_zero .minusOne quadratic_fits linear_fits,
      QuadraticFunction.HasLeast.breaks_off, QuadraticFunction.exists_opposite⟩
    rw [dest.setProduct_function _ quadratic_fits linear_fits, Below.scalar, Scalar.widen_minusOne]
  · intro dest f quadratic_fits linear_fits
    refine ⟨?_, QuadraticFunction.exists_sub quadratic_fits linear_fits⟩
    rw [(QuadraticFunction.sub_yieldsIff quadratic_fits linear_fits).exists_error_iff, not_and_or,
      not_not]
  · exact fun dest f after => QuadraticFunction.setDifference_self

/-- The constant function `-32768`. -/
def leastConstant : AffineFunction (.integer .bits16) := ⟨[], ⟨-32768, by decide, by decide⟩⟩

/-- The terms of a split sum and their opposites. -/
def cancellingSum : AffineFunction (.integer .bits8) :=
  ⟨[⟨.one, ⟨2⟩⟩, ⟨.one, ⟨1⟩⟩, ⟨.one, ⟨1⟩⟩, ⟨.minusOne, ⟨2⟩⟩, ⟨.minusOne, ⟨1⟩⟩, ⟨.minusOne, ⟨1⟩⟩],
    .zero⟩

/-- The terms of a split product and their opposites. -/
def cancellingProduct : QuadraticFunction (.integer .bits8) :=
  ⟨[⟨.one, ⟨2⟩, ⟨1⟩⟩, ⟨.one, ⟨1⟩, ⟨2⟩⟩, ⟨.minusOne, ⟨2⟩, ⟨1⟩⟩, ⟨.minusOne, ⟨1⟩, ⟨2⟩⟩],
    cancellingSum⟩

theorem cancellingSum_canonicalize :
    cancellingSum.canonicalize = .ok ⟨[⟨.zero, ⟨1⟩⟩, ⟨.zero, ⟨2⟩⟩], .zero⟩ := by
  rw [AffineFunction.canonicalize_eq, mergeByKey_eq_filterMapM LinearTerm.addsTotals.preservesKey]
  rfl

theorem cancellingProduct_canonicalize :
    cancellingProduct.canonicalize =
      .ok ⟨[⟨.zero, ⟨1⟩, ⟨2⟩⟩], [⟨.zero, ⟨1⟩⟩, ⟨.zero, ⟨2⟩⟩], .zero⟩ := by
  rw [QuadraticFunction.canonicalize_eq,
    mergeByKey_eq_filterMapM QuadraticTerm.addsTotals.preservesKey]
  exact bind_eq_ok.mpr ⟨_, cancellingSum_canonicalize, rfl⟩

/-- The least number cannot be subtracted even where the difference is zero. -/
theorem opposites_agree_least :
    (leastConstant.neg = .error (.overflow .negate) ∧
      ∃ fault, leastConstant.sub (.factor (.function (.same leastConstant))) = .error fault) ∧
    (∃ g after, splitProduct.neg = .ok g ∧ g.neg = .ok splitProduct ∧
      mixedFunction.sub (.function (.same splitProduct)) = .ok after ∧
      mixedFunction.add (.function (.same g)) = .ok after) ∧
    (∃ canonical, cancellingSum.canonicalize = .ok canonical ∧ canonical.pruneZeros = .zero) ∧
    ∃ canonical, cancellingProduct.canonicalize = .ok canonical ∧ canonical.pruneZeros = .zero := by
  obtain ⟨least, least_sub, -⟩ := opposites_agree .bits16
  obtain ⟨-, -, affine_self, quadratic, quadratic_sub, quadratic_self⟩ := opposites_agree .bits8
  refine ⟨⟨?_, ?_⟩, ?_, ?_, ?_⟩
  · exact ((least leastConstant (by decide)).2.2.1 (by decide)).1
  · exact (least_sub leastConstant leastConstant (by decide)).1.mpr (.inl (by decide))
  · have no_least : ¬ splitProduct.HasLeast := by decide
    obtain ⟨g, -, negated, -, back⟩ :=
      (quadratic splitProduct (by decide) (by decide)).2.2.2 no_least
    obtain ⟨g', after, negated', subtracted, added⟩ :=
      (quadratic_sub mixedFunction splitProduct (by decide) (by decide)).2 no_least (by decide)
    obtain rfl : g = g' := Except.ok.inj (negated.symm.trans negated')
    exact ⟨g, after, negated, back, subtracted, added⟩
  · apply affine_self .zero splitSum cancellingSum rfl
    rw [cancellingSum_canonicalize]
    exact fun _ => nofun
  · apply quadratic_self .zero splitProduct cancellingProduct rfl
    rw [cancellingProduct_canonicalize]
    exact fun _ => nofun

end DegreeTwo
