import DegreeTwo.Affine.Update
import DegreeTwo.Proofs.Buffers
import DegreeTwo.Proofs.Value.Basic

/-!
# Values of affine functions after an operation

Every operation on an affine destination adds, or leaves, the value that it names.  An operand has a
value in its own coefficient type, which widening does not change.
-/

namespace DegreeTwo

variable {T : ScalarType} {width : IntWidth}

/-! ## Operands -/

/-- The value of a factor at a point. -/
def Factor.value (point : Variable → Int) : Factor T → Int
  | .var x => point x
  | .term x => x.value.value point
  | .function x => x.value.value point

/-- The value of an operand at a point. -/
def AffineOperand.value (point : Variable → Int) : AffineOperand T → Int
  | .number x => x.value.toInt
  | .factor x => x.value point

theorem Below.toInt_scalar (number : Below Scalar (.integer width)) :
    number.scalar.toInt = number.value.toInt :=
  Scalar.toInt_widen number.source_le number.value

/-- Scaling terms one by one scales their sum. -/
theorem LinearTerm.scaleAll_yields {S : ScalarType} (h : S ≤ .integer width)
    (terms : List (LinearTerm S)) (number : Scalar (.integer width)) :
    Yields (terms.mapM fun term => (term.widen h).scale number) fun scaled =>
      ∀ point, (scaled.map (value point)).sum = (terms.map (value point)).sum * number.toInt := by
  apply Yields.mapM_sum_mul
  intro term _
  simpa using (term.widen h).scale_yields number

namespace AffineFunction

@[simp]
theorem value_clear (point : Variable → Int) (dest : AffineFunction (.integer width)) :
    dest.clear.value point = 0 := rfl

@[simp]
theorem value_overwrite (point : Variable → Int) (dest : AffineFunction (.integer width))
    (source : Below AffineFunction (.integer width)) :
    (dest.overwrite source).value point = source.value.value point := by
  rw [overwrite_eq, value, value, List.map_map, LinearTerm.value_comp_widen, Scalar.toInt_widen]

theorem value_pushLinear (point : Variable → Int) (dest : AffineFunction T) (term : LinearTerm T) :
    (dest.pushLinear term).value point = dest.value point + term.value point := by
  simp only [value, pushLinear, List.map_append, List.map_cons, List.map_nil, List.sum_append,
    List.sum_singleton]
  ring

theorem addScaledNumber_yields (dest : AffineFunction (.integer width))
    (number : Below Scalar (.integer width)) (scale : Scalar (.integer width)) :
    Yields (dest.addScaledNumber number scale) fun after =>
      ∀ point, after.value point = dest.value point + scale.toInt * number.value.toInt := by
  apply (Scalar.mul_yields _ _).bind
  intro product product_eq
  apply (Scalar.add_yields _ _).bind
  intro constant constant_eq
  refine .pure fun point => ?_
  rw [value, value, constant_eq, product_eq, Below.toInt_scalar]
  ring

theorem addScaledFactor_yields (dest : AffineFunction (.integer width))
    (scale : Scalar (.integer width)) (factor : Factor (.integer width)) :
    Yields (dest.addScaledFactor scale factor) fun after =>
      ∀ point, after.value point = dest.value point + scale.toInt * factor.value point := by
  cases factor with
  | var x =>
      refine .pure fun point => ?_
      rw [value_pushLinear]
      rfl
  | term x =>
      apply ((x.value.widen x.source_le).scale_yields scale).bind
      intro scaled scaled_value
      refine .pure fun point => ?_
      rw [value_pushLinear, scaled_value, LinearTerm.value_widen, Factor.value, Int.mul_comm]
  | function x =>
      rw [addScaledFactor_function]
      apply (Index.add_yields _ _).bind
      intro _ _
      apply (LinearTerm.scaleAll_yields x.source_le x.value.linear scale).bind
      intro scaled scaled_sum
      apply (Scalar.mul_yields _ _).bind
      intro product product_eq
      apply (Scalar.add_yields _ _).bind
      intro constant constant_eq
      refine .pure fun point => ?_
      rw [Scalar.toInt_widen] at product_eq
      simp only [value, Factor.value, List.map_append, List.sum_append, scaled_sum, constant_eq,
        product_eq]
      ring

theorem addScaled_yields (dest : AffineFunction (.integer width))
    (operand : AffineOperand (.integer width)) (scale : Scalar (.integer width)) :
    Yields (dest.addScaled operand scale) fun after =>
      ∀ point, after.value point = dest.value point + scale.toInt * operand.value point := by
  cases operand with
  | number x => exact dest.addScaledNumber_yields x scale
  | factor x => exact dest.addScaledFactor_yields scale x

theorem add_yields (dest : AffineFunction (.integer width))
    (operand : AffineOperand (.integer width)) :
    Yields (dest.add operand) fun after =>
      ∀ point, after.value point = dest.value point + operand.value point := by
  apply (dest.addScaled_yields operand .one).imp
  intro after added point
  rw [added, Scalar.toInt_one, Int.one_mul]

theorem sub_yields (dest : AffineFunction (.integer width))
    (operand : AffineOperand (.integer width)) :
    Yields (dest.sub operand) fun after =>
      ∀ point, after.value point = dest.value point - operand.value point := by
  apply (dest.addScaled_yields operand .minusOne).imp
  intro after added point
  rw [added, Scalar.toInt_minusOne]
  ring

theorem setTo_yields (dest : AffineFunction (.integer width))
    (operand : AffineOperand (.integer width)) :
    Yields (dest.setTo operand) fun after => ∀ point, after.value point = operand.value point := by
  have fresh : Yields (dest.clear.addScaled operand .one) fun after =>
      ∀ point, after.value point = operand.value point := by
    apply (dest.clear.add_yields operand).imp
    intro after added point
    rw [added, value_clear, Int.zero_add]
  cases operand with
  | number x => exact fresh
  | factor x =>
      cases x with
      | var x => exact fresh
      | term x => exact fresh
      | function x => exact .pure fun point => value_overwrite point dest x

theorem setSum_yields (dest : AffineFunction (.integer width))
    (x y : AffineOperand (.integer width)) :
    Yields (dest.setSum x y) fun after =>
      ∀ point, after.value point = x.value point + y.value point := by
  apply (dest.setTo_yields x).bind
  intro assigned assigned_value
  apply (assigned.add_yields y).imp
  intro after added point
  rw [added, assigned_value]

theorem setDifference_yields (dest : AffineFunction (.integer width))
    (x y : AffineOperand (.integer width)) :
    Yields (dest.setDifference x y) fun after =>
      ∀ point, after.value point = x.value point - y.value point := by
  apply (dest.setTo_yields x).bind
  intro assigned assigned_value
  apply (assigned.sub_yields y).imp
  intro after subtracted point
  rw [subtracted, assigned_value]

theorem neg_yields (f : AffineFunction (.integer width)) :
    Yields f.neg fun opposite => ∀ point, opposite.value point = -f.value point := by
  apply (Yields.mapM_sum (fun point term => -term.value point) LinearTerm.value
    fun term _ => term.neg_yields).bind
  intro linear linear_sum
  apply f.constant.neg_yields.bind
  intro constant constant_eq
  refine .pure fun point => ?_
  rw [value, value, linear_sum, constant_eq, Int.neg_add, List.sum_neg, List.map_map]
  rfl

theorem scale_yields (f : AffineFunction (.integer width)) (number : Scalar (.integer width)) :
    Yields (f.scale number) fun scaled =>
      ∀ point, scaled.value point = f.value point * number.toInt := by
  apply (Yields.mapM_sum_mul fun term _ => term.scale_yields number).bind
  intro linear linear_sum
  apply (f.constant.mul_yields number).bind
  intro constant constant_eq
  refine .pure fun point => ?_
  rw [value, value, linear_sum, constant_eq, Int.add_mul]

end AffineFunction

/-! ## Products -/

/-- The value of a product at a point. -/
def AffineProduct.value (point : Variable → Int) : AffineProduct T → Int
  | .numberTimes x y => x.value.toInt * y.value point
  | .factorTimes x y => x.value point * y.value.toInt

namespace AffineFactors

/-- The sum of the products of the pairs at a point. -/
def value (point : Variable → Int) : AffineFactors T → Int
  | .numberTimes x y =>
      (List.zipWith (fun number operand => number.value.toInt * operand.value point) x y).sum
  | .factorTimes x y =>
      (List.zipWith (fun factor number => factor.value point * number.value.toInt) x y).sum

theorem sum_products (point : Variable → Int) (factors : AffineFactors T) :
    (factors.products.map (AffineProduct.value point)).sum = factors.value point := by
  cases factors with
  | numberTimes x y => rw [products, List.map_zipWith, value]; rfl
  | factorTimes x y => rw [products, List.map_zipWith, value]; rfl

end AffineFactors

namespace TermFactors

/-- The sum of the products of the pairs at a point. -/
def value (point : Variable → Int) : TermFactors T → Int
  | .numberVariable x y => (List.zipWith (fun number var => number.value.toInt * point var) x y).sum
  | .variableNumber x y => (List.zipWith (fun var number => point var * number.value.toInt) x y).sum
  | .numberTerm x y =>
      (List.zipWith (fun number term => number.value.toInt * term.value.value point) x y).sum
  | .termNumber x y =>
      (List.zipWith (fun term number => term.value.value point * number.value.toInt) x y).sum

theorem terms_yields (factors : TermFactors (.integer width)) :
    Yields factors.terms fun terms =>
      ∀ point, (terms.map (LinearTerm.value point)).sum = factors.value point := by
  cases factors with
  | numberVariable x y =>
      refine .pure fun point => ?_
      simp only [List.map_zipWith, LinearTerm.value, Below.toInt_scalar, value]
  | variableNumber x y =>
      refine .pure fun point => ?_
      simp only [List.map_zipWith, LinearTerm.value, Below.toInt_scalar, value, Int.mul_comm]
  | numberTerm x y =>
      have each : ∀ pair ∈ x.zip y, Yields (numberTimesTerm pair.1 pair.2) fun term =>
          ∀ point, term.value point = pair.1.value.toInt * pair.2.value.value point := by
        intro pair _
        apply (Scalar.mul_yields _ _).bind
        intro coeff coeff_eq
        refine .pure fun point => ?_
        rw [LinearTerm.value, coeff_eq, Below.toInt_scalar, Int.mul_assoc]
        congr 1
        exact pair.2.value.value_widen pair.2.source_le point
      apply (Yields.mapM_sum (fun point pair => pair.1.value.toInt * pair.2.value.value point)
        LinearTerm.value each).imp
      intro terms sums point
      rw [sums, List.map_zip_eq_zipWith]
      rfl
  | termNumber x y =>
      have each : ∀ pair ∈ x.zip y, Yields (pair.1.linearTerm.scale pair.2.scalar) fun term =>
          ∀ point, term.value point = pair.1.value.value point * pair.2.value.toInt := by
        intro pair _
        apply (LinearTerm.scale_yields _ _).imp
        intro scaled scaled_value point
        rw [scaled_value, Below.toInt_scalar, Below.linearTerm, LinearTerm.value_widen]
      apply (Yields.mapM_sum (fun point pair => pair.1.value.value point * pair.2.value.toInt)
        LinearTerm.value each).imp
      intro terms sums point
      rw [sums, List.map_zip_eq_zipWith]
      rfl

end TermFactors

namespace AffineFunction

theorem addProduct_yields (dest : AffineFunction (.integer width))
    (product : AffineProduct (.integer width)) :
    Yields (dest.addProduct product) fun after =>
      ∀ point, after.value point = dest.value point + product.value point := by
  cases product with
  | numberTimes x y =>
      apply (dest.addScaled_yields y x.scalar).imp
      intro after added point
      rw [added, Below.toInt_scalar, AffineProduct.value]
  | factorTimes x y =>
      apply (dest.addScaledFactor_yields y.scalar x).imp
      intro after added point
      rw [added, Below.toInt_scalar, AffineProduct.value, Int.mul_comm]

theorem addProducts_yields (dest : AffineFunction (.integer width))
    (products : List (AffineProduct (.integer width))) :
    Yields (dest.addProducts products) fun after =>
      ∀ point, after.value point =
        dest.value point + (products.map (AffineProduct.value point)).sum :=
  Yields.foldlM_sum value AffineProduct.value addProduct_yields dest products

theorem sumProducts_yields (dest : AffineFunction (.integer width))
    (factors : AffineFactors (.integer width)) :
    Yields (dest.clear.addProducts factors.products) fun after =>
      ∀ point, after.value point = factors.value point := by
  apply (dest.clear.addProducts_yields factors.products).imp
  intro after sum point
  rw [sum, value_clear, Int.zero_add, factors.sum_products]

theorem setProduct_yields (dest : AffineFunction (.integer width))
    (product : AffineProduct (.integer width)) :
    Yields (dest.setProduct product) fun after =>
      ∀ point, after.value point = product.value point := by
  apply (dest.clear.addProduct_yields product).imp
  intro after added point
  rw [added, value_clear, Int.zero_add]

end AffineFunction

end DegreeTwo
