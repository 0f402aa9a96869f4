import DegreeTwo.Proofs.Value.Affine
import DegreeTwo.Quadratic.Update

/-!
# Values of quadratic functions after an operation

Operands of degree at most one act on the affine part, and the product of two of them is expanded:
the values of the four groups of terms that are appended add up to the product of the values.
-/

namespace DegreeTwo

variable {T : ScalarType} {width : IntWidth}

/-! ## Operands -/

/-- The value of an operand at a point. -/
def QuadraticOperand.value (point : Variable → Int) : QuadraticOperand T → Int
  | .affine x => x.value point
  | .term x => x.value.value point
  | .function x => x.value.value point

/-- Scaling terms one by one scales their sum. -/
theorem QuadraticTerm.scaleAll_yields {S : ScalarType} (h : S ≤ .integer width)
    (terms : List (QuadraticTerm S)) (number : Scalar (.integer width)) :
    Yields (terms.mapM fun term => (term.widen h).scale number) fun scaled =>
      ∀ point, (scaled.map (value point)).sum = (terms.map (value point)).sum * number.toInt := by
  apply Yields.mapM_sum_mul
  intro term _
  simpa using (term.widen h).scale_yields number

namespace QuadraticFunction

@[simp]
theorem value_clear (point : Variable → Int) (dest : QuadraticFunction (.integer width)) :
    dest.clear.value point = 0 := rfl

@[simp]
theorem value_overwrite (point : Variable → Int) (dest : QuadraticFunction (.integer width))
    (source : Below QuadraticFunction (.integer width)) :
    (dest.overwrite source).value point = source.value.value point := by
  rw [overwrite_eq, value, value, List.map_map, QuadraticTerm.value_comp_widen,
    AffineFunction.value, AffineFunction.value, List.map_map, LinearTerm.value_comp_widen,
    Scalar.toInt_widen]

theorem value_pushQuadratic (point : Variable → Int) (dest : QuadraticFunction T)
    (term : QuadraticTerm T) :
    (dest.pushQuadratic term).value point = dest.value point + term.value point := by
  simp only [value, pushQuadratic, List.map_append, List.map_cons, List.map_nil, List.sum_append,
    List.sum_singleton]
  ring

theorem addScaledTerm_yields (dest : QuadraticFunction (.integer width))
    (term : Below QuadraticTerm (.integer width)) (scale : Scalar (.integer width)) :
    Yields (dest.addScaledTerm term scale) fun after =>
      ∀ point, after.value point = dest.value point + scale.toInt * term.value.value point := by
  apply ((term.value.widen term.source_le).scale_yields scale).bind
  intro scaled scaled_value
  refine .pure fun point => ?_
  rw [value_pushQuadratic, scaled_value, QuadraticTerm.value_widen, Int.mul_comm]

theorem addScaledFunction_yields (dest : QuadraticFunction (.integer width))
    (source : Below QuadraticFunction (.integer width)) (scale : Scalar (.integer width)) :
    Yields (dest.addScaledFunction source scale) fun after =>
      ∀ point, after.value point = dest.value point + scale.toInt * source.value.value point := by
  rw [addScaledFunction_eq]
  apply (Index.add_yields _ _).bind
  intro _ _
  apply (QuadraticTerm.scaleAll_yields source.source_le source.value.quadratic scale).bind
  intro scaled scaled_sum
  apply (dest.affine.addScaledFactor_yields scale _).bind
  intro affine affine_value
  refine .pure fun point => ?_
  simp only [value, List.map_append, List.sum_append, scaled_sum, affine_value, Factor.value]
  ring

theorem addScaled_yields (dest : QuadraticFunction (.integer width))
    (operand : QuadraticOperand (.integer width)) (scale : Scalar (.integer width)) :
    Yields (dest.addScaled operand scale) fun after =>
      ∀ point, after.value point = dest.value point + scale.toInt * operand.value point := by
  cases operand with
  | affine x =>
      apply (dest.affine.addScaled_yields x scale).bind
      intro affine affine_value
      refine .pure fun point => ?_
      rw [value, value, affine_value, QuadraticOperand.value]
      ring
  | term x => exact dest.addScaledTerm_yields x scale
  | function x => exact dest.addScaledFunction_yields x scale

theorem add_yields (dest : QuadraticFunction (.integer width))
    (operand : QuadraticOperand (.integer width)) :
    Yields (dest.add operand) fun after =>
      ∀ point, after.value point = dest.value point + operand.value point := by
  apply (dest.addScaled_yields operand .one).imp
  intro after added point
  rw [added, Scalar.toInt_one, Int.one_mul]

theorem sub_yields (dest : QuadraticFunction (.integer width))
    (operand : QuadraticOperand (.integer width)) :
    Yields (dest.sub operand) fun after =>
      ∀ point, after.value point = dest.value point - operand.value point := by
  apply (dest.addScaled_yields operand .minusOne).imp
  intro after added point
  rw [added, Scalar.toInt_minusOne]
  ring

theorem setTo_yields (dest : QuadraticFunction (.integer width))
    (operand : QuadraticOperand (.integer width)) :
    Yields (dest.setTo operand) fun after => ∀ point, after.value point = operand.value point := by
  have fresh : Yields (dest.clear.addScaled operand .one) fun after =>
      ∀ point, after.value point = operand.value point := by
    apply (dest.clear.add_yields operand).imp
    intro after added point
    rw [added, value_clear, Int.zero_add]
  cases operand with
  | affine x =>
      cases x with
      | number x => exact fresh
      | factor x =>
          apply (dest.affine.setTo_yields (.factor x)).bind
          intro affine affine_value
          refine .pure fun point => ?_
          rw [value, affine_value, List.map_nil, List.sum_nil, Int.zero_add, QuadraticOperand.value]
  | term x => exact fresh
  | function x => exact .pure fun point => value_overwrite point dest x

theorem setSum_yields (dest : QuadraticFunction (.integer width))
    (x y : QuadraticOperand (.integer width)) :
    Yields (dest.setSum x y) fun after =>
      ∀ point, after.value point = x.value point + y.value point := by
  apply (dest.setTo_yields x).bind
  intro assigned assigned_value
  apply (assigned.add_yields y).imp
  intro after added point
  rw [added, assigned_value]

theorem setDifference_yields (dest : QuadraticFunction (.integer width))
    (x y : QuadraticOperand (.integer width)) :
    Yields (dest.setDifference x y) fun after =>
      ∀ point, after.value point = x.value point - y.value point := by
  apply (dest.setTo_yields x).bind
  intro assigned assigned_value
  apply (assigned.sub_yields y).imp
  intro after subtracted point
  rw [subtracted, assigned_value]

theorem neg_yields (f : QuadraticFunction (.integer width)) :
    Yields f.neg fun opposite => ∀ point, opposite.value point = -f.value point := by
  apply (Yields.mapM_sum (fun point term => -term.value point) QuadraticTerm.value
    fun term _ => term.neg_yields).bind
  intro quadratic quadratic_sum
  apply f.affine.neg_yields.bind
  intro affine affine_value
  refine .pure fun point => ?_
  rw [value, value, quadratic_sum, affine_value, Int.neg_add, List.sum_neg, List.map_map]
  rfl

theorem scale_yields (f : QuadraticFunction (.integer width)) (number : Scalar (.integer width)) :
    Yields (f.scale number) fun scaled =>
      ∀ point, scaled.value point = f.value point * number.toInt := by
  apply (Yields.mapM_sum_mul fun term _ => term.scale_yields number).bind
  intro quadratic quadratic_sum
  apply (f.affine.scale_yields number).bind
  intro affine affine_value
  refine .pure fun point => ?_
  rw [value, value, quadratic_sum, affine_value, Int.add_mul]

end QuadraticFunction

/-! ## Products -/

/-- The value of a product at a point. -/
def QuadraticProduct.value (point : Variable → Int) : QuadraticProduct T → Int
  | .numberTimes x y => x.value.toInt * y.value point
  | .factorTimes x y => x.value point * y.value point
  | .termTimes x y => x.value.value point * y.value.toInt
  | .functionTimes x y => x.value.value point * y.value.toInt

/-- An optional constant as a summand. -/
def constantValue (constant : Option (Scalar T)) : Int := constant.elim 0 Scalar.toInt

theorem Factor.value_eq (point : Variable → Int) (factor : Factor (.integer width)) :
    factor.value point =
      (factor.terms.map (LinearTerm.value point)).sum + constantValue factor.constant? := by
  cases factor with
  | var x => simp [value, terms, constant?, constantValue, LinearTerm.ofVariable, LinearTerm.value]
  | term x => simp [value, terms, constant?, constantValue, Below.linearTerm]
  | function x =>
      simp [value, terms, constant?, constantValue, LinearTerm.value_comp_widen,
        AffineFunction.value]

theorem AffineOperand.value_eq (point : Variable → Int) (operand : AffineOperand (.integer width)) :
    operand.value point =
      (operand.terms.map (LinearTerm.value point)).sum + constantValue operand.constant? := by
  cases operand with
  | number x => simp [value, terms, constant?, constantValue, Below.toInt_scalar]
  | factor x => exact x.value_eq point

theorem scaleTerms_yields (terms : List (LinearTerm (.integer width)))
    (constant : Option (Scalar (.integer width))) :
    Yields (scaleTerms terms constant) fun scaled => ∀ point,
      (scaled.map (LinearTerm.value point)).sum =
        (terms.map (LinearTerm.value point)).sum * constantValue constant := by
  cases constant with
  | none => exact .pure fun point => by simp [constantValue]
  | some constant =>
      have scaled := LinearTerm.scaleAll_yields (ScalarType.le_refl _) terms constant
      simp only [LinearTerm.widen_self] at scaled
      exact scaled

namespace QuadraticFunction

theorem appendProducts_yields (buffer : List (QuadraticTerm (.integer width)))
    (x y : List (LinearTerm (.integer width))) :
    Yields (appendProducts buffer x y) fun after => ∀ point,
      (after.map (QuadraticTerm.value point)).sum =
        (buffer.map (QuadraticTerm.value point)).sum +
          (x.map (LinearTerm.value point)).sum * (y.map (LinearTerm.value point)).sum := by
  have each_row : ∀ left ∈ x, Yields (y.mapM fun right => left.times right) fun row =>
      ∀ point, (row.map (QuadraticTerm.value point)).sum =
        left.value point * (y.map (LinearTerm.value point)).sum := by
    intro left _
    apply (Yields.mapM_sum (fun point right => left.value point * right.value point)
      QuadraticTerm.value fun right _ => left.times_yields right).imp
    intro row sums point
    rw [sums, List.sum_map_mul_left]
  rw [appendProducts_eq]
  apply (Index.mul_yields _ _).bind
  intro _ _
  apply (Index.add_yields _ _).bind
  intro _ _
  apply (Yields.mapM_sum
    (fun point left => left.value point * (y.map (LinearTerm.value point)).sum)
    (fun point row => (row.map (QuadraticTerm.value point)).sum) each_row).bind
  intro rows sums
  refine .pure fun point => ?_
  rw [List.map_append, List.sum_append, List.map_flatten, List.sum_flatten, List.map_map]
  exact congrArg (_ + ·) ((sums point).trans (List.sum_map_mul_right ..))

theorem appendScaled_yields (buffer x y : List (LinearTerm (.integer width)))
    (xConstant yConstant : Option (Scalar (.integer width))) :
    Yields (appendScaled buffer x y xConstant yConstant) fun after => ∀ point,
      (after.map (LinearTerm.value point)).sum =
        (buffer.map (LinearTerm.value point)).sum +
          ((x.map (LinearTerm.value point)).sum * constantValue yConstant +
            (y.map (LinearTerm.value point)).sum * constantValue xConstant) := by
  rw [appendScaled_eq]
  apply (Index.add_yields _ _).bind
  intro _ _
  apply (Index.add_yields _ _).bind
  intro _ _
  apply (scaleTerms_yields x yConstant).bind
  intro xScaled xSum
  apply (scaleTerms_yields y xConstant).bind
  intro yScaled ySum
  refine .pure fun point => ?_
  rw [List.map_append, List.sum_append, List.map_append, List.sum_append, xSum, ySum]

theorem addConstants_yields (constant : Scalar (.integer width))
    (xConstant yConstant : Option (Scalar (.integer width))) :
    Yields (addConstants constant xConstant yConstant) fun after =>
      after.toInt = constant.toInt + constantValue xConstant * constantValue yConstant := by
  cases xConstant with
  | none => exact .pure (by simp [constantValue])
  | some left =>
      cases yConstant with
      | none => exact .pure (by simp [constantValue])
      | some right =>
          apply (Scalar.mul_yields left right).bind
          intro product product_eq
          apply (Scalar.add_yields constant product).imp
          intro after sum_eq
          rw [sum_eq, product_eq]
          rfl

/-- The expanded product of two sums. -/
theorem addFactorProduct_yields (dest : QuadraticFunction (.integer width))
    (x : Factor (.integer width)) (y : AffineOperand (.integer width)) :
    Yields (dest.addFactorProduct x y) fun after =>
      ∀ point, after.value point = dest.value point + x.value point * y.value point := by
  apply (appendProducts_yields _ _ _).bind
  intro quadratic quadratic_sum
  apply (appendScaled_yields _ _ _ _ _).bind
  intro linear linear_sum
  apply (addConstants_yields _ _ _).bind
  intro constant constant_eq
  refine .pure fun point => ?_
  rw [value, AffineFunction.value, quadratic_sum, linear_sum, constant_eq, value,
    AffineFunction.value, x.value_eq, y.value_eq]
  ring

theorem addProduct_yields (dest : QuadraticFunction (.integer width))
    (product : QuadraticProduct (.integer width)) :
    Yields (dest.addProduct product) fun after =>
      ∀ point, after.value point = dest.value point + product.value point := by
  cases product with
  | numberTimes x y =>
      apply (dest.addScaled_yields y x.scalar).imp
      intro after added point
      rw [added, Below.toInt_scalar, QuadraticProduct.value]
  | factorTimes x y => exact dest.addFactorProduct_yields x y
  | termTimes x y =>
      apply (dest.addScaledTerm_yields x y.scalar).imp
      intro after added point
      rw [added, Below.toInt_scalar, QuadraticProduct.value, Int.mul_comm]
  | functionTimes x y =>
      apply (dest.addScaledFunction_yields x y.scalar).imp
      intro after added point
      rw [added, Below.toInt_scalar, QuadraticProduct.value, Int.mul_comm]

theorem addProducts_yields (dest : QuadraticFunction (.integer width))
    (products : List (QuadraticProduct (.integer width))) :
    Yields (dest.addProducts products) fun after =>
      ∀ point, after.value point =
        dest.value point + (products.map (QuadraticProduct.value point)).sum :=
  Yields.foldlM_sum value QuadraticProduct.value addProduct_yields dest products

theorem setProduct_yields (dest : QuadraticFunction (.integer width))
    (product : QuadraticProduct (.integer width)) :
    Yields (dest.setProduct product) fun after =>
      ∀ point, after.value point = product.value point := by
  apply (dest.clear.addProduct_yields product).imp
  intro after added point
  rw [added, value_clear, Int.zero_add]

end QuadraticFunction

namespace QuadraticFactors

/-- The sum of the products of the pairs at a point. -/
def value (point : Variable → Int) : QuadraticFactors T → Int
  | .numberTimes x y =>
      (List.zipWith (fun number operand => number.value.toInt * operand.value point) x y).sum
  | .factorTimes x y =>
      (List.zipWith (fun factor operand => factor.value point * operand.value point) x y).sum
  | .termTimes x y =>
      (List.zipWith (fun term number => term.value.value point * number.value.toInt) x y).sum
  | .functionTimes x y =>
      (List.zipWith (fun function number => function.value.value point * number.value.toInt) x
        y).sum

theorem sum_products (point : Variable → Int) (factors : QuadraticFactors T) :
    (factors.products.map (QuadraticProduct.value point)).sum = factors.value point := by
  cases factors with
  | numberTimes x y => rw [products, List.map_zipWith, value]; rfl
  | factorTimes x y => rw [products, List.map_zipWith, value]; rfl
  | termTimes x y => rw [products, List.map_zipWith, value]; rfl
  | functionTimes x y => rw [products, List.map_zipWith, value]; rfl

end QuadraticFactors

theorem QuadraticFunction.sumProducts_yields (dest : QuadraticFunction (.integer width))
    (factors : QuadraticFactors (.integer width)) :
    Yields (dest.clear.addProducts factors.products) fun after =>
      ∀ point, after.value point = factors.value point := by
  apply (dest.clear.addProducts_yields factors.products).imp
  intro after sum point
  rw [sum, value_clear, Int.zero_add, factors.sum_products]

end DegreeTwo
