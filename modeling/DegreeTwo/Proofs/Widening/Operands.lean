import DegreeTwo.Proofs.Run
import DegreeTwo.Proofs.Widening.Functions
import DegreeTwo.Quadratic.Bilinear
import DegreeTwo.Quadratic.Product

/-!
# Operands for wider destinations

An operand keeps its own coefficient type when the type of the destination is widened.  Adding it,
multiplying with it and overwriting with it take the same steps as before: its coefficients are
widened to the narrow type and then on, which is the same as widening them at once.
-/

namespace DegreeTwo

variable {S T : ScalarType}

/-! ## The same operands for a wider destination -/

/-- The same value as one below a greater type. -/
def Below.widen {F : ScalarType → Type} (h : S ≤ T) (x : Below F S) : Below F T :=
  ⟨x.source, ScalarType.le_trans x.source_le h, x.value⟩

/-- The same factor for a wider destination. -/
def Factor.widen (h : S ≤ T) : Factor S → Factor T
  | .var x => .var x
  | .term x => .term (x.widen h)
  | .function x => .function (x.widen h)

/-- The same operand for a wider destination. -/
def AffineOperand.widen (h : S ≤ T) : AffineOperand S → AffineOperand T
  | .number x => .number (x.widen h)
  | .factor x => .factor (x.widen h)

/-- The same operand for a wider destination. -/
def QuadraticOperand.widen (h : S ≤ T) : QuadraticOperand S → QuadraticOperand T
  | .affine x => .affine (x.widen h)
  | .term x => .term (x.widen h)
  | .function x => .function (x.widen h)

/-- The same product for a wider destination. -/
def AffineProduct.widen (h : S ≤ T) : AffineProduct S → AffineProduct T
  | .numberTimes x y => .numberTimes (x.widen h) (y.widen h)
  | .factorTimes x y => .factorTimes (x.widen h) (y.widen h)

/-- The same product for a wider destination. -/
def QuadraticProduct.widen (h : S ≤ T) : QuadraticProduct S → QuadraticProduct T
  | .numberTimes x y => .numberTimes (x.widen h) (y.widen h)
  | .factorTimes x y => .factorTimes (x.widen h) (y.widen h)
  | .termTimes x y => .termTimes (x.widen h) (y.widen h)
  | .functionTimes x y => .functionTimes (x.widen h) (y.widen h)

/-- The same lists of factors for a wider destination. -/
def AffineFactors.widen (h : S ≤ T) : AffineFactors S → AffineFactors T
  | .numberTimes x y => .numberTimes (x.map (Below.widen h)) (y.map (AffineOperand.widen h))
  | .factorTimes x y => .factorTimes (x.map (Factor.widen h)) (y.map (Below.widen h))

/-- The same lists of factors for a wider destination. -/
def QuadraticFactors.widen (h : S ≤ T) : QuadraticFactors S → QuadraticFactors T
  | .numberTimes x y => .numberTimes (x.map (Below.widen h)) (y.map (QuadraticOperand.widen h))
  | .factorTimes x y => .factorTimes (x.map (Factor.widen h)) (y.map (AffineOperand.widen h))
  | .termTimes x y => .termTimes (x.map (Below.widen h)) (y.map (Below.widen h))
  | .functionTimes x y => .functionTimes (x.map (Below.widen h)) (y.map (Below.widen h))

/-- The same lists of factors for a wider destination. -/
def TermFactors.widen (h : S ≤ T) : TermFactors S → TermFactors T
  | .numberVariable x y => .numberVariable (x.map (Below.widen h)) y
  | .variableNumber x y => .variableNumber x (y.map (Below.widen h))
  | .numberTerm x y => .numberTerm (x.map (Below.widen h)) (y.map (Below.widen h))
  | .termNumber x y => .termNumber (x.map (Below.widen h)) (y.map (Below.widen h))

/-! ## Operands of degree at most one -/

namespace Below

variable [T.IsInteger]

theorem scalar_widen (h : S ≤ T) (x : Below Scalar S) : (x.widen h).scalar = x.scalar.widen h :=
  (Scalar.widen_widen x.source_le h x.value).symm

theorem linearTerm_widen (h : S ≤ T) (x : Below LinearTerm S) :
    (x.widen h).linearTerm = x.linearTerm.widen h :=
  (LinearTerm.widen_widen x.source_le h x.value).symm

theorem quadraticTerm_widen (h : S ≤ T) (x : Below QuadraticTerm S) :
    (x.widen h).quadraticTerm = x.quadraticTerm.widen h :=
  (QuadraticTerm.widen_widen x.source_le h x.value).symm

end Below

theorem LinearTerm.map_widen_widen {R : ScalarType} [T.IsInteger] (first : R ≤ S) (second : S ≤ T)
    (terms : List (LinearTerm R)) :
    (terms.map (widen first)).map (widen second) =
      terms.map (widen (ScalarType.le_trans first second)) := by
  rw [List.map_map]
  exact List.map_congr_left fun term _ => term.widen_widen first second

theorem QuadraticTerm.map_widen_widen {R : ScalarType} [T.IsInteger] (first : R ≤ S)
    (second : S ≤ T) (terms : List (QuadraticTerm R)) :
    (terms.map (widen first)).map (widen second) =
      terms.map (widen (ScalarType.le_trans first second)) := by
  rw [List.map_map]
  exact List.map_congr_left fun term _ => term.widen_widen first second

theorem LinearTerm.scaleAll_simulates {R : ScalarType} [T.IsInteger] (first : R ≤ S)
    (second : S ≤ T) (terms : List (LinearTerm R)) (number : Scalar S) :
    Simulates (List.map (widen second))
      (terms.mapM fun term => (term.widen first).scale number)
      (terms.mapM fun term =>
        (term.widen (ScalarType.le_trans first second)).scale (number.widen second)) := by
  apply Simulates.mapM
  intro term
  rw [← widen_widen first second]
  exact (term.widen first).scale_simulates second number

theorem QuadraticTerm.scaleAll_simulates {R : ScalarType} [T.IsInteger] (first : R ≤ S)
    (second : S ≤ T) (terms : List (QuadraticTerm R)) (number : Scalar S) :
    Simulates (List.map (widen second))
      (terms.mapM fun term => (term.widen first).scale number)
      (terms.mapM fun term =>
        (term.widen (ScalarType.le_trans first second)).scale (number.widen second)) := by
  apply Simulates.mapM
  intro term
  rw [← widen_widen first second]
  exact (term.widen first).scale_simulates second number

namespace AffineFunction

theorem widen_pushLinear (h : S ≤ T) (dest : AffineFunction S) (term : LinearTerm S) :
    (dest.widen h).pushLinear (term.widen h) = (dest.pushLinear term).widen h := by
  rw [widen_eq, widen_eq, pushLinear, pushLinear, List.map_append]
  rfl

variable [T.IsInteger]

theorem widen_zero (h : S ≤ T) : (zero : AffineFunction S).widen h = zero := by
  rw [widen_eq]
  exact congrArg (AffineFunction.mk []) (Scalar.widen_zero h)

theorem widen_overwrite (h : S ≤ T) (dest : AffineFunction S) (source : Below AffineFunction S) :
    (dest.widen h).overwrite (source.widen h) = (dest.overwrite source).widen h := by
  rw [overwrite_eq, overwrite_eq, widen_eq, LinearTerm.map_widen_widen, Scalar.widen_widen]
  rfl

theorem addScaledNumber_simulates (h : S ≤ T) (dest : AffineFunction S) (number : Below Scalar S)
    (scale : Scalar S) :
    Simulates (widen h) (dest.addScaledNumber number scale)
      ((dest.widen h).addScaledNumber (number.widen h) (scale.widen h)) := by
  rw [addScaledNumber, addScaledNumber, Below.scalar_widen, constant_widen]
  apply (Scalar.mul_simulates h _ _).bind
  intro product
  apply (Scalar.add_simulates h _ _).bind
  intro constant
  exact .pure (by rw [widen_eq, linear_widen])

theorem addScaledFactor_simulates (h : S ≤ T) (dest : AffineFunction S) (scale : Scalar S)
    (x : Factor S) :
    Simulates (widen h) (dest.addScaledFactor scale x)
      ((dest.widen h).addScaledFactor (scale.widen h) (x.widen h)) := by
  cases x with
  | var x => exact .pure (dest.widen_pushLinear h ⟨scale, x⟩).symm
  | term x =>
      rw [Factor.widen, addScaledFactor, addScaledFactor, Below.linearTerm_widen]
      apply (x.linearTerm.scale_simulates h scale).bind
      intro scaled
      exact .pure (dest.widen_pushLinear h scaled).symm
  | function x =>
      rw [Factor.widen, addScaledFactor_function, addScaledFactor_function, linear_widen,
        constant_widen, List.length_map, Below.widen]
      apply Simulates.bind_same
      intro _
      apply (LinearTerm.scaleAll_simulates x.source_le h x.value.linear scale).bind
      intro scaled
      rw [← Scalar.widen_widen x.source_le h]
      apply (Scalar.mul_simulates h _ _).bind
      intro product
      apply (Scalar.add_simulates h _ _).bind
      intro constant
      exact .pure (by rw [widen_eq, List.map_append])

theorem addScaled_simulates (h : S ≤ T) (dest : AffineFunction S) (x : AffineOperand S)
    (scale : Scalar S) :
    Simulates (widen h) (dest.addScaled x scale)
      ((dest.widen h).addScaled (x.widen h) (scale.widen h)) := by
  cases x with
  | number x => exact dest.addScaledNumber_simulates h x scale
  | factor x => exact dest.addScaledFactor_simulates h scale x

theorem add_simulates (h : S ≤ T) (dest : AffineFunction S) (x : AffineOperand S) :
    Simulates (widen h) (dest.add x) ((dest.widen h).add (x.widen h)) := by
  have added := dest.addScaled_simulates h x .one
  rw [Scalar.widen_one] at added
  exact added

theorem sub_simulates (h : S ≤ T) (dest : AffineFunction S) (x : AffineOperand S) :
    Simulates (widen h) (dest.sub x) ((dest.widen h).sub (x.widen h)) := by
  have added := dest.addScaled_simulates h x .minusOne
  rw [Scalar.widen_minusOne] at added
  exact added

theorem setTo_simulates (h : S ≤ T) (dest : AffineFunction S) (x : AffineOperand S) :
    Simulates (widen h) (dest.setTo x) ((dest.widen h).setTo (x.widen h)) := by
  have fresh : Simulates (widen h) (dest.clear.addScaled x .one)
      ((dest.widen h).clear.addScaled (x.widen h) .one) := by
    have added := dest.clear.add_simulates h x
    rw [clear, widen_zero] at added
    exact added
  cases x with
  | number x => exact fresh
  | factor x =>
      cases x with
      | var x => exact fresh
      | term x => exact fresh
      | function x => exact .pure (dest.widen_overwrite h x).symm

theorem setSum_simulates (h : S ≤ T) (dest : AffineFunction S) (x y : AffineOperand S) :
    Simulates (widen h) (dest.setSum x y) ((dest.widen h).setSum (x.widen h) (y.widen h)) :=
  (dest.setTo_simulates h x).bind fun assigned => assigned.add_simulates h y

theorem setDifference_simulates (h : S ≤ T) (dest : AffineFunction S) (x y : AffineOperand S) :
    Simulates (widen h) (dest.setDifference x y)
      ((dest.widen h).setDifference (x.widen h) (y.widen h)) :=
  (dest.setTo_simulates h x).bind fun assigned => assigned.sub_simulates h y

theorem addProduct_simulates (h : S ≤ T) (dest : AffineFunction S) (product : AffineProduct S) :
    Simulates (widen h) (dest.addProduct product)
      ((dest.widen h).addProduct (product.widen h)) := by
  cases product with
  | numberTimes x y =>
      rw [AffineProduct.widen, addProduct, addProduct, Below.scalar_widen]
      exact dest.addScaled_simulates h y x.scalar
  | factorTimes x y =>
      rw [AffineProduct.widen, addProduct, addProduct, Below.scalar_widen]
      exact dest.addScaledFactor_simulates h y.scalar x

theorem setProduct_simulates (h : S ≤ T) (dest : AffineFunction S) (product : AffineProduct S) :
    Simulates (widen h) (dest.setProduct product)
      ((dest.widen h).setProduct (product.widen h)) := by
  have added := dest.clear.addProduct_simulates h product
  rw [clear, widen_zero] at added
  exact added

theorem addProducts_simulates (h : S ≤ T) (dest : AffineFunction S)
    (products : List (AffineProduct S)) :
    Simulates (widen h) (dest.addProducts products)
      ((dest.widen h).addProducts (products.map (AffineProduct.widen h))) :=
  .foldlM (fun product _ sum => sum.addProduct_simulates h product) dest

end AffineFunction

/-! ## Operands of degree at most two -/

namespace Factor

variable [T.IsInteger]

theorem terms_widen (h : S ≤ T) (x : Factor S) :
    (x.widen h).terms = x.terms.map (LinearTerm.widen h) := by
  cases x with
  | var x => exact congrArg (fun coeff => [LinearTerm.mk coeff x]) (Scalar.widen_one h).symm
  | term x => exact congrArg (fun term => [term]) (x.linearTerm_widen h)
  | function x => exact (LinearTerm.map_widen_widen x.source_le h x.value.linear).symm

theorem constant?_widen (h : S ≤ T) (x : Factor S) :
    (x.widen h).constant? = x.constant?.map (Scalar.widen h) := by
  cases x with
  | var x => rfl
  | term x => rfl
  | function x => exact congrArg some (Scalar.widen_widen x.source_le h x.value.constant).symm

end Factor

namespace AffineOperand

variable [T.IsInteger]

theorem terms_widen (h : S ≤ T) (x : AffineOperand S) :
    (x.widen h).terms = x.terms.map (LinearTerm.widen h) := by
  cases x with
  | number x => rfl
  | factor x => exact x.terms_widen h

theorem constant?_widen (h : S ≤ T) (x : AffineOperand S) :
    (x.widen h).constant? = x.constant?.map (Scalar.widen h) := by
  cases x with
  | number x => exact congrArg some (x.scalar_widen h)
  | factor x => exact x.constant?_widen h

end AffineOperand

namespace QuadraticFunction

theorem widen_pushQuadratic (h : S ≤ T) (dest : QuadraticFunction S) (term : QuadraticTerm S) :
    (dest.widen h).pushQuadratic (term.widen h) = (dest.pushQuadratic term).widen h := by
  rw [widen_eq, widen_eq, pushQuadratic, pushQuadratic, List.map_append]
  rfl

variable [T.IsInteger]

theorem widen_zero (h : S ≤ T) : (zero : QuadraticFunction S).widen h = zero := by
  rw [widen_eq]
  exact congrArg (QuadraticFunction.mk []) (AffineFunction.widen_zero h)

theorem widen_overwrite (h : S ≤ T) (dest : QuadraticFunction S)
    (source : Below QuadraticFunction S) :
    (dest.widen h).overwrite (source.widen h) = (dest.overwrite source).widen h := by
  rw [overwrite_eq, overwrite_eq, widen_eq, AffineFunction.widen_eq, QuadraticTerm.map_widen_widen,
    LinearTerm.map_widen_widen, Scalar.widen_widen]
  rfl

theorem addScaledTerm_simulates (h : S ≤ T) (dest : QuadraticFunction S)
    (term : Below QuadraticTerm S) (scale : Scalar S) :
    Simulates (widen h) (dest.addScaledTerm term scale)
      ((dest.widen h).addScaledTerm (term.widen h) (scale.widen h)) := by
  rw [addScaledTerm, addScaledTerm, Below.quadraticTerm_widen]
  apply (term.quadraticTerm.scale_simulates h scale).bind
  intro scaled
  exact .pure (dest.widen_pushQuadratic h scaled).symm

theorem addScaledFunction_simulates (h : S ≤ T) (dest : QuadraticFunction S)
    (source : Below QuadraticFunction S) (scale : Scalar S) :
    Simulates (widen h) (dest.addScaledFunction source scale)
      ((dest.widen h).addScaledFunction (source.widen h) (scale.widen h)) := by
  rw [addScaledFunction_eq, addScaledFunction_eq, quadratic_widen, affine_widen, List.length_map,
    Below.widen]
  apply Simulates.bind_same
  intro _
  apply (QuadraticTerm.scaleAll_simulates source.source_le h source.value.quadratic scale).bind
  intro scaled
  apply (dest.affine.addScaledFactor_simulates h scale _).bind
  intro affine
  exact .pure (by rw [widen_eq, List.map_append])

theorem addScaled_simulates (h : S ≤ T) (dest : QuadraticFunction S) (x : QuadraticOperand S)
    (scale : Scalar S) :
    Simulates (widen h) (dest.addScaled x scale)
      ((dest.widen h).addScaled (x.widen h) (scale.widen h)) := by
  cases x with
  | affine x =>
      rw [QuadraticOperand.widen, addScaled, addScaled, affine_widen, widen_eq]
      apply (dest.affine.addScaled_simulates h x scale).bind
      intro affine
      exact .pure (widen_eq h _)
  | term x => exact dest.addScaledTerm_simulates h x scale
  | function x => exact dest.addScaledFunction_simulates h x scale

theorem add_simulates (h : S ≤ T) (dest : QuadraticFunction S) (x : QuadraticOperand S) :
    Simulates (widen h) (dest.add x) ((dest.widen h).add (x.widen h)) := by
  have added := dest.addScaled_simulates h x .one
  rw [Scalar.widen_one] at added
  exact added

theorem sub_simulates (h : S ≤ T) (dest : QuadraticFunction S) (x : QuadraticOperand S) :
    Simulates (widen h) (dest.sub x) ((dest.widen h).sub (x.widen h)) := by
  have added := dest.addScaled_simulates h x .minusOne
  rw [Scalar.widen_minusOne] at added
  exact added

theorem setTo_simulates (h : S ≤ T) (dest : QuadraticFunction S) (x : QuadraticOperand S) :
    Simulates (widen h) (dest.setTo x) ((dest.widen h).setTo (x.widen h)) := by
  have fresh : Simulates (widen h) (dest.clear.addScaled x .one)
      ((dest.widen h).clear.addScaled (x.widen h) .one) := by
    have added := dest.clear.add_simulates h x
    rw [clear, widen_zero] at added
    exact added
  cases x with
  | affine x =>
      cases x with
      | number x => exact fresh
      | factor x =>
          have assigned := dest.affine.setTo_simulates h (.factor x)
          rw [← affine_widen] at assigned
          exact assigned.bind fun affine => .pure (widen_eq h _)
  | term x => exact fresh
  | function x => exact .pure (dest.widen_overwrite h x).symm

theorem setSum_simulates (h : S ≤ T) (dest : QuadraticFunction S) (x y : QuadraticOperand S) :
    Simulates (widen h) (dest.setSum x y) ((dest.widen h).setSum (x.widen h) (y.widen h)) :=
  (dest.setTo_simulates h x).bind fun assigned => assigned.add_simulates h y

theorem setDifference_simulates (h : S ≤ T) (dest : QuadraticFunction S)
    (x y : QuadraticOperand S) :
    Simulates (widen h) (dest.setDifference x y)
      ((dest.widen h).setDifference (x.widen h) (y.widen h)) :=
  (dest.setTo_simulates h x).bind fun assigned => assigned.sub_simulates h y

theorem appendProducts_simulates (h : S ≤ T) (buffer : List (QuadraticTerm S))
    (x y : List (LinearTerm S)) :
    Simulates (List.map (QuadraticTerm.widen h)) (appendProducts buffer x y)
      (appendProducts (buffer.map (QuadraticTerm.widen h)) (x.map (LinearTerm.widen h))
        (y.map (LinearTerm.widen h))) := by
  rw [appendProducts_eq, appendProducts_eq, List.length_map, List.length_map, List.length_map]
  apply Simulates.bind_same
  intro count
  apply Simulates.bind_same
  intro _
  have rows_simulate : Simulates (List.map (List.map (QuadraticTerm.widen h)))
      (x.mapM fun left => y.mapM fun right => left.times right)
      ((x.map (LinearTerm.widen h)).mapM fun left =>
        (y.map (LinearTerm.widen h)).mapM fun right => left.times right) := by
    rw [List.mapM_map]
    apply Simulates.mapM
    intro left
    rw [Function.comp_apply, List.mapM_map]
    exact Simulates.mapM y fun right => left.times_simulates h right
  apply rows_simulate.bind
  intro rows
  exact .pure (by rw [List.map_append, List.map_flatten])

theorem scaleTerms_simulates (h : S ≤ T) (terms : List (LinearTerm S))
    (constant : Option (Scalar S)) :
    Simulates (List.map (LinearTerm.widen h)) (scaleTerms terms constant)
      (scaleTerms (terms.map (LinearTerm.widen h)) (constant.map (Scalar.widen h))) := by
  cases constant with
  | none => exact .pure rfl
  | some constant =>
      rw [Option.map_some, scaleTerms, scaleTerms, List.mapM_map]
      exact Simulates.mapM terms fun term => term.scale_simulates h constant

theorem appendScaled_simulates (h : S ≤ T) (buffer x y : List (LinearTerm S))
    (xConstant yConstant : Option (Scalar S)) :
    Simulates (List.map (LinearTerm.widen h)) (appendScaled buffer x y xConstant yConstant)
      (appendScaled (buffer.map (LinearTerm.widen h)) (x.map (LinearTerm.widen h))
        (y.map (LinearTerm.widen h)) (xConstant.map (Scalar.widen h))
        (yConstant.map (Scalar.widen h))) := by
  rw [appendScaled_eq, appendScaled_eq, List.length_map, List.length_map, List.length_map,
    Option.isSome_map, Option.isSome_map]
  apply Simulates.bind_same
  intro count
  apply Simulates.bind_same
  intro _
  apply (scaleTerms_simulates h x yConstant).bind
  intro xScaled
  apply (scaleTerms_simulates h y xConstant).bind
  intro yScaled
  exact .pure (by rw [List.map_append, List.map_append])

theorem addConstants_simulates (h : S ≤ T) (constant : Scalar S) (x y : Option (Scalar S)) :
    Simulates (Scalar.widen h) (addConstants constant x y)
      (addConstants (constant.widen h) (x.map (Scalar.widen h)) (y.map (Scalar.widen h))) := by
  cases x with
  | none => exact .pure rfl
  | some left =>
      cases y with
      | none => exact .pure rfl
      | some right =>
          apply (Scalar.mul_simulates h left right).bind
          intro product
          exact Scalar.add_simulates h constant product

theorem addFactorProduct_simulates (h : S ≤ T) (dest : QuadraticFunction S) (x : Factor S)
    (y : AffineOperand S) :
    Simulates (widen h) (dest.addFactorProduct x y)
      ((dest.widen h).addFactorProduct (x.widen h) (y.widen h)) := by
  rw [addFactorProduct, addFactorProduct, quadratic_widen, affine_widen,
    AffineFunction.linear_widen, AffineFunction.constant_widen, Factor.terms_widen,
    Factor.constant?_widen, AffineOperand.terms_widen, AffineOperand.constant?_widen]
  apply (appendProducts_simulates h _ _ _).bind
  intro quadratic
  apply (appendScaled_simulates h _ _ _ _ _).bind
  intro linear
  apply (addConstants_simulates h _ _ _).bind
  intro constant
  exact .pure (by rw [widen_eq, AffineFunction.widen_eq])

theorem addProduct_simulates (h : S ≤ T) (dest : QuadraticFunction S)
    (product : QuadraticProduct S) :
    Simulates (widen h) (dest.addProduct product)
      ((dest.widen h).addProduct (product.widen h)) := by
  cases product with
  | numberTimes x y =>
      rw [QuadraticProduct.widen, addProduct, addProduct, Below.scalar_widen]
      exact dest.addScaled_simulates h y x.scalar
  | factorTimes x y => exact dest.addFactorProduct_simulates h x y
  | termTimes x y =>
      rw [QuadraticProduct.widen, addProduct, addProduct, Below.scalar_widen]
      exact dest.addScaledTerm_simulates h x y.scalar
  | functionTimes x y =>
      rw [QuadraticProduct.widen, addProduct, addProduct, Below.scalar_widen]
      exact dest.addScaledFunction_simulates h x y.scalar

theorem setProduct_simulates (h : S ≤ T) (dest : QuadraticFunction S)
    (product : QuadraticProduct S) :
    Simulates (widen h) (dest.setProduct product)
      ((dest.widen h).setProduct (product.widen h)) := by
  have added := dest.clear.addProduct_simulates h product
  rw [clear, widen_zero] at added
  exact added

theorem addProducts_simulates (h : S ≤ T) (dest : QuadraticFunction S)
    (products : List (QuadraticProduct S)) :
    Simulates (widen h) (dest.addProducts products)
      ((dest.widen h).addProducts (products.map (QuadraticProduct.widen h))) :=
  .foldlM (fun product _ sum => sum.addProduct_simulates h product) dest

end QuadraticFunction

/-! ## Lists of factors and matrices -/

namespace AffineFactors

theorem products_widen (h : S ≤ T) (factors : AffineFactors S) :
    (factors.widen h).products = factors.products.map (AffineProduct.widen h) := by
  cases factors with
  | numberTimes x y =>
      rw [widen, products, products, List.zipWith_map, List.map_zipWith]
      rfl
  | factorTimes x y =>
      rw [widen, products, products, List.zipWith_map, List.map_zipWith]
      rfl

theorem leftLength_widen (h : S ≤ T) (factors : AffineFactors S) :
    (factors.widen h).leftLength = factors.leftLength := by
  cases factors <;> exact List.length_map _

theorem rightLength_widen (h : S ≤ T) (factors : AffineFactors S) :
    (factors.widen h).rightLength = factors.rightLength := by
  cases factors <;> exact List.length_map _

end AffineFactors

namespace QuadraticFactors

theorem products_widen (h : S ≤ T) (factors : QuadraticFactors S) :
    (factors.widen h).products = factors.products.map (QuadraticProduct.widen h) := by
  cases factors with
  | numberTimes x y =>
      rw [widen, products, products, List.zipWith_map, List.map_zipWith]
      rfl
  | factorTimes x y =>
      rw [widen, products, products, List.zipWith_map, List.map_zipWith]
      rfl
  | termTimes x y =>
      rw [widen, products, products, List.zipWith_map, List.map_zipWith]
      rfl
  | functionTimes x y =>
      rw [widen, products, products, List.zipWith_map, List.map_zipWith]
      rfl

theorem leftLength_widen (h : S ≤ T) (factors : QuadraticFactors S) :
    (factors.widen h).leftLength = factors.leftLength := by
  cases factors <;> exact List.length_map _

theorem rightLength_widen (h : S ≤ T) (factors : QuadraticFactors S) :
    (factors.widen h).rightLength = factors.rightLength := by
  cases factors <;> exact List.length_map _

end QuadraticFactors

namespace TermFactors

theorem length_widen (h : S ≤ T) (factors : TermFactors S) :
    (factors.widen h).length = factors.length := by
  cases factors <;> first | exact List.length_map _ | rfl

theorem rightLength_widen (h : S ≤ T) (factors : TermFactors S) :
    (factors.widen h).rightLength = factors.rightLength := by
  cases factors <;> first | exact List.length_map _ | rfl

theorem terms_simulates [T.IsInteger] (h : S ≤ T) (factors : TermFactors S) :
    Simulates (List.map (LinearTerm.widen h)) factors.terms (factors.widen h).terms := by
  cases factors with
  | numberVariable x y =>
      refine .pure ?_
      rw [List.map_zipWith, List.zipWith_map_left]
      simp only [LinearTerm.widen, Below.scalar_widen]
  | variableNumber x y =>
      refine .pure ?_
      rw [List.map_zipWith, List.zipWith_map_right]
      simp only [LinearTerm.widen, Below.scalar_widen]
  | numberTerm x y =>
      rw [widen, terms, terms, List.zip_map, List.mapM_map]
      apply Simulates.mapM
      intro pair
      rw [Function.comp_apply, Prod.map, numberTimesTerm, numberTimesTerm, Below.scalar_widen,
        Below.linearTerm_widen]
      exact (Scalar.mul_simulates h _ _).bind fun _ => .pure rfl
  | termNumber x y =>
      rw [widen, terms, terms, List.zip_map, List.mapM_map]
      apply Simulates.mapM
      intro pair
      rw [Function.comp_apply, Prod.map, Below.scalar_widen, Below.linearTerm_widen]
      exact pair.1.linearTerm.scale_simulates h pair.2.scalar

end TermFactors

namespace AffineFunction

variable [T.IsInteger]

theorem dot_simulates (h : S ≤ T) (dest : AffineFunction S) (factors : AffineFactors S) :
    Simulates (widen h) (settle dest (dest.dot factors))
      (settle (dest.widen h) ((dest.widen h).dot (factors.widen h))) := by
  have summed := dest.clear.addProducts_simulates h factors.products
  rw [clear, widen_zero] at summed
  rw [dot_eq_checked, dot_eq_checked, settle_checkLength,
    settle_checkLength, settle_lift, settle_lift, factors.leftLength_widen,
    factors.rightLength_widen, factors.products_widen]
  exact .ite summed (.pure rfl)

theorem dotTerms_simulates (h : S ≤ T) (dest : AffineFunction S) (factors : TermFactors S) :
    Simulates (widen h) (settle dest (dest.dotTerms factors))
      (settle (dest.widen h) ((dest.widen h).dotTerms (factors.widen h))) := by
  rw [dotTerms_eq, dotTerms_eq, settle_checkLength, settle_checkLength, settle_lift_bind,
    settle_lift_bind, factors.length_widen, factors.rightLength_widen]
  refine .ite ((factors.terms_simulates h).bind fun terms => .pure ?_) (.pure rfl)
  rw [widen_eq, Scalar.widen_zero]

end AffineFunction

namespace QuadraticFunction

theorem bilinearTerm_simulates (h : S ≤ T) (cols : Nat) (x y : List Variable) (coeff : Scalar S)
    (position : Nat) :
    Simulates (QuadraticTerm.widen h) (bilinearTerm cols x y coeff position)
      (bilinearTerm cols x y (coeff.widen h) position) := by
  apply Simulates.bind_same
  intro i
  apply Simulates.bind_same
  intro row
  apply Simulates.bind_same
  intro j
  apply Simulates.bind_same
  intro col
  exact .pure rfl

variable [T.IsInteger]

theorem dot_simulates (h : S ≤ T) (dest : QuadraticFunction S) (factors : QuadraticFactors S) :
    Simulates (widen h) (settle dest (dest.dot factors))
      (settle (dest.widen h) ((dest.widen h).dot (factors.widen h))) := by
  have summed := dest.clear.addProducts_simulates h factors.products
  rw [clear, widen_zero] at summed
  rw [dot_eq_checked, dot_eq_checked,
    settle_checkLength, settle_checkLength, settle_lift, settle_lift, factors.leftLength_widen,
    factors.rightLength_widen, factors.products_widen]
  exact .ite summed (.pure rfl)

theorem setBilinear_simulates (h : S ≤ T) (dest : QuadraticFunction S)
    (matrix : Below ScalarMatrix S) (x y : List Variable) :
    Simulates (widen h) (settle dest (dest.setBilinear matrix x y))
      (settle (dest.widen h) ((dest.widen h).setBilinear (matrix.widen h) x y)) := by
  rw [setBilinear_eq, setBilinear_eq, Below.widen, settle_checkLength, settle_checkLength,
    settle_checkLength, settle_checkLength, mapM_lift, mapM_lift, settle_lift_bind,
    settle_lift_bind]
  have terms_simulate := Simulates.mapM matrix.value.elements.zipIdx fun element =>
    bilinearTerm_simulates h matrix.value.cols x y (element.1.widen matrix.source_le) element.2
  simp only [Scalar.widen_widen] at terms_simulate
  refine .ite (.ite (terms_simulate.bind fun terms => .pure ?_) (.pure rfl)) (.pure rfl)
  rw [widen_eq, AffineFunction.widen_zero]

end QuadraticFunction

end DegreeTwo
