import DegreeTwo.Affine.Vector
import DegreeTwo.Proofs.Buffers
import DegreeTwo.Quadratic.Product

/-!
# Nothing but overflows

The operations that add products and sums up break off for one reason only: an integer, a
coefficient or the length of a buffer, does not fit its type.  In particular they look at no
position outside a list.  This holds in all coefficient types; with floating-point coefficients only
the lengths are left.
-/

namespace DegreeTwo

variable {α β σ : Type} {T : ScalarType}

/-- The computation has a result, or breaks off because an integer does not fit. -/
def OnlyOverflows (computation : Except Fault α) : Prop := Yields computation fun _ => True

namespace OnlyOverflows

theorem pure (value : α) : OnlyOverflows (Pure.pure value) := Yields.pure trivial

theorem of_yields {computation : Except Fault α} {property : α → Prop}
    (yields : Yields computation property) : OnlyOverflows computation :=
  yields.imp fun _ _ => trivial

theorem bind {computation : Except Fault α} {next : α → Except Fault β}
    (first : OnlyOverflows computation) (second : ∀ value, OnlyOverflows (next value)) :
    OnlyOverflows (computation >>= next) :=
  Yields.bind first fun value _ => second value

theorem mapM {f : α → Except Fault β} (each : ∀ input, OnlyOverflows (f input))
    (inputs : List α) : OnlyOverflows (inputs.mapM f) :=
  .of_yields (Yields.mapM fun input _ => each input)

theorem foldlM {step : σ → α → Except Fault σ}
    (each : ∀ state input, OnlyOverflows (step state input))
    (start : σ) (inputs : List α) : OnlyOverflows (inputs.foldlM step start) := by
  induction inputs generalizing start with
  | nil => exact .pure start
  | cons input inputs ih =>
      rw [List.foldlM_cons]
      exact (each start input).bind ih

end OnlyOverflows

/-! ## Coefficients and terms -/

namespace Scalar

theorem fit_onlyOverflows {width : IntWidth} (operation : Operation) (n : Int) :
    OnlyOverflows (BoundedInt.fit operation n : Except Fault (BoundedInt width)) := by
  cases result : (BoundedInt.fit operation n : Except Fault (BoundedInt width)) with
  | ok a => exact .pure a
  | error fault =>
      rw [(BoundedInt.fit_eq_error.mp result).1]
      exact .overflow operation

theorem add_onlyOverflows (a b : Scalar T) : OnlyOverflows (a.add b) := by
  cases T with
  | integer width => exact fit_onlyOverflows .add _
  | single => exact .pure _
  | double => exact .pure _

theorem mul_onlyOverflows (a b : Scalar T) : OnlyOverflows (a.mul b) := by
  cases T with
  | integer width => exact fit_onlyOverflows .multiply _
  | single => exact .pure _
  | double => exact .pure _

end Scalar

theorem LinearTerm.scale_onlyOverflows (term : LinearTerm T) (number : Scalar T) :
    OnlyOverflows (term.scale number) :=
  (term.coeff.mul_onlyOverflows number).bind fun _ => .pure _

theorem LinearTerm.times_onlyOverflows (left right : LinearTerm T) :
    OnlyOverflows (left.times right) :=
  (left.coeff.mul_onlyOverflows right.coeff).bind fun _ => .pure _

theorem QuadraticTerm.scale_onlyOverflows (term : QuadraticTerm T) (number : Scalar T) :
    OnlyOverflows (term.scale number) :=
  (term.coeff.mul_onlyOverflows number).bind fun _ => .pure _

/-! ## Affine functions -/

namespace AffineFunction

variable (dest : AffineFunction T)

theorem addScaledFactor_onlyOverflows (scale : Scalar T) (x : Factor T) :
    OnlyOverflows (dest.addScaledFactor scale x) := by
  cases x with
  | var x => exact .pure _
  | term x => exact (x.linearTerm.scale_onlyOverflows scale).bind fun _ => .pure _
  | function x =>
      rw [addScaledFactor_function]
      refine (OnlyOverflows.of_yields (Index.add_yields _ _)).bind fun _ => ?_
      refine (OnlyOverflows.mapM (fun term => LinearTerm.scale_onlyOverflows _ scale) _).bind
        fun _ => ?_
      refine (Scalar.mul_onlyOverflows _ _).bind fun product => ?_
      exact (dest.constant.add_onlyOverflows product).bind fun _ => .pure _

theorem addScaled_onlyOverflows (x : AffineOperand T) (scale : Scalar T) :
    OnlyOverflows (dest.addScaled x scale) := by
  cases x with
  | number x =>
      refine (x.scalar.mul_onlyOverflows scale).bind fun product => ?_
      exact (dest.constant.add_onlyOverflows product).bind fun _ => .pure _
  | factor x => exact dest.addScaledFactor_onlyOverflows scale x

theorem setTo_onlyOverflows (x : AffineOperand T) : OnlyOverflows (dest.setTo x) := by
  cases x with
  | number x => exact dest.clear.addScaled_onlyOverflows (.number x) .one
  | factor x =>
      cases x with
      | var x => exact .pure _
      | term x => exact dest.clear.addScaled_onlyOverflows (.factor (.term x)) .one
      | function x => exact .pure _

theorem setSum_onlyOverflows (x y : AffineOperand T) : OnlyOverflows (dest.setSum x y) :=
  (dest.setTo_onlyOverflows x).bind fun assigned => assigned.addScaled_onlyOverflows y .one

theorem setDifference_onlyOverflows (x y : AffineOperand T) :
    OnlyOverflows (dest.setDifference x y) :=
  (dest.setTo_onlyOverflows x).bind fun assigned => assigned.addScaled_onlyOverflows y .minusOne

theorem addProduct_onlyOverflows (product : AffineProduct T) :
    OnlyOverflows (dest.addProduct product) := by
  cases product with
  | numberTimes number x => exact dest.addScaled_onlyOverflows x number.scalar
  | factorTimes x number => exact dest.addScaledFactor_onlyOverflows number.scalar x

theorem addProducts_onlyOverflows (products : List (AffineProduct T)) :
    OnlyOverflows (dest.addProducts products) :=
  .foldlM addProduct_onlyOverflows dest products

theorem setRowProduct_onlyOverflows (row : List (Scalar T)) (column : Column T) :
    OnlyOverflows (dest.setRowProduct row column) := by
  cases column with
  | vars elements => exact .pure _
  | terms elements =>
      refine OnlyOverflows.bind (.mapM (fun pair => ?_) _) fun _ => .pure _
      exact (pair.1.mul_onlyOverflows _).bind fun _ => .pure _
  | functions elements =>
      exact .foldlM (fun sum pair => sum.addScaledFactor_onlyOverflows pair.1 _) _ _

end AffineFunction

/-! ## Quadratic functions -/

namespace QuadraticFunction

variable (dest : QuadraticFunction T)

theorem addScaledFunction_onlyOverflows (x : Below QuadraticFunction T) (scale : Scalar T) :
    OnlyOverflows (dest.addScaledFunction x scale) := by
  rw [addScaledFunction_eq]
  refine (OnlyOverflows.of_yields (Index.add_yields _ _)).bind fun _ => ?_
  refine (OnlyOverflows.mapM (fun term => QuadraticTerm.scale_onlyOverflows _ scale) _).bind
    fun _ => ?_
  exact (dest.affine.addScaledFactor_onlyOverflows scale _).bind fun _ => .pure _

theorem addScaled_onlyOverflows (x : QuadraticOperand T) (scale : Scalar T) :
    OnlyOverflows (dest.addScaled x scale) := by
  cases x with
  | affine x => exact (dest.affine.addScaled_onlyOverflows x scale).bind fun _ => .pure _
  | term x => exact (x.quadraticTerm.scale_onlyOverflows scale).bind fun _ => .pure _
  | function x => exact dest.addScaledFunction_onlyOverflows x scale

theorem scaleTerms_onlyOverflows (terms : List (LinearTerm T)) (constant : Option (Scalar T)) :
    OnlyOverflows (scaleTerms terms constant) := by
  cases constant with
  | none => exact .pure _
  | some constant => exact .mapM (fun term => term.scale_onlyOverflows constant) terms

theorem appendProducts_onlyOverflows (buffer : List (QuadraticTerm T)) (x y : List (LinearTerm T)) :
    OnlyOverflows (appendProducts buffer x y) := by
  rw [appendProducts_eq]
  refine (OnlyOverflows.of_yields (Index.mul_yields _ _)).bind fun _ => ?_
  refine (OnlyOverflows.of_yields (Index.add_yields _ _)).bind fun _ => ?_
  refine OnlyOverflows.bind (.mapM (fun left => ?_) x) fun _ => .pure _
  exact .mapM left.times_onlyOverflows y

theorem appendScaled_onlyOverflows (buffer x y : List (LinearTerm T))
    (xConstant yConstant : Option (Scalar T)) :
    OnlyOverflows (appendScaled buffer x y xConstant yConstant) := by
  rw [appendScaled_eq]
  refine (OnlyOverflows.of_yields (Index.add_yields _ _)).bind fun _ => ?_
  refine (OnlyOverflows.of_yields (Index.add_yields _ _)).bind fun _ => ?_
  refine (scaleTerms_onlyOverflows x yConstant).bind fun _ => ?_
  exact (scaleTerms_onlyOverflows y xConstant).bind fun _ => .pure _

theorem addConstants_onlyOverflows (constant : Scalar T) (left right : Option (Scalar T)) :
    OnlyOverflows (addConstants constant left right) := by
  cases left with
  | none => exact .pure _
  | some left =>
      cases right with
      | none => exact .pure _
      | some right =>
          exact (left.mul_onlyOverflows right).bind fun product =>
            constant.add_onlyOverflows product

theorem addFactorProduct_onlyOverflows (x : Factor T) (y : AffineOperand T) :
    OnlyOverflows (dest.addFactorProduct x y) := by
  refine (appendProducts_onlyOverflows dest.quadratic x.terms y.terms).bind fun _ => ?_
  refine (appendScaled_onlyOverflows dest.affine.linear _ _ _ _).bind fun _ => ?_
  exact (addConstants_onlyOverflows dest.affine.constant _ _).bind fun _ => .pure _

theorem addProduct_onlyOverflows (product : QuadraticProduct T) :
    OnlyOverflows (dest.addProduct product) := by
  cases product with
  | numberTimes number x => exact dest.addScaled_onlyOverflows x number.scalar
  | factorTimes x y => exact dest.addFactorProduct_onlyOverflows x y
  | termTimes x number => exact dest.addScaled_onlyOverflows (.term x) number.scalar
  | functionTimes x number => exact dest.addScaledFunction_onlyOverflows x number.scalar

theorem addProducts_onlyOverflows (products : List (QuadraticProduct T)) :
    OnlyOverflows (dest.addProducts products) :=
  .foldlM addProduct_onlyOverflows dest products

end QuadraticFunction

end DegreeTwo
