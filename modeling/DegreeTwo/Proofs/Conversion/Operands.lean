import DegreeTwo.Proofs.Shapes
import DegreeTwo.Proofs.Widening.Functions
import DegreeTwo.Quadratic.Product

/-!
# Converted operands

An operand of a lower coefficient type may be converted to the type of the destination before it is
used, or not: the outcome is the same, because its numbers are widened before anything is computed
with them.  This holds of all types, those of floating-point numbers included.
-/

namespace DegreeTwo

variable {S T : ScalarType}

/-! ## Conversion -/

/-- Values whose numbers can be converted to a type above their own. -/
class Converts (F : ScalarType → Type) where
  /-- The value with its numbers in a type above. -/
  convert {S T : ScalarType} : S ≤ T → F S → F T

instance : Converts Scalar := ⟨Scalar.widen⟩

instance : Converts LinearTerm := ⟨LinearTerm.widen⟩

instance : Converts QuadraticTerm := ⟨QuadraticTerm.widen⟩

instance : Converts AffineFunction := ⟨AffineFunction.widen⟩

instance : Converts QuadraticFunction := ⟨QuadraticFunction.widen⟩

namespace Below

variable {F : ScalarType → Type} [Converts F]

/-- The value over `T` itself that a value over a type below is converted to. -/
def converted (x : Below F T) : Below F T := .same (Converts.convert x.source_le x.value)

/-- The second value is the first one or its conversion. -/
inductive MayConvert : Below F T → Below F T → Prop
  | keep (x : Below F T) : MayConvert x x
  | convert (x : Below F T) : MayConvert x x.converted

/-- What is read in the same way of a value and of its conversion cannot tell them apart. -/
theorem MayConvert.congr {R : Type} {x y : Below F T} (may : x.MayConvert y)
    (reading : Below F T → R) (same : ∀ x, reading x.converted = reading x) :
    reading x = reading y := by
  cases may with
  | keep => rfl
  | convert => exact (same x).symm

theorem MayConvert.scalar {x y : Below Scalar T} (may : x.MayConvert y) : x.scalar = y.scalar :=
  may.congr Below.scalar fun x => x.scalar.widen_self _

theorem MayConvert.linearTerm {x y : Below LinearTerm T} (may : x.MayConvert y) :
    x.linearTerm = y.linearTerm :=
  may.congr Below.linearTerm fun x => x.linearTerm.widen_self _

theorem MayConvert.var {x y : Below LinearTerm T} (may : x.MayConvert y) :
    x.value.var = y.value.var :=
  may.congr (·.value.var) fun _ => rfl

theorem MayConvert.quadraticTerm {x y : Below QuadraticTerm T} (may : x.MayConvert y) :
    x.quadraticTerm = y.quadraticTerm :=
  may.congr Below.quadraticTerm fun x => x.quadraticTerm.widen_self _

end Below

/-! ## Operands -/

/-- The second factor is the first one or its conversion. -/
inductive Factor.MayConvert : Factor T → Factor T → Prop
  | var (x : Variable) : MayConvert (.var x) (.var x)
  | term {x y : Below LinearTerm T} (may : x.MayConvert y) : MayConvert (.term x) (.term y)
  | function {x y : Below AffineFunction T} (may : x.MayConvert y) :
      MayConvert (.function x) (.function y)

/-- The second operand is the first one or its conversion. -/
inductive AffineOperand.MayConvert : AffineOperand T → AffineOperand T → Prop
  | number {x y : Below Scalar T} (may : x.MayConvert y) : MayConvert (.number x) (.number y)
  | factor {x y : Factor T} (may : x.MayConvert y) : MayConvert (.factor x) (.factor y)

/-- The second operand is the first one or its conversion. -/
inductive QuadraticOperand.MayConvert : QuadraticOperand T → QuadraticOperand T → Prop
  | affine {x y : AffineOperand T} (may : x.MayConvert y) : MayConvert (.affine x) (.affine y)
  | term {x y : Below QuadraticTerm T} (may : x.MayConvert y) : MayConvert (.term x) (.term y)
  | function {x y : Below QuadraticFunction T} (may : x.MayConvert y) :
      MayConvert (.function x) (.function y)

/-- The second product is the first one, possibly with its factors converted. -/
inductive AffineProduct.MayConvert : AffineProduct T → AffineProduct T → Prop
  | numberTimes {number other : Below Scalar T} {x y : AffineOperand T}
      (left : number.MayConvert other) (right : x.MayConvert y) :
      MayConvert (.numberTimes number x) (.numberTimes other y)
  | factorTimes {x y : Factor T} {number other : Below Scalar T} (left : x.MayConvert y)
      (right : number.MayConvert other) : MayConvert (.factorTimes x number) (.factorTimes y other)

/-- The second product is the first one, possibly with its factors converted. -/
inductive QuadraticProduct.MayConvert : QuadraticProduct T → QuadraticProduct T → Prop
  | numberTimes {number other : Below Scalar T} {x y : QuadraticOperand T}
      (left : number.MayConvert other) (right : x.MayConvert y) :
      MayConvert (.numberTimes number x) (.numberTimes other y)
  | factorTimes {x y : Factor T} {u v : AffineOperand T} (left : x.MayConvert y)
      (right : u.MayConvert v) : MayConvert (.factorTimes x u) (.factorTimes y v)
  | termTimes {x y : Below QuadraticTerm T} {number other : Below Scalar T}
      (left : x.MayConvert y) (right : number.MayConvert other) :
      MayConvert (.termTimes x number) (.termTimes y other)
  | functionTimes {x y : Below QuadraticFunction T} {number other : Below Scalar T}
      (left : x.MayConvert y) (right : number.MayConvert other) :
      MayConvert (.functionTimes x number) (.functionTimes y other)

theorem AffineOperand.MayConvert.timesNumber {x y : AffineOperand T}
    {number other : Below Scalar T} (left : x.MayConvert y) (right : number.MayConvert other) :
    (x.timesNumber number).MayConvert (y.timesNumber other) := by
  cases left with
  | number left => exact .numberTimes left (.number right)
  | factor left => exact .factorTimes left right

/-! ## Operations on affine functions -/

namespace AffineFunction

theorem widen_self (h : T ≤ T) (f : AffineFunction T) : f.widen h = f := zero.overwrite_same f

theorem overwrite_eq_widen (dest : AffineFunction T) (x : Below AffineFunction T) :
    dest.overwrite x = x.value.widen x.source_le := by rw [overwrite_eq, widen_eq]

theorem overwrite_converted (dest : AffineFunction T) {x y : Below AffineFunction T}
    (may : x.MayConvert y) : dest.overwrite x = dest.overwrite y :=
  may.congr dest.overwrite fun x => by
    rw [overwrite_eq_widen, overwrite_eq_widen]
    exact widen_self _ (x.value.widen x.source_le)

theorem addScaledFactor_converted (dest : AffineFunction T) {x y : Factor T}
    (may : x.MayConvert y) (scale : Scalar T) :
    dest.addScaledFactor scale x = dest.addScaledFactor scale y := by
  cases may with
  | var x => rfl
  | term may => rw [addScaledFactor, addScaledFactor, may.linearTerm]
  | function may =>
      apply may.congr fun x => dest.addScaledFactor scale (.function x)
      intro x
      simp only [addScaledFactor_function, Below.converted, Below.same, Converts.convert,
        linear_widen, constant_widen, List.length_map, List.mapM_map, Function.comp_def,
        LinearTerm.widen_self, Scalar.widen_self]

theorem addScaled_converted (dest : AffineFunction T) {x y : AffineOperand T}
    (may : x.MayConvert y) (scale : Scalar T) :
    dest.addScaled x scale = dest.addScaled y scale := by
  cases may with
  | number may => rw [addScaled, addScaled, addScaledNumber, addScaledNumber, may.scalar]
  | factor may => exact dest.addScaledFactor_converted may scale

theorem setTo_converted (dest : AffineFunction T) {x y : AffineOperand T} (may : x.MayConvert y) :
    dest.setTo x = dest.setTo y := by
  cases may with
  | number may => exact dest.clear.addScaled_converted (.number may) .one
  | factor may =>
      cases may with
      | var x => rfl
      | term may => exact dest.clear.addScaled_converted (.factor (.term may)) .one
      | function may => exact congrArg pure (dest.overwrite_converted may)

theorem setSum_converted (dest : AffineFunction T) {x y u v : AffineOperand T}
    (left : x.MayConvert y) (right : u.MayConvert v) : dest.setSum x u = dest.setSum y v := by
  rw [setSum, setSum, dest.setTo_converted left]
  exact bind_congr fun assigned => assigned.addScaled_converted right .one

theorem setDifference_converted (dest : AffineFunction T) {x y u v : AffineOperand T}
    (left : x.MayConvert y) (right : u.MayConvert v) :
    dest.setDifference x u = dest.setDifference y v := by
  rw [setDifference, setDifference, dest.setTo_converted left]
  exact bind_congr fun assigned => assigned.addScaled_converted right .minusOne

theorem addProduct_converted (dest : AffineFunction T) {product other : AffineProduct T}
    (may : product.MayConvert other) : dest.addProduct product = dest.addProduct other := by
  cases may with
  | numberTimes left right =>
      rw [addProduct, addProduct, left.scalar, dest.addScaled_converted right]
  | factorTimes left right =>
      rw [addProduct, addProduct, right.scalar, dest.addScaledFactor_converted left]

end AffineFunction

/-! ## Operations on quadratic functions -/

namespace Factor

theorem MayConvert.terms {x y : Factor T} (may : x.MayConvert y) : x.terms = y.terms := by
  cases may with
  | var x => rfl
  | term may => rw [Factor.terms, Factor.terms, may.linearTerm]
  | function may =>
      apply may.congr fun x => (Factor.function x).terms
      intro x
      exact (LinearTerm.map_widen_self _ _).trans (x.value.linear_widen x.source_le)

theorem MayConvert.constant? {x y : Factor T} (may : x.MayConvert y) :
    x.constant? = y.constant? := by
  cases may with
  | var x => rfl
  | term may => rfl
  | function may =>
      apply may.congr fun x => (Factor.function x).constant?
      intro x
      exact congrArg some ((Scalar.widen_self _ _).trans (x.value.constant_widen x.source_le))

end Factor

namespace AffineOperand

theorem MayConvert.terms {x y : AffineOperand T} (may : x.MayConvert y) : x.terms = y.terms := by
  cases may with
  | number may => rfl
  | factor may => exact may.terms

theorem MayConvert.constant? {x y : AffineOperand T} (may : x.MayConvert y) :
    x.constant? = y.constant? := by
  cases may with
  | number may => exact congrArg some may.scalar
  | factor may => exact may.constant?

end AffineOperand

namespace QuadraticFunction

theorem widen_self (h : T ≤ T) (f : QuadraticFunction T) : f.widen h = f := zero.overwrite_same f

theorem overwrite_eq_widen (dest : QuadraticFunction T) (x : Below QuadraticFunction T) :
    dest.overwrite x = x.value.widen x.source_le := by
  rw [overwrite_eq, widen_eq, AffineFunction.widen_eq]

theorem overwrite_converted (dest : QuadraticFunction T) {x y : Below QuadraticFunction T}
    (may : x.MayConvert y) : dest.overwrite x = dest.overwrite y :=
  may.congr dest.overwrite fun x => by
    rw [overwrite_eq_widen, overwrite_eq_widen]
    exact widen_self _ (x.value.widen x.source_le)

theorem addScaledTerm_converted (dest : QuadraticFunction T) {x y : Below QuadraticTerm T}
    (may : x.MayConvert y) (scale : Scalar T) :
    dest.addScaledTerm x scale = dest.addScaledTerm y scale := by
  rw [addScaledTerm, addScaledTerm, may.quadraticTerm]

theorem addScaledFunction_converted (dest : QuadraticFunction T)
    {x y : Below QuadraticFunction T} (may : x.MayConvert y) (scale : Scalar T) :
    dest.addScaledFunction x scale = dest.addScaledFunction y scale := by
  apply may.congr fun x => dest.addScaledFunction x scale
  intro x
  simp only [addScaledFunction_eq, AffineFunction.addScaledFactor_function, Below.converted,
    Below.same, Converts.convert, quadratic_widen, affine_widen, AffineFunction.linear_widen,
    AffineFunction.constant_widen, List.length_map, List.mapM_map, Function.comp_def,
    LinearTerm.widen_self, QuadraticTerm.widen_self, Scalar.widen_self]

theorem addScaled_converted (dest : QuadraticFunction T) {x y : QuadraticOperand T}
    (may : x.MayConvert y) (scale : Scalar T) :
    dest.addScaled x scale = dest.addScaled y scale := by
  cases may with
  | affine may => rw [addScaled, addScaled, dest.affine.addScaled_converted may]
  | term may => exact dest.addScaledTerm_converted may scale
  | function may => exact dest.addScaledFunction_converted may scale

theorem setTo_converted (dest : QuadraticFunction T) {x y : QuadraticOperand T}
    (may : x.MayConvert y) : dest.setTo x = dest.setTo y := by
  cases may with
  | affine may =>
      cases may with
      | number may => exact dest.clear.addScaled_converted (.affine (.number may)) .one
      | factor may => rw [setTo, setTo, dest.affine.setTo_converted (.factor may)]
  | term may => exact dest.clear.addScaled_converted (.term may) .one
  | function may => exact congrArg pure (dest.overwrite_converted may)

theorem setSum_converted (dest : QuadraticFunction T) {x y u v : QuadraticOperand T}
    (left : x.MayConvert y) (right : u.MayConvert v) : dest.setSum x u = dest.setSum y v := by
  rw [setSum, setSum, dest.setTo_converted left]
  exact bind_congr fun assigned => assigned.addScaled_converted right .one

theorem setDifference_converted (dest : QuadraticFunction T) {x y u v : QuadraticOperand T}
    (left : x.MayConvert y) (right : u.MayConvert v) :
    dest.setDifference x u = dest.setDifference y v := by
  rw [setDifference, setDifference, dest.setTo_converted left]
  exact bind_congr fun assigned => assigned.addScaled_converted right .minusOne

theorem addProduct_converted (dest : QuadraticFunction T) {product other : QuadraticProduct T}
    (may : product.MayConvert other) : dest.addProduct product = dest.addProduct other := by
  cases may with
  | numberTimes left right =>
      rw [addProduct, addProduct, left.scalar, dest.addScaled_converted right]
  | factorTimes left right =>
      rw [addProduct, addProduct, addFactorProduct, addFactorProduct, left.terms, left.constant?,
        right.terms, right.constant?]
  | termTimes left right =>
      rw [addProduct, addProduct, right.scalar, dest.addScaledTerm_converted left]
  | functionTimes left right =>
      rw [addProduct, addProduct, right.scalar, dest.addScaledFunction_converted left]

end QuadraticFunction

end DegreeTwo
