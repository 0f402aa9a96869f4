import DegreeTwo.Affine.Product
import DegreeTwo.Quadratic.Operand

/-!
# Products of degree at most two

The product of two operands of degree at most one is written straight into the buffers of a
quadratic function: first all products of a left and a right term, row by row, then the left terms
times the right constant, then the right terms times the left constant, and last the product of the
constants.  A single term or variable has no constant, so that it contributes no terms with
coefficient zero.
-/

namespace DegreeTwo

/-- A product of degree at most two. -/
inductive QuadraticProduct (T : ScalarType) where
  /-- A number times an operand. -/
  | numberTimes (number : Below Scalar T) (operand : QuadraticOperand T)
  /-- A variable, linear term or affine function times an operand of degree at most one. -/
  | factorTimes (factor : Factor T) (operand : AffineOperand T)
  /-- A quadratic term times a number. -/
  | termTimes (term : Below QuadraticTerm T) (number : Below Scalar T)
  /-- A quadratic function times a number. -/
  | functionTimes (function : Below QuadraticFunction T) (number : Below Scalar T)

/-- Two lists whose elements are multiplied pair by pair, with products of degree at most two. -/
inductive QuadraticFactors (T : ScalarType) where
  /-- Numbers times operands. -/
  | numberTimes (x : List (Below Scalar T)) (y : List (QuadraticOperand T))
  /-- Variables, linear terms or affine functions times operands of degree at most one. -/
  | factorTimes (x : List (Factor T)) (y : List (AffineOperand T))
  /-- Quadratic terms times numbers. -/
  | termTimes (x : List (Below QuadraticTerm T)) (y : List (Below Scalar T))
  /-- Quadratic functions times numbers. -/
  | functionTimes (x : List (Below QuadraticFunction T)) (y : List (Below Scalar T))

namespace QuadraticFactors

variable {T : ScalarType}

/-- Refuse lists of different lengths. -/
def checkLengths : QuadraticFactors T → Except Failure Unit
  | numberTimes x y => checkLength .y x.length y.length
  | factorTimes x y => checkLength .y x.length y.length
  | termTimes x y => checkLength .y x.length y.length
  | functionTimes x y => checkLength .y x.length y.length

/-- The products of the pairs. -/
def products : QuadraticFactors T → List (QuadraticProduct T)
  | numberTimes x y => List.zipWith .numberTimes x y
  | factorTimes x y => List.zipWith .factorTimes x y
  | termTimes x y => List.zipWith .termTimes x y
  | functionTimes x y => List.zipWith .functionTimes x y

end QuadraticFactors

namespace Factor

variable {T : ScalarType}

/-- The linear terms of a factor. -/
def terms : Factor T → List (LinearTerm T)
  | .var x => [.ofVariable x]
  | .term x => [x.linearTerm]
  | .function x => x.value.linear.map (LinearTerm.widen x.source_le)

/-- The constant of a factor; only a function has one. -/
def constant? : Factor T → Option (Scalar T)
  | .var _ => none
  | .term _ => none
  | .function x => some (x.value.constant.widen x.source_le)

end Factor

namespace AffineOperand

variable {T : ScalarType}

/-- The linear terms of an operand. -/
def terms : AffineOperand T → List (LinearTerm T)
  | .number _ => []
  | .factor x => x.terms

/-- The constant of an operand; only a number or a function has one. -/
def constant? : AffineOperand T → Option (Scalar T)
  | .number x => some x.scalar
  | .factor x => x.constant?

end AffineOperand

/-- The terms times a constant, or no terms at all where there is no constant. -/
def scaleTerms {T : ScalarType} (terms : List (LinearTerm T)) :
    Option (Scalar T) → Except Fault (List (LinearTerm T))
  | some constant => terms.mapM fun term => term.scale constant
  | none => pure []

namespace QuadraticFunction

variable {T : ScalarType}

/-- Append the products of all pairs of terms, row by row. -/
def appendProducts (buffer : List (QuadraticTerm T)) (x y : List (LinearTerm T)) :
    Except Fault (List (QuadraticTerm T)) := do
  let count ← Index.mul x.length y.length
  let extended ← Buffer.extend buffer count default
  let rows ← x.mapM fun left => y.mapM fun right => left.times right
  pure (Buffer.storeRows extended buffer.length y.length rows)

/-- Append the terms of each side times the constant of the other one. -/
def appendScaled (buffer : List (LinearTerm T)) (x y : List (LinearTerm T))
    (xConstant yConstant : Option (Scalar T)) : Except Fault (List (LinearTerm T)) := do
  let xCount := if yConstant.isSome then x.length else 0
  let yCount := if xConstant.isSome then y.length else 0
  let count ← Index.add xCount yCount
  let extended ← Buffer.extend buffer count default
  let xScaled ← scaleTerms x yConstant
  let yScaled ← scaleTerms y xConstant
  pure (Buffer.storeAt (Buffer.storeAt extended buffer.length xScaled) (buffer.length + xCount)
    yScaled)

/-- Add the product of two constants, if both are there. -/
def addConstants (constant : Scalar T) : Option (Scalar T) → Option (Scalar T) →
    Except Fault (Scalar T)
  | some left, some right => do
      let product ← left.mul right
      constant.add product
  | _, _ => pure constant

/-- Add the product of a factor and an operand of degree at most one. -/
def addFactorProduct (dest : QuadraticFunction T) (x : Factor T) (y : AffineOperand T) :
    Except Fault (QuadraticFunction T) := do
  let quadratic ← appendProducts dest.quadratic x.terms y.terms
  let linear ← appendScaled dest.affine.linear x.terms y.terms x.constant? y.constant?
  let constant ← addConstants dest.affine.constant x.constant? y.constant?
  pure ⟨quadratic, linear, constant⟩

/-- Add a product. -/
def addProduct (dest : QuadraticFunction T) :
    QuadraticProduct T → Except Fault (QuadraticFunction T)
  | .numberTimes number operand => dest.addScaled operand number.scalar
  | .factorTimes factor operand => dest.addFactorProduct factor operand
  | .termTimes term number => dest.addScaledTerm term number.scalar
  | .functionTimes function number => dest.addScaledFunction function number.scalar

/-- Add products one after the other. -/
def addProducts (dest : QuadraticFunction T) (products : List (QuadraticProduct T)) :
    Except Fault (QuadraticFunction T) :=
  products.foldlM addProduct dest

/-- Overwrite a destination with a product. -/
def setProduct (dest : QuadraticFunction T) (product : QuadraticProduct T) :
    Except Fault (QuadraticFunction T) :=
  dest.clear.addProduct product

/-- Overwrite the destination with the sum of the products of two lists. -/
def writeDot (factors : QuadraticFactors T) : InPlace (QuadraticFunction T) Unit := do
  InPlace.check factors.checkLengths
  modify clear
  InPlace.change fun dest => dest.addProducts factors.products

/-- What a destination is after it has been overwritten with the sum of the products of two
lists. -/
def dot (dest : QuadraticFunction T) (factors : QuadraticFactors T) :
    Except Failure (QuadraticFunction T) :=
  (writeDot factors).outcome dest

end QuadraticFunction

/-- The product of two affine functions. -/
def AffineFunction.times {T : ScalarType} (x y : AffineFunction T) :
    Except Fault (QuadraticFunction T) :=
  QuadraticFunction.zero.addFactorProduct (.function (.same x)) (.factor (.function (.same y)))

end DegreeTwo
