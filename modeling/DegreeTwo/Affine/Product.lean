import DegreeTwo.Affine.Operand
import DegreeTwo.InPlace

/-!
# Products of degree at most one

A number times an operand, or a variable, term or function times a number, can be added to an affine
function without being built first.  Sums of such products over two lists check the lengths of the
lists before they touch the destination.
-/

namespace DegreeTwo

/-- A product of degree at most one. -/
inductive AffineProduct (T : ScalarType) where
  /-- A number times an operand. -/
  | numberTimes (number : Below Scalar T) (operand : AffineOperand T)
  /-- A variable, term or function times a number. -/
  | factorTimes (factor : Factor T) (number : Below Scalar T)

/-- An operand times a number. -/
def AffineOperand.timesNumber {T : ScalarType} (operand : AffineOperand T)
    (number : Below Scalar T) : AffineProduct T :=
  match operand with
  | .number left => .numberTimes left (.number number)
  | .factor left => .factorTimes left number

/-- Two lists whose elements are multiplied pair by pair, with products of degree at most one. -/
inductive AffineFactors (T : ScalarType) where
  /-- Numbers times operands. -/
  | numberTimes (x : List (Below Scalar T)) (y : List (AffineOperand T))
  /-- Variables, terms or functions times numbers. -/
  | factorTimes (x : List (Factor T)) (y : List (Below Scalar T))

namespace AffineFactors

variable {T : ScalarType}

/-- Refuse lists of different lengths. -/
def checkLengths : AffineFactors T → Except Failure Unit
  | numberTimes x y => checkLength .y x.length y.length
  | factorTimes x y => checkLength .y x.length y.length

/-- The products of the pairs. -/
def products : AffineFactors T → List (AffineProduct T)
  | numberTimes x y => List.zipWith .numberTimes x y
  | factorTimes x y => List.zipWith .factorTimes x y

end AffineFactors

/-- Two lists whose pairs multiply to a single linear term each. -/
inductive TermFactors (T : ScalarType) where
  /-- Numbers times variables. -/
  | numberVariable (x : List (Below Scalar T)) (y : List Variable)
  /-- Variables times numbers. -/
  | variableNumber (x : List Variable) (y : List (Below Scalar T))
  /-- Numbers times linear terms. -/
  | numberTerm (x : List (Below Scalar T)) (y : List (Below LinearTerm T))
  /-- Linear terms times numbers. -/
  | termNumber (x : List (Below LinearTerm T)) (y : List (Below Scalar T))

namespace TermFactors

variable {T : ScalarType}

/-- Number of left factors. -/
def length : TermFactors T → Nat
  | numberVariable x _ => x.length
  | variableNumber x _ => x.length
  | numberTerm x _ => x.length
  | termNumber x _ => x.length

/-- Refuse lists of different lengths. -/
def checkLengths : TermFactors T → Except Failure Unit
  | numberVariable x y => checkLength .y x.length y.length
  | variableNumber x y => checkLength .y x.length y.length
  | numberTerm x y => checkLength .y x.length y.length
  | termNumber x y => checkLength .y x.length y.length

/-- The term that a number and a linear term multiply to. -/
def numberTimesTerm (number : Below Scalar T) (term : Below LinearTerm T) :
    Except Fault (LinearTerm T) := do
  let coeff ← number.scalar.mul term.linearTerm.coeff
  pure ⟨coeff, term.value.var⟩

/-- The product terms of the pairs. -/
def terms : TermFactors T → Except Fault (List (LinearTerm T))
  | numberVariable x y => pure (List.zipWith (fun number var => ⟨number.scalar, var⟩) x y)
  | variableNumber x y => pure (List.zipWith (fun var number => ⟨number.scalar, var⟩) x y)
  | numberTerm x y => (x.zip y).mapM fun pair => numberTimesTerm pair.1 pair.2
  | termNumber x y => (x.zip y).mapM fun pair => pair.1.linearTerm.scale pair.2.scalar

end TermFactors

namespace AffineFunction

variable {T : ScalarType}

/-- Add a product. -/
def addProduct (dest : AffineFunction T) : AffineProduct T → Except Fault (AffineFunction T)
  | .numberTimes number operand => dest.addScaled operand number.scalar
  | .factorTimes factor number => dest.addScaledFactor number.scalar factor

/-- Add products one after the other. -/
def addProducts (dest : AffineFunction T) (products : List (AffineProduct T)) :
    Except Fault (AffineFunction T) :=
  products.foldlM addProduct dest

/-- Overwrite a destination with a product. -/
def setProduct (dest : AffineFunction T) (product : AffineProduct T) :
    Except Fault (AffineFunction T) :=
  dest.clear.addProduct product

/-- Overwrite the destination with the sum of the products of two lists. -/
def writeDot (factors : AffineFactors T) : InPlace (AffineFunction T) Unit := do
  InPlace.check factors.checkLengths
  modify clear
  InPlace.change fun dest => dest.addProducts factors.products

/-- Overwrite the destination with the sum of the products of two lists, each product becoming one
term at the position of its pair. -/
def writeDotTerms (factors : TermFactors T) : InPlace (AffineFunction T) Unit := do
  InPlace.check factors.checkLengths
  modify fun dest => { dest with linear := Buffer.resize dest.linear factors.length default }
  InPlace.change fun dest => do
    let terms ← factors.terms
    pure { dest with linear := Buffer.overwrite dest.linear terms }
  modify fun dest => dest.setConstant .zero

/-- What a destination is after it has been overwritten with the sum of the products of two
lists. -/
def dot (dest : AffineFunction T) (factors : AffineFactors T) :
    Except Failure (AffineFunction T) :=
  (writeDot factors).outcome dest

/-- What a destination is after it has been overwritten with the sum of the products of two lists,
each product being one term. -/
def dotTerms (dest : AffineFunction T) (factors : TermFactors T) :
    Except Failure (AffineFunction T) :=
  (writeDotTerms factors).outcome dest

end AffineFunction

end DegreeTwo
