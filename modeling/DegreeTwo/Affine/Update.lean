import DegreeTwo.Affine.Product
import DegreeTwo.Update

/-!
# Updates of an affine function

The updates are what a destination that is kept between computations can be asked to do.
-/

namespace DegreeTwo

/-- An update of an affine function. -/
inductive AffineUpdate (T : ScalarType) where
  /-- Reset to the zero function. -/
  | clear
  /-- Replace by a function. -/
  | set (value : AffineFunction T)
  /-- Copy a function of a type below. -/
  | overwrite (source : Below AffineFunction T)
  /-- Add an operand. -/
  | add (operand : AffineOperand T)
  /-- Subtract an operand. -/
  | sub (operand : AffineOperand T)
  /-- Add a multiple of an operand. -/
  | addScaled (operand : AffineOperand T) (scale : Scalar T)
  /-- Overwrite with an operand. -/
  | setTo (operand : AffineOperand T)
  /-- Overwrite with a sum. -/
  | setSum (x y : AffineOperand T)
  /-- Overwrite with a difference. -/
  | setDifference (x y : AffineOperand T)
  /-- Add a product. -/
  | addProduct (product : AffineProduct T)
  /-- Overwrite with a product. -/
  | setProduct (product : AffineProduct T)
  /-- Overwrite with a sum of products. -/
  | dot (factors : AffineFactors T)
  /-- Overwrite with a sum of products, each of them one term. -/
  | dotTerms (factors : TermFactors T)
  /-- Sort and merge the terms. -/
  | canonicalize
  /-- Drop the terms that do not exceed a tolerance. -/
  | prune (tolerance : Scalar T)
  /-- Drop the terms with coefficient zero. -/
  | pruneZeros
  /-- Replace the constant. -/
  | setConstant (constant : Scalar T)
  /-- Append a linear term. -/
  | pushLinear (term : LinearTerm T)
  /-- Keep at most so many linear terms. -/
  | truncateLinear (len : Nat)
  /-- Change the sign. -/
  | neg
  /-- Multiply by a number. -/
  | scale (number : Scalar T)

/-- Update a function in place. -/
def AffineUpdate.perform {T : ScalarType} : AffineUpdate T → InPlace (AffineFunction T) Unit
  | .clear => modify AffineFunction.clear
  | .set value => modify fun _ => value
  | .overwrite source => modify fun f => f.overwrite source
  | .add operand => InPlace.change fun f => f.add operand
  | .sub operand => InPlace.change fun f => f.sub operand
  | .addScaled operand number => InPlace.change fun f => f.addScaled operand number
  | .setTo operand => InPlace.change fun f => f.setTo operand
  | .setSum x y => InPlace.change fun f => f.setSum x y
  | .setDifference x y => InPlace.change fun f => f.setDifference x y
  | .addProduct product => InPlace.change fun f => f.addProduct product
  | .setProduct product => InPlace.change fun f => f.setProduct product
  | .dot factors => AffineFunction.writeDot factors
  | .dotTerms factors => AffineFunction.writeDotTerms factors
  | .canonicalize => InPlace.change fun f => f.canonicalize
  | .prune tolerance => modify fun f => f.prune tolerance
  | .pruneZeros => modify AffineFunction.pruneZeros
  | .setConstant constant => modify fun f => f.setConstant constant
  | .pushLinear term => modify fun f => f.pushLinear term
  | .truncateLinear len => modify fun f => f.truncateLinear len
  | .neg => InPlace.change AffineFunction.neg
  | .scale number => InPlace.change fun f => f.scale number

/-- The function after an update that is not refused. -/
def AffineUpdate.apply {T : ScalarType} (update : AffineUpdate T) (f : AffineFunction T) :
    Except Failure (AffineFunction T) :=
  update.perform.outcome f

/-- The function after a run of updates. -/
def AffineFunction.run {T : ScalarType} (updates : List (AffineUpdate T)) (f : AffineFunction T) :
    Except Fault (AffineFunction T) :=
  performAll AffineUpdate.perform updates f

end DegreeTwo
