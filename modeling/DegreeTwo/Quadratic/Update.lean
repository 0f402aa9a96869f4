import DegreeTwo.Affine.Update
import DegreeTwo.Quadratic.Bilinear
import DegreeTwo.Quadratic.Product

/-!
# Updates of a quadratic function

A quadratic function can be updated as a whole, and through its affine part.
-/

namespace DegreeTwo

/-- An update of a quadratic function. -/
inductive QuadraticUpdate (T : ScalarType) where
  /-- Reset to the zero function. -/
  | clear
  /-- Replace by a function. -/
  | set (value : QuadraticFunction T)
  /-- Copy a function of a type below. -/
  | overwrite (source : Below QuadraticFunction T)
  /-- Add an operand. -/
  | add (operand : QuadraticOperand T)
  /-- Subtract an operand. -/
  | sub (operand : QuadraticOperand T)
  /-- Add a multiple of an operand. -/
  | addScaled (operand : QuadraticOperand T) (scale : Scalar T)
  /-- Overwrite with an operand. -/
  | setTo (operand : QuadraticOperand T)
  /-- Overwrite with a sum. -/
  | setSum (x y : QuadraticOperand T)
  /-- Overwrite with a difference. -/
  | setDifference (x y : QuadraticOperand T)
  /-- Add a product. -/
  | addProduct (product : QuadraticProduct T)
  /-- Overwrite with a product. -/
  | setProduct (product : QuadraticProduct T)
  /-- Overwrite with a sum of products. -/
  | dot (factors : QuadraticFactors T)
  /-- Overwrite with the bilinear form of a matrix. -/
  | bilinear (matrix : Below ScalarMatrix T) (x y : List Variable)
  /-- Orient, sort and merge the terms. -/
  | canonicalize
  /-- Drop the terms that do not exceed a tolerance. -/
  | prune (tolerance : Scalar T)
  /-- Drop the terms with coefficient zero. -/
  | pruneZeros
  /-- Append a quadratic term. -/
  | pushQuadratic (term : QuadraticTerm T)
  /-- Keep at most so many quadratic terms. -/
  | truncateQuadratic (len : Nat)
  /-- Change the sign. -/
  | neg
  /-- Multiply by a number. -/
  | scale (number : Scalar T)
  /-- Update the affine part. -/
  | affine (update : AffineUpdate T)

/-- The affine part of a function. -/
def QuadraticFunction.affinePart {T : ScalarType} :
    Part (QuadraticFunction T) (AffineFunction T) where
  read f := .ok f.affine
  write f affine := { f with affine }
  write_read reads := by
    cases reads
    rfl

/-- Update a function in place. -/
def QuadraticUpdate.perform {T : ScalarType} :
    QuadraticUpdate T → InPlace (QuadraticFunction T) Unit
  | .clear => modify QuadraticFunction.clear
  | .set value => modify fun _ => value
  | .overwrite source => modify fun f => f.overwrite source
  | .add operand => InPlace.change fun f => f.add operand
  | .sub operand => InPlace.change fun f => f.sub operand
  | .addScaled operand number => InPlace.change fun f => f.addScaled operand number
  | .setTo operand => InPlace.change fun f => f.setTo operand
  | .setSum x y => InPlace.change fun f => f.setSum x y
  | .setDifference x y => InPlace.change fun f => f.setDifference x y
  | .addProduct product => InPlace.change fun f => f.addProduct product
  | .setProduct product => InPlace.change fun f => f.setProduct product
  | .dot factors => QuadraticFunction.writeDot factors
  | .bilinear matrix x y => QuadraticFunction.writeBilinear matrix x y
  | .canonicalize => InPlace.change fun f => f.canonicalize
  | .prune tolerance => modify fun f => f.prune tolerance
  | .pruneZeros => modify QuadraticFunction.pruneZeros
  | .pushQuadratic term => modify fun f => f.pushQuadratic term
  | .truncateQuadratic len => modify fun f => f.truncateQuadratic len
  | .neg => InPlace.change QuadraticFunction.neg
  | .scale number => InPlace.change fun f => f.scale number
  | .affine update => InPlace.within QuadraticFunction.affinePart update.perform

/-- The function after an update that is not refused. -/
def QuadraticUpdate.apply {T : ScalarType} (update : QuadraticUpdate T)
    (f : QuadraticFunction T) : Except Failure (QuadraticFunction T) :=
  update.perform.outcome f

/-- The function after a run of updates. -/
def QuadraticFunction.run {T : ScalarType} (updates : List (QuadraticUpdate T))
    (f : QuadraticFunction T) : Except Fault (QuadraticFunction T) :=
  performAll QuadraticUpdate.perform updates f

end DegreeTwo
