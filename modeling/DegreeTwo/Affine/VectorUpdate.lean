import DegreeTwo.Affine.Update
import DegreeTwo.Affine.Vector

/-!
# Updates of a vector of affine functions

A vector can be overwritten as a whole, and its elements can be updated one at a time.
-/

namespace DegreeTwo

/-- An update of a vector of affine functions. -/
inductive VectorUpdate (T : ScalarType) where
  /-- Replace by a vector. -/
  | set (value : AffineVector T)
  /-- Replace by zero functions. -/
  | zeros (len : Nat)
  /-- Overwrite with sums. -/
  | setSum (x y : List (AffineOperand T))
  /-- Overwrite with differences. -/
  | setDifference (x y : List (AffineOperand T))
  /-- Overwrite with the product of a matrix and a column. -/
  | matMul (matrix : Below ScalarMatrix T) (column : Column T)
  /-- Overwrite with the multiples of operands by a number. -/
  | scale (x : List (AffineOperand T)) (number : Below Scalar T)
  /-- Overwrite with the multiples of an operand by numbers. -/
  | multiplesOf (numbers : List (Below Scalar T)) (operand : AffineOperand T)
  /-- Overwrite with a concatenation. -/
  | concat (sources : List (List (Below AffineFunction T)))
  /-- Update the element at a position. -/
  | element (i : Nat) (update : AffineUpdate T)

/-- Update a vector in place. -/
def VectorUpdate.perform {T : ScalarType} : VectorUpdate T → InPlace (AffineVector T) Unit
  | .set value => modify fun _ => value
  | .zeros len => modify fun _ => List.replicate len .zero
  | .setSum x y => AffineVector.writeSum x y
  | .setDifference x y => AffineVector.writeDifference x y
  | .matMul matrix column => AffineVector.writeMatrixProduct matrix column
  | .scale x number => InPlace.change fun dest => AffineVector.setMultiples dest x number
  | .multiplesOf numbers operand =>
      InPlace.change fun dest => AffineVector.setMultiplesOf dest numbers operand
  | .concat sources => AffineVector.writeConcatenation sources
  | .element i update => InPlace.within (.element i) update.perform

/-- The vector after an update that is not refused. -/
def VectorUpdate.apply {T : ScalarType} (update : VectorUpdate T) (dest : AffineVector T) :
    Except Failure (AffineVector T) :=
  update.perform.outcome dest

/-- The vector after a run of updates. -/
def AffineVector.run {T : ScalarType} (updates : List (VectorUpdate T)) (dest : AffineVector T) :
    Except Fault (AffineVector T) :=
  performAll VectorUpdate.perform updates dest

end DegreeTwo
