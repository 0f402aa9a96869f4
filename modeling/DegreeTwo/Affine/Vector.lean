import DegreeTwo.Affine.Product
import DegreeTwo.RowMajor

/-!
# Vectors of affine functions

Operations on lists of functions work element by element and overwrite the elements of the
destination.  The lengths of all arguments are checked before the destination is touched.
-/

namespace DegreeTwo

/-- A vector of affine functions. -/
abbrev AffineVector (T : ScalarType) := List (AffineFunction T)

/-- The elements of a column that a matrix is multiplied with. -/
inductive Column (T : ScalarType) where
  /-- A column of variables. -/
  | vars (elements : List Variable)
  /-- A column of linear terms. -/
  | terms (elements : List (Below LinearTerm T))
  /-- A column of affine functions. -/
  | functions (elements : List (Below AffineFunction T))

/-- Number of elements of a column. -/
def Column.length {T : ScalarType} : Column T → Nat
  | vars elements => elements.length
  | terms elements => elements.length
  | functions elements => elements.length

namespace AffineFunction

variable {T : ScalarType}

/-- Overwrite a destination with the product of a row of numbers and a column. -/
def setRowProduct (dest : AffineFunction T) (row : List (Scalar T)) :
    Column T → Except Fault (AffineFunction T)
  | .vars elements =>
      pure (dest.storeLinear row.length
        (List.zipWith (fun coeff var => ⟨coeff, var⟩) row elements) .zero)
  | .terms elements => do
      let products ← (row.zip elements).mapM fun pair => do
        let coeff ← pair.1.mul pair.2.linearTerm.coeff
        pure ⟨coeff, pair.2.value.var⟩
      pure (dest.storeLinear row.length products .zero)
  | .functions elements =>
      (row.zip elements).foldlM (fun sum pair => sum.addScaledFactor pair.1 (.function pair.2))
        dest.clear

end AffineFunction

namespace AffineVector

variable {T : ScalarType}

/-- Overwrite each element of a destination from the elements of two lists at its position. -/
def zipUpdate {α β : Type} (update : AffineFunction T → α → β → Except Fault (AffineFunction T)) :
    AffineVector T → List α → List β → Except Fault (AffineVector T)
  | dest :: dests, x :: xs, y :: ys => do
      let updated ← update dest x y
      let rest ← zipUpdate update dests xs ys
      pure (updated :: rest)
  | dests, _, _ => pure dests

/-- Overwrite each element of a destination from the element of a list at its position. -/
def mapUpdate {α : Type} (update : AffineFunction T → α → Except Fault (AffineFunction T)) :
    AffineVector T → List α → Except Fault (AffineVector T)
  | dest :: dests, x :: xs => do
      let updated ← update dest x
      let rest ← mapUpdate update dests xs
      pure (updated :: rest)
  | dests, _ => pure dests

/-- Resize a destination, with zero functions as new elements. -/
def resize (dest : AffineVector T) (len : Nat) : AffineVector T := Buffer.resize dest len .zero

/-- Overwrite the destination from the pairs of the elements of two lists. -/
def writePairs (update : AffineFunction T → AffineOperand T → AffineOperand T →
    Except Fault (AffineFunction T)) (x y : List (AffineOperand T)) :
    InPlace (AffineVector T) Unit := do
  InPlace.check (checkLength .y x.length y.length)
  modify fun dest => resize dest x.length
  InPlace.change fun dest => zipUpdate update dest x y

/-- Overwrite the destination with the sums of the elements of two lists. -/
def writeSum : List (AffineOperand T) → List (AffineOperand T) → InPlace (AffineVector T) Unit :=
  writePairs AffineFunction.setSum

/-- Overwrite the destination with the differences of the elements of two lists. -/
def writeDifference :
    List (AffineOperand T) → List (AffineOperand T) → InPlace (AffineVector T) Unit :=
  writePairs AffineFunction.setDifference

/-- Overwrite the destination, which has one element for each row, with the product of a matrix and
a column. -/
def writeMatrixProduct (matrix : Below ScalarMatrix T) (column : Column T) :
    InPlace (AffineVector T) Unit := do
  let dest ← get
  InPlace.check (checkLength .y matrix.value.rows dest.length)
  InPlace.check (checkLength .x matrix.value.cols column.length)
  InPlace.change fun dest => do
    let rows ← matrix.value.rowList
    mapUpdate
      (fun element row => element.setRowProduct (row.map (Scalar.widen matrix.source_le)) column)
      dest rows

/-- Overwrite the destination with the elements of several sources, one source after the other. -/
def writeConcatenation (sources : List (List (Below AffineFunction T))) :
    InPlace (AffineVector T) Unit := do
  let dest ← get
  InPlace.check do
    let total ← totalLength .trivial sources
    checkLength .sources dest.length total
  InPlace.change fun dest =>
    mapUpdate (fun element source => pure (element.overwrite source)) dest sources.flatten

/-- What a destination is after it has been overwritten with sums. -/
def setSum (dest : AffineVector T) (x y : List (AffineOperand T)) :
    Except Failure (AffineVector T) :=
  (writeSum x y).outcome dest

/-- What a destination is after it has been overwritten with differences. -/
def setDifference (dest : AffineVector T) (x y : List (AffineOperand T)) :
    Except Failure (AffineVector T) :=
  (writeDifference x y).outcome dest

/-- What a destination is after it has been overwritten with the product of a matrix and a
column. -/
def setMatrixProduct (dest : AffineVector T) (matrix : Below ScalarMatrix T) (column : Column T) :
    Except Failure (AffineVector T) :=
  (writeMatrixProduct matrix column).outcome dest

/-- Overwrite a destination with a product for each element of a list. -/
def setProducts {α : Type} (product : α → AffineProduct T) (dest : AffineVector T) (x : List α) :
    Except Fault (AffineVector T) :=
  mapUpdate (fun element value => element.setProduct (product value)) (resize dest x.length) x

/-- Overwrite a destination with the elements of a list, each times the same number. -/
def setMultiples (dest : AffineVector T) (x : List (AffineOperand T)) (number : Below Scalar T) :
    Except Fault (AffineVector T) :=
  setProducts (fun operand => operand.timesNumber number) dest x

/-- Overwrite a destination with the numbers of a list, each times the same operand. -/
def setMultiplesOf (dest : AffineVector T) (numbers : List (Below Scalar T))
    (operand : AffineOperand T) : Except Fault (AffineVector T) :=
  setProducts (fun number => .numberTimes number operand) dest numbers

/-- What a destination is after it has been overwritten with a concatenation. -/
def setConcatenation (dest : AffineVector T) (sources : List (List (Below AffineFunction T))) :
    Except Failure (AffineVector T) :=
  (writeConcatenation sources).outcome dest

end AffineVector

end DegreeTwo
