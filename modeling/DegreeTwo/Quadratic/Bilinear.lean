import DegreeTwo.InPlace
import DegreeTwo.Quadratic.Basic
import DegreeTwo.RowMajor

/-!
# Bilinear forms

A matrix and two lists of variables determine a quadratic function with one term for each entry of
the matrix.  The entry at a position of the row-major list belongs to the row that is the quotient,
and to the column that is the remainder, of the position by the number of columns.
-/

namespace DegreeTwo.QuadraticFunction

variable {T : ScalarType}

/-- The term of a bilinear form for the matrix entry at a position. -/
def bilinearTerm (cols : Nat) (x y : List Variable) (coeff : Scalar T) (position : Nat) :
    Except Fault (QuadraticTerm T) := do
  let i ← Index.div position cols
  let row ← entry x i
  let j ← Index.mod position cols
  let col ← entry y j
  pure ⟨coeff, row, col⟩

/-- Overwrite the destination with the bilinear form of a matrix in two lists of variables: one term
for each entry of the matrix, row by row. -/
def writeBilinear (matrix : Below ScalarMatrix T) (x y : List Variable) :
    InPlace (QuadraticFunction T) Unit := do
  InPlace.check (checkLength .x matrix.value.rows x.length)
  InPlace.check (checkLength .y matrix.value.cols y.length)
  modify fun dest => { dest with affine := dest.affine.clear }
  modify fun dest =>
    { dest with quadratic := Buffer.resize dest.quadratic matrix.value.elements.length default }
  InPlace.change fun dest => do
    let terms ← matrix.value.elements.zipIdx.mapM fun element =>
      bilinearTerm matrix.value.cols x y (element.1.widen matrix.source_le) element.2
    pure { dest with quadratic := Buffer.overwrite dest.quadratic terms }

/-- What a destination is after it has been overwritten with a bilinear form. -/
def setBilinear (dest : QuadraticFunction T) (matrix : Below ScalarMatrix T)
    (x y : List Variable) : Except Failure (QuadraticFunction T) :=
  (writeBilinear matrix x y).outcome dest

end DegreeTwo.QuadraticFunction
