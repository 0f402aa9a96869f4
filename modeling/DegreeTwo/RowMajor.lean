import DegreeTwo.Index
import DegreeTwo.Scalar.Basic

/-!
# Row-major arrays

A two-dimensional array is the list of its elements, row after row.  Positions are computed with
checked arithmetic; the shape that an array was built with keeps all of them in range.
-/

namespace DegreeTwo

/-- A two-dimensional array of elements, row after row. -/
structure RowMajor (α : Type) where
  /-- Number of rows. -/
  rows : Nat
  /-- Number of columns. -/
  cols : Nat
  /-- The elements, row after row. -/
  elements : List α
  /-- The number of rows is a machine word. -/
  rows_lt : rows < Index.limit
  /-- The number of columns is a machine word. -/
  cols_lt : cols < Index.limit
  /-- The number of elements is a machine word. -/
  size_lt : rows * cols < Index.limit
  /-- The elements fill the shape. -/
  length_eq : elements.length = rows * cols

namespace RowMajor

variable {α : Type}

/-- Arrange elements in a shape.  The computation breaks off if the shape is not one of machine
words; there is no array if the number of elements is not that of the shape. -/
def ofElements? (rows cols : Nat) (elements : List α) : Except Fault (Option (RowMajor α)) :=
  if h : rows < Index.limit ∧ cols < Index.limit ∧ rows * cols < Index.limit then
    if length_eq : elements.length = rows * cols then
      .ok (some ⟨rows, cols, elements, h.1, h.2.1, h.2.2, length_eq⟩)
    else .ok none
  else .error (.overflow .multiply)

/-- The elements of a list from `start` to `stop`. -/
def slice (values : List α) (start stop : Nat) : Except Fault (List α) :=
  if start ≤ stop ∧ stop ≤ values.length then .ok ((values.take stop).drop start)
  else .error (.indexOutOfRange stop values.length)

/-- The row at an index. -/
def row (array : RowMajor α) (i : Nat) : Except Fault (List α) :=
  if i < array.rows then do
    let start ← Index.mul i array.cols
    let stop ← Index.add start array.cols
    slice array.elements start stop
  else .error .rowOutOfRange

/-- The rows in order. -/
def rowList (array : RowMajor α) : Except Fault (List (List α)) :=
  (List.range array.rows).mapM array.row

end RowMajor

/-- A matrix of numbers. -/
abbrev ScalarMatrix (T : ScalarType) := RowMajor (Scalar T)

end DegreeTwo
