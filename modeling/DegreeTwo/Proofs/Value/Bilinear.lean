import DegreeTwo.Proofs.Buffers
import DegreeTwo.Proofs.Value.Basic
import DegreeTwo.Quadratic.Bilinear
import Mathlib.Algebra.BigOperators.Fin
import Mathlib.Data.List.GetD

/-!
# The terms of a bilinear form

The entries of a matrix are addressed by quotient and remainder of a position in the row-major list.
Both are in range at every position, so that a bilinear form always has its terms: one for each row
and column.  They add up to the double sum that the form stands for.
-/

namespace DegreeTwo

/-! ## Entries of a matrix -/

namespace RowMajor

variable {α : Type}

theorem position_lt (array : RowMajor α) (i : Fin array.rows) (j : Fin array.cols) :
    i * array.cols + j < array.elements.length := by
  calc
    i * array.cols + j < i * array.cols + array.cols := Nat.add_lt_add_left j.isLt _
    _ = (i + 1) * array.cols := (Nat.succ_mul _ _).symm
    _ ≤ array.rows * array.cols := Nat.mul_le_mul_right _ i.isLt
    _ = array.elements.length := array.length_eq.symm

/-- The element in a row and a column. -/
def elementAt (array : RowMajor α) (i : Fin array.rows) (j : Fin array.cols) : α :=
  array.elements.get ⟨i * array.cols + j, array.position_lt i j⟩

theorem div_position (array : RowMajor α) (i : Fin array.rows) (j : Fin array.cols) :
    (i * array.cols + j) / array.cols = i := by
  rw [Nat.mul_comm, Nat.mul_add_div (Nat.zero_lt_of_lt j.isLt), Nat.div_eq_of_lt j.isLt,
    Nat.add_zero]

theorem mod_position (array : RowMajor α) (i : Fin array.rows) (j : Fin array.cols) :
    (i * array.cols + j) % array.cols = j := by
  rw [Nat.mul_comm, Nat.mul_add_mod, Nat.mod_eq_of_lt j.isLt]

end RowMajor

/-- A position in a list of rows has a row and a column. -/
theorem Index.divMod_of_lt {rows cols position : Nat} (inside : position < rows * cols) :
    (div position cols = .ok (position / cols) ∧ position / cols < rows) ∧
      mod position cols = .ok (position % cols) ∧ position % cols < cols := by
  have cols_pos : 0 < cols := by
    apply Nat.pos_of_ne_zero
    rintro rfl
    simp at inside
  have cols_ne : cols ≠ 0 := Nat.ne_of_gt cols_pos
  rw [div, mod, if_neg cols_ne, if_neg cols_ne]
  exact ⟨⟨rfl, Nat.div_lt_of_lt_mul (by rwa [Nat.mul_comm])⟩, rfl, Nat.mod_lt position cols_pos⟩

/-! ## The form -/

/-- The terms of a bilinear form, row by row. -/
def Below.bilinearTerms {T : ScalarType} (matrix : Below ScalarMatrix T) (x y : List Variable)
    (rows_eq : matrix.value.rows = x.length) (cols_eq : matrix.value.cols = y.length) :
    List (QuadraticTerm T) :=
  (List.ofFn fun i => List.ofFn fun j =>
    ⟨(matrix.value.elementAt i j).widen matrix.source_le, x.get (i.cast rows_eq),
      y.get (j.cast cols_eq)⟩).flatten

variable {T : ScalarType} {width : IntWidth} {x y : List Variable}

theorem QuadraticFunction.bilinearTerm_eq_ok {cols : Nat} (coeff : Scalar T) {position : Nat}
    (cols_eq : cols = y.length) (inside : position < x.length * cols) :
    bilinearTerm cols x y coeff position =
      .ok ⟨coeff, x.getD (position / cols) default, y.getD (position % cols) default⟩ := by
  obtain ⟨⟨quotient, row_inside⟩, remainder, below_cols⟩ := Index.divMod_of_lt inside
  have col_inside : position % cols < y.length := below_cols.trans_eq cols_eq
  rw [bilinearTerm, quotient, ok_bind, entry_eq_ok row_inside, ok_bind, remainder, ok_bind,
    entry_eq_ok col_inside, ok_bind,
    List.getD_eq_getElem _ _ row_inside, List.getD_eq_getElem _ _ col_inside]
  rfl

namespace Below

/-- The term of an entry stands at the position of the entry. -/
theorem bilinearTerms_eq_ofFn (matrix : Below ScalarMatrix T)
    (rows_eq : matrix.value.rows = x.length) (cols_eq : matrix.value.cols = y.length) :
    matrix.bilinearTerms x y rows_eq cols_eq =
      List.ofFn fun k : Fin (matrix.value.rows * matrix.value.cols) =>
        ⟨(matrix.value.elements.get (k.cast matrix.value.length_eq.symm)).widen matrix.source_le,
          x.getD (k / matrix.value.cols) default, y.getD (k % matrix.value.cols) default⟩ := by
  have row : ∀ i : Fin matrix.value.rows, x.getD i default = x.get (i.cast rows_eq) :=
    fun i => List.getD_eq_get x default (i.cast rows_eq)
  have col : ∀ j : Fin matrix.value.cols, y.getD j default = y.get (j.cast cols_eq) :=
    fun j => List.getD_eq_get y default (j.cast cols_eq)
  rw [List.ofFn_mul, bilinearTerms]
  simp only [matrix.value.div_position, matrix.value.mod_position, row, col]
  rfl

/-- The positions of all entries are in range. -/
theorem mapM_bilinearTerm (matrix : Below ScalarMatrix T)
    (rows_eq : matrix.value.rows = x.length) (cols_eq : matrix.value.cols = y.length) :
    (matrix.value.elements.zipIdx.mapM fun element => QuadraticFunction.bilinearTerm
        matrix.value.cols x y (element.1.widen matrix.source_le) element.2) =
      .ok (matrix.bilinearTerms x y rows_eq cols_eq) := by
  rw [mapM_eq_ok, matrix.bilinearTerms_eq_ofFn, List.forall₂_iff_get]
  refine ⟨by simp [matrix.value.length_eq], fun k inside _ => ?_⟩
  have position_inside : k < x.length * matrix.value.cols := by
    rwa [List.length_zipIdx, matrix.value.length_eq, rows_eq] at inside
  simpa using QuadraticFunction.bilinearTerm_eq_ok _ cols_eq position_inside

end Below

/-- The bilinear form of a matrix in two lists of variables at a point. -/
def bilinearValue {S : ScalarType} (point : Variable → Int) (matrix : ScalarMatrix S)
    (x y : List Variable) (rows_eq : matrix.rows = x.length) (cols_eq : matrix.cols = y.length) :
    Int :=
  ∑ i, ∑ j, (matrix.elementAt i j).toInt * point (x.get (i.cast rows_eq)) *
    point (y.get (j.cast cols_eq))

/-- The terms of a bilinear form add up to its double sum. -/
theorem Below.sum_bilinearTerms (matrix : Below ScalarMatrix (.integer width))
    (rows_eq : matrix.value.rows = x.length) (cols_eq : matrix.value.cols = y.length)
    (point : Variable → Int) :
    ((matrix.bilinearTerms x y rows_eq cols_eq).map (QuadraticTerm.value point)).sum =
      bilinearValue point matrix.value x y rows_eq cols_eq := by
  rw [bilinearTerms, List.map_flatten, List.sum_flatten, List.map_map, List.map_ofFn,
    List.sum_ofFn, bilinearValue]
  refine Finset.sum_congr rfl fun i _ => ?_
  rw [Function.comp_apply, Function.comp_apply, List.map_ofFn, List.sum_ofFn]
  refine Finset.sum_congr rfl fun j _ => ?_
  rw [Function.comp_apply, QuadraticTerm.value, Scalar.toInt_widen]

/-- A bilinear form has a result for every shape. -/
theorem QuadraticFunction.setBilinear_eq_ok (dest : QuadraticFunction T)
    {matrix : Below ScalarMatrix T} (rows_eq : matrix.value.rows = x.length)
    (cols_eq : matrix.value.cols = y.length) :
    dest.setBilinear matrix x y = .ok ⟨matrix.bilinearTerms x y rows_eq cols_eq, .zero⟩ := by
  rw [setBilinear_eq, checkLength_of_eq rows_eq, ok_bind, checkLength_of_eq cols_eq, ok_bind,
    mapM_lift, matrix.mapM_bilinearTerm rows_eq cols_eq]
  rfl

end DegreeTwo
