import DegreeTwo.Affine.Vector
import DegreeTwo.Proofs.Value.Affine
import DegreeTwo.Proofs.Value.Bilinear

/-!
# Rows of a matrix

Every row of a matrix can be read: its positions stay in range, and the elements between them are
those of the row.  The product of a row and a column is the sum of the products of their elements,
whatever the elements of the column are.
-/

namespace DegreeTwo

/-! ## Reading rows -/

namespace RowMajor

variable {α : Type}

theorem row_eq_ok (array : RowMajor α) (i : Fin array.rows) :
    array.row i = .ok (List.ofFn (array.elementAt i)) := by
  have row_end : i * array.cols + array.cols ≤ array.elements.length := by
    rw [array.length_eq, ← Nat.succ_mul]
    exact Nat.mul_le_mul_right _ i.isLt
  have in_range : i * array.cols + array.cols < Index.limit :=
    row_end.trans_lt (array.length_eq ▸ array.size_lt)
  have start_in_range : i * array.cols < Index.limit := (Nat.le_add_right _ _).trans_lt in_range
  rw [row, if_pos i.isLt, Index.mul_eq_ok.mpr ⟨start_in_range, rfl⟩, ok_bind,
    Index.add_eq_ok.mpr ⟨in_range, rfl⟩, ok_bind, slice, if_pos ⟨Nat.le_add_right _ _, row_end⟩]
  congr 1
  apply List.ext_getElem
  · rw [List.length_drop, List.length_take, List.length_ofFn]
    omega
  · intro j _ _
    simp [elementAt]

theorem rowList_eq_ok (array : RowMajor α) :
    array.rowList = .ok (List.ofFn fun i => List.ofFn (array.elementAt i)) := by
  rw [rowList, mapM_eq_ok, List.forall₂_iff_get]
  refine ⟨by simp, fun i inside _ => ?_⟩
  rw [List.length_range] at inside
  simpa using array.row_eq_ok ⟨i, inside⟩

end RowMajor

/-- A product with a matrix updates each element of its destination from the row there. -/
theorem AffineVector.setMatrixProduct_of_lengths {T : ScalarType} {dest : AffineVector T}
    {matrix : Below ScalarMatrix T} {column : Column T} (rows_eq : matrix.value.rows = dest.length)
    (cols_eq : matrix.value.cols = column.length) :
    dest.setMatrixProduct matrix column = liftM (mapUpdate
      (fun element row => element.setRowProduct (row.map (Scalar.widen matrix.source_le)) column)
      dest (List.ofFn fun i => List.ofFn (matrix.value.elementAt i))) := by
  rw [setMatrixProduct_eq_checked, checkLength_of_eq rows_eq, ok_bind, checkLength_of_eq cols_eq,
    ok_bind, lift_eq_ok.mpr matrix.value.rowList_eq_ok, ok_bind]

/-! ## Products of a row and a column -/

/-- The product of a row and a column of variables has the numbers of the row as coefficients. -/
theorem AffineFunction.setRowProduct_vars {T : ScalarType} (dest : AffineFunction T)
    {row : List (Scalar T)} {elements : List Variable} (fits : row.length = elements.length) :
    dest.setRowProduct row (.vars elements) =
      .ok ⟨List.zipWith (fun coeff var => ⟨coeff, var⟩) row elements, .zero⟩ := by
  rw [setRowProduct, storeLinear_eq (length_zipWith_of_eq fits)]
  rfl

/-- Two lists of one length may be joined position by position. -/
theorem zipWith_eq_ofFn {α β γ : Type} (f : α → β → γ) {left : List α} {right : List β}
    (same_length : left.length = right.length) :
    List.zipWith f left right = List.ofFn fun j : Fin right.length =>
      f (left.get (j.cast same_length.symm)) (right.get j) := by
  apply List.ext_getElem
  · simp [same_length]
  · intro j _ _
    simp

/-- A sum over the pairs of two lists of one length is a sum over positions. -/
theorem sum_zipWith {α β : Type} (weight : α → β → Int) {left : List α} {right : List β}
    (same_length : left.length = right.length) :
    (List.zipWith weight left right).sum =
      ∑ j, weight (left.get (j.cast same_length.symm)) (right.get j) := by
  rw [zipWith_eq_ofFn weight same_length, List.sum_ofFn]

/-- The value of the element of a column at a position. -/
def Column.value {T : ScalarType} (point : Variable → Int) :
    (column : Column T) → Fin column.length → Int
  | .vars elements, j => point (elements.get j)
  | .terms elements, j => (elements.get j).value.value point
  | .functions elements, j => (elements.get j).value.value point

variable {width : IntWidth}

theorem AffineFunction.setRowProduct_yields (dest : AffineFunction (.integer width))
    {row : List (Scalar (.integer width))} {column : Column (.integer width)}
    (fits : row.length = column.length) :
    Yields (dest.setRowProduct row column) fun after => ∀ point,
      after.value point = ∑ j, (row.get (j.cast fits.symm)).toInt * column.value point j := by
  cases column with
  | vars elements =>
      rw [dest.setRowProduct_vars fits]
      refine .pure fun point => ?_
      rw [value, List.map_zipWith, Scalar.toInt_zero, Int.add_zero]
      exact sum_zipWith (fun coeff var => coeff.toInt * point var) fits
  | terms elements =>
      have each : ∀ pair ∈ row.zip elements, Yields (do
          let coeff ← pair.1.mul pair.2.linearTerm.coeff
          pure (⟨coeff, pair.2.value.var⟩ : LinearTerm (.integer width))) fun term => ∀ point,
            term.value point = pair.1.toInt * pair.2.value.value point := by
        intro pair _
        apply (Scalar.mul_yields _ _).bind
        intro coeff coeff_eq
        refine .pure fun point => ?_
        rw [LinearTerm.value, coeff_eq, Below.linearTerm, LinearTerm.widen, Scalar.toInt_widen,
          Int.mul_assoc, LinearTerm.value]
      apply (Yields.mapM each).bind
      intro products related
      have filled : products.length = row.length :=
        related.length_eq.symm.trans (length_zip_of_eq fits)
      refine .pure fun point => ?_
      rw [storeLinear_eq filled, value,
        sum_eq_of_forall₂ (related.imp fun _ _ equal => equal point), List.map_zip_eq_zipWith,
        Scalar.toInt_zero, Int.add_zero]
      exact sum_zipWith (fun coeff term => coeff.toInt * term.value.value point) fits
  | functions elements =>
      apply (Yields.foldlM_sum value (fun point pair => pair.1.toInt * pair.2.value.value point)
        (fun sum pair => sum.addScaledFactor_yields pair.1 (.function pair.2)) dest.clear
        (row.zip elements)).imp
      intro after added point
      rw [added, value_clear, Int.zero_add, List.map_zip_eq_zipWith]
      exact sum_zipWith (fun coeff f => coeff.toInt * f.value.value point) fits

end DegreeTwo
