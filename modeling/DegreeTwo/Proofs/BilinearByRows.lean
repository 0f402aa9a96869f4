import DegreeTwo.Proofs.DirectProducts
import DegreeTwo.Proofs.Value.Canonical

/-!
# Bilinear forms by rows

A bilinear form can be written entry by entry, or as an inner product: each variable of the left
list times the function that its row of the matrix makes of the right list.  The first way addresses
the entries by quotient and remainder of their positions, the second one appends the products of one
row after the other, and both arrive at the same quadratic terms in the same order.  The inner
product leaves a linear term with coefficient zero for each row besides, from the constant of the
function of the row.
-/

namespace DegreeTwo

variable {T : ScalarType} {width : IntWidth}

/-! ## A variable times a function -/

/-- A variable times a linear term. -/
def Variable.times (x : Variable) (term : LinearTerm T) : QuadraticTerm T :=
  ⟨term.coeff, x, term.var⟩

theorem LinearTerm.ofVariable_times (x : Variable) (term : LinearTerm (.integer width)) :
    (ofVariable x).times term = .ok (x.times term) := by
  rw [times, ofVariable, Scalar.one_mul]
  rfl

namespace QuadraticFunction

theorem appendProducts_ofVariable {buffer : List (QuadraticTerm (.integer width))} (x : Variable)
    {terms : List (LinearTerm (.integer width))}
    (fits : buffer.length + terms.length < Index.limit) :
    appendProducts buffer [.ofVariable x] terms = .ok (buffer ++ terms.map x.times) := by
  have one_row : Index.mul 1 terms.length = .ok terms.length :=
    Index.mul_eq_ok.mpr ⟨by omega, (Nat.one_mul _).symm⟩
  have row : (terms.mapM fun right => (LinearTerm.ofVariable x).times right) =
      .ok (terms.map x.times) := by
    simp only [LinearTerm.ofVariable_times]
    exact List.mapM_pure
  rw [appendProducts_eq, List.length_singleton, one_row, ok_bind, Index.add_eq_ok_of_lt fits,
    ok_bind, List.mapM_cons, row, ok_bind, List.mapM_nil]
  simp [pure, Except.pure]

/-- A variable times a function never overflows.  It appends a quadratic term for each linear term
of the function, and one linear term for the constant. -/
theorem addFactorProduct_ofVariable {dest : QuadraticFunction (.integer width)} (x : Variable)
    {f : AffineFunction (.integer width)}
    (quadratic_fits : dest.quadratic.length + f.linear.length < Index.limit)
    (linear_fits : dest.affine.linear.length + 1 < Index.limit) :
    dest.addFactorProduct (.var x) (.factor (.function (.same f))) =
      .ok ⟨dest.quadratic ++ f.linear.map x.times,
        dest.affine.linear ++ [⟨f.constant, x⟩], dest.affine.constant⟩ := by
  have scaled : appendScaled dest.affine.linear [.ofVariable x] f.linear none (some f.constant) =
      .ok (dest.affine.linear ++ [⟨f.constant, x⟩]) := by
    rw [appendScaled_left f.constant (.inl rfl) linear_fits, List.mapM_cons, List.mapM_nil,
      LinearTerm.scale_ofVariable]
    rfl
  rw [addFactorProduct, AffineOperand.terms, AffineOperand.constant?, Factor.terms_same,
    Factor.constant?_same, Factor.terms, Factor.constant?,
    appendProducts_ofVariable x quadratic_fits, ok_bind, scaled]
  rfl

/-- Variables times functions append the terms of each product in turn. -/
theorem addProducts_ofVariables {dest : QuadraticFunction (.integer width)} {xs : List Variable}
    {fs : List (AffineFunction (.integer width))} (same_length : xs.length = fs.length)
    (quadratic_fits : dest.quadratic.length + (fs.map fun f => f.linear.length).sum < Index.limit)
    (linear_fits : dest.affine.linear.length + fs.length < Index.limit) :
    dest.addProducts (List.zipWith (fun x f =>
        .factorTimes (.var x) (.factor (.function (.same f)))) xs fs) =
      .ok ⟨dest.quadratic ++ (List.zipWith (fun x f => f.linear.map x.times) xs fs).flatten,
        dest.affine.linear ++ List.zipWith (fun x f => ⟨f.constant, x⟩) xs fs,
        dest.affine.constant⟩ := by
  induction xs generalizing dest fs with
  | nil => simp [addProducts, pure, Except.pure]
  | cons x xs ih =>
      cases fs with
      | nil => simp at same_length
      | cons f fs =>
          rw [List.map_cons, List.sum_cons] at quadratic_fits
          rw [List.length_cons] at linear_fits
          have quadratic_room : dest.quadratic.length + f.linear.length < Index.limit := by omega
          have linear_room : dest.affine.linear.length + 1 < Index.limit := by omega
          rw [addProducts, List.zipWith_cons_cons, List.foldlM_cons, addProduct,
            addFactorProduct_ofVariable x quadratic_room linear_room, ok_bind, ← addProducts,
            ih (Nat.succ_inj.mp same_length)]
          · simp
          · simp only [List.length_append, List.length_map]
            omega
          · simp only [List.length_append, List.length_singleton]
            omega

end QuadraticFunction

/-! ## The rows of a matrix -/

/-- The functions that the rows of a matrix make of a list of variables. -/
def Below.rowFunctions (matrix : Below ScalarMatrix T) (y : List Variable)
    (cols_eq : matrix.value.cols = y.length) : AffineVector T :=
  List.ofFn fun i => ⟨List.ofFn fun j =>
    ⟨(matrix.value.elementAt i j).widen matrix.source_le, y.get (j.cast cols_eq)⟩, .zero⟩

/-- The product of a matrix and a column of variables has these functions as its elements. -/
theorem AffineVector.setMatrixProduct_vars {dest : AffineVector T} {matrix : Below ScalarMatrix T}
    {y : List Variable} (rows_eq : matrix.value.rows = dest.length)
    (cols_eq : matrix.value.cols = y.length) :
    dest.setMatrixProduct matrix (.vars y) = .ok (matrix.rowFunctions y cols_eq) := by
  have each : ∀ row ∈ List.ofFn fun i => List.ofFn (matrix.value.elementAt i),
      ∀ element : AffineFunction T,
        element.setRowProduct (row.map (Scalar.widen matrix.source_le)) (.vars y) =
          pure ⟨List.zipWith (fun coeff var => ⟨coeff, var⟩)
            (row.map (Scalar.widen matrix.source_le)) y, .zero⟩ := by
    intro row member element
    obtain ⟨i, rfl⟩ := List.mem_ofFn.mp member
    apply element.setRowProduct_vars
    rw [List.length_map, List.length_ofFn, cols_eq]
  have filled : dest.length =
      (List.ofFn fun i => List.ofFn (matrix.value.elementAt i)).length := by
    rw [List.length_ofFn, rows_eq]
  have row_terms : ∀ i, List.zipWith (fun coeff var => (⟨coeff, var⟩ : LinearTerm T))
      ((List.ofFn (matrix.value.elementAt i)).map (Scalar.widen matrix.source_le)) y =
        List.ofFn fun j => ⟨(matrix.value.elementAt i j).widen matrix.source_le,
          y.get (j.cast cols_eq)⟩ := by
    intro i
    apply List.ext_getElem
    · simp [cols_eq]
    · intro j _ _
      simp
  have column_length : matrix.value.cols = (Column.vars y : Column T).length := cols_eq
  rw [setMatrixProduct_of_lengths rows_eq column_length, lift_eq_ok, mapUpdate_eq_mapM each filled,
    List.mapM_pure, List.map_ofFn]
  simp only [Function.comp_def, row_terms]
  rfl

section Rows

variable {matrix : Below ScalarMatrix (.integer width)} {x y : List Variable}

/-- The products of the left variables and the terms of their rows are the terms of the form. -/
theorem Below.flatten_rowFunctions (rows_eq : matrix.value.rows = x.length)
    (cols_eq : matrix.value.cols = y.length) :
    (List.zipWith (fun x f => f.linear.map x.times) x (matrix.rowFunctions y cols_eq)).flatten =
      matrix.bilinearTerms x y rows_eq cols_eq := by
  have rows : List.zipWith (fun x f => f.linear.map x.times) x (matrix.rowFunctions y cols_eq) =
      List.ofFn fun i => List.ofFn fun j =>
        ⟨(matrix.value.elementAt i j).widen matrix.source_le, x.get (i.cast rows_eq),
          y.get (j.cast cols_eq)⟩ := by
    apply List.ext_getElem
    · simp [rowFunctions, rows_eq]
    · intro i _ _
      simp [rowFunctions, Function.comp_def, Variable.times]
  rw [rows, bilinearTerms]

theorem Below.sum_length_rowFunctions (cols_eq : matrix.value.cols = y.length) :
    ((matrix.rowFunctions y cols_eq).map fun f => f.linear.length).sum =
      matrix.value.rows * matrix.value.cols := by
  rw [rowFunctions, List.map_ofFn, List.sum_ofFn]
  simp

/-- Nothing is left of terms with coefficient zero. -/
theorem AffineFunction.pruneZeros_zeroTerms (xs : List Variable)
    (constant : Scalar (.integer width)) :
    pruneZeros ⟨xs.map (⟨.zero, ·⟩), constant⟩ = ⟨[], constant⟩ := by
  simp [pruneZeros, prune, Scalar.less_magnitude_zero]

namespace QuadraticFunction

/-- The inner product of the left variables and the functions of the rows has the terms of the form,
and a linear term with coefficient zero for each row. -/
theorem dot_rowFunctions (dest : QuadraticFunction (.integer width))
    (rows_eq : matrix.value.rows = x.length) (cols_eq : matrix.value.cols = y.length) :
    dest.dot (.factorTimes (x.map .var) ((matrix.rowFunctions y cols_eq).map fun f =>
        .factor (.function (.same f)))) =
      .ok ⟨matrix.bilinearTerms x y rows_eq cols_eq, x.map (⟨.zero, ·⟩), .zero⟩ := by
  have same_length : x.length = (matrix.rowFunctions y cols_eq).length := by
    simp [Below.rowFunctions, rows_eq]
  have quadratic_fits : (zero : QuadraticFunction (.integer width)).quadratic.length +
      ((matrix.rowFunctions y cols_eq).map fun f => f.linear.length).sum < Index.limit := by
    rw [Below.sum_length_rowFunctions]
    exact (Nat.zero_add _).trans_lt matrix.value.size_lt
  have linear_fits : (zero : QuadraticFunction (.integer width)).affine.linear.length +
      (matrix.rowFunctions y cols_eq).length < Index.limit := by
    rw [← same_length, ← rows_eq]
    exact (Nat.zero_add _).trans_lt matrix.value.rows_lt
  have constants : List.zipWith (fun x f => ⟨f.constant, x⟩) x (matrix.rowFunctions y cols_eq) =
      x.map fun x => (⟨.zero, x⟩ : LinearTerm (.integer width)) := by
    apply List.ext_getElem
    · simp [Below.rowFunctions, rows_eq]
    · intro i _ _
      simp [Below.rowFunctions]
  rw [dot_eq_checked, QuadraticFactors.leftLength, QuadraticFactors.rightLength, List.length_map,
    List.length_map, checkLength_of_eq same_length, ok_bind, QuadraticFactors.products,
    List.zipWith_map,
    addProducts_ofVariables same_length quadratic_fits linear_fits, constants,
    Below.flatten_rowFunctions rows_eq cols_eq]
  rfl

end QuadraticFunction

end Rows

/-- The inner product of a list of variables with the functions that the rows of a matrix make of
another list of variables is the bilinear form of the matrix in the two lists, up to a linear term
with coefficient zero for each row.  Both have a result for every shape, those without rows or
columns among them: every position of the form has a row and a column. -/
theorem bilinear_agrees_with_rows (width : IntWidth)
    (matrix : Below ScalarMatrix (.integer width)) (x y : List Variable)
    (rows_eq : matrix.value.rows = x.length) (cols_eq : matrix.value.cols = y.length) :
    (∀ (dest : AffineVector (.integer width)) (inner bilinear : QuadraticFunction (.integer width)),
      matrix.value.rows = dest.length →
      ∃ rows byRows byEntries,
        dest.setMatrixProduct matrix (.vars y) = .ok rows ∧
        inner.dot (.factorTimes (x.map .var) (rows.map fun f => .factor (.function (.same f)))) =
          .ok byRows ∧
        bilinear.setBilinear matrix x y = .ok byEntries ∧
        byRows = ⟨matrix.bilinearTerms x y rows_eq cols_eq, x.map (⟨.zero, ·⟩), .zero⟩ ∧
        byEntries = ⟨matrix.bilinearTerms x y rows_eq cols_eq, .zero⟩ ∧
        byRows.pruneZeros = byEntries.pruneZeros) ∧
    ∀ position < matrix.value.elements.length,
      (∃ i, Index.div position matrix.value.cols = .ok i ∧ i < x.length) ∧
      ∃ j, Index.mod position matrix.value.cols = .ok j ∧ j < y.length := by
  constructor
  · intro dest inner bilinear filled
    refine ⟨matrix.rowFunctions y cols_eq, _, _, AffineVector.setMatrixProduct_vars filled cols_eq,
      inner.dot_rowFunctions rows_eq cols_eq, bilinear.setBilinear_eq_ok rows_eq cols_eq, rfl, rfl,
      ?_⟩
    rw [QuadraticFunction.pruneZeros, QuadraticFunction.prune, ← AffineFunction.pruneZeros,
      AffineFunction.pruneZeros_zeroTerms]
    rfl
  · intro position inside
    rw [matrix.value.length_eq, rows_eq] at inside
    obtain ⟨row, remainder, below_cols⟩ := Index.divMod_of_lt inside
    exact ⟨⟨_, row⟩, _, remainder, below_cols.trans_eq cols_eq⟩

theorem bilinear_agrees_with_rows_wide :
    (∃ rows, usedVector.setMatrixProduct ⟨.integer .bits8, by decide, wideMatrix⟩
        (.vars [⟨2⟩, ⟨2⟩, ⟨3⟩]) = .ok rows ∧
      QuadraticFunction.zero.dot (.factorTimes [.var ⟨1⟩, .var ⟨2⟩]
          (rows.map fun f => .factor (.function (.same f)))) =
        .ok ⟨[⟨.one, ⟨1⟩, ⟨2⟩⟩, ⟨.minusOne, ⟨1⟩, ⟨2⟩⟩, ⟨.zero, ⟨1⟩, ⟨3⟩⟩, ⟨.minusOne, ⟨2⟩, ⟨2⟩⟩,
          ⟨.one, ⟨2⟩, ⟨2⟩⟩, ⟨⟨4, by decide, by decide⟩, ⟨2⟩, ⟨3⟩⟩],
          [⟨.zero, ⟨1⟩⟩, ⟨.zero, ⟨2⟩⟩], .zero⟩) ∧
    ∃ rows, usedVector.setMatrixProduct
        ⟨.integer .bits8, by decide, .withoutColumns 2 (by decide)⟩ (.vars []) = .ok rows ∧
      QuadraticFunction.zero.dot (.factorTimes [.var ⟨1⟩, .var ⟨2⟩]
          (rows.map fun f => .factor (.function (.same f)))) =
        .ok ⟨[], [⟨.zero, ⟨1⟩⟩, ⟨.zero, ⟨2⟩⟩], .zero⟩ := by
  have narrow : ScalarType.integer .bits8 ≤ .integer .bits16 := by decide
  constructor
  · obtain ⟨rows, byRows, -, product, dot, -, byRows_eq, -⟩ := (bilinear_agrees_with_rows .bits16
      ⟨_, narrow, wideMatrix⟩ [⟨1⟩, ⟨2⟩] [⟨2⟩, ⟨2⟩, ⟨3⟩] rfl rfl).1 usedVector .zero .zero rfl
    exact ⟨rows, product, dot.trans (congrArg Except.ok byRows_eq)⟩
  · obtain ⟨rows, byRows, -, product, dot, -, byRows_eq, -⟩ := (bilinear_agrees_with_rows .bits16
      ⟨_, narrow, .withoutColumns 2 (by decide)⟩ [⟨1⟩, ⟨2⟩] [] rfl rfl).1 usedVector .zero .zero rfl
    exact ⟨rows, product, dot.trans (congrArg Except.ok byRows_eq)⟩

end DegreeTwo
