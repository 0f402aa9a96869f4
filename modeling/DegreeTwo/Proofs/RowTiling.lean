import DegreeTwo.Proofs.BilinearByRows

/-!
# Rows tile the elements

An array exists only where its shape, as a product of natural numbers, has as many places as there
are elements.  All rows of an array can then be read; side by side they are its elements, and the
quotient and the remainder of a position by the number of columns are the row and the column of its
element.  So the products of the rows with a column and the bilinear form, which counts positions
through the whole array, find the same number at each place.
-/

namespace DegreeTwo

theorem getElem?_ofFn_val {α : Type} {n : Nat} (f : Fin n → α) (i : Fin n) :
    (List.ofFn f)[(i : Nat)]? = some (f i) := by
  rw [List.getElem?_ofFn, dif_pos i.isLt]

theorem getElem?_val {α : Type} {n : Nat} {values : List α} (i : Fin n)
    (length_eq : n = values.length) : values[(i : Nat)]? = some (values.get (i.cast length_eq)) :=
  List.getElem?_eq_getElem (length_eq ▸ i.isLt)

namespace RowMajor

variable {α : Type} {rows cols : Nat} {elements : List α}

/-! ## Arranging elements -/

/-- Elements are arranged exactly as an array of their shape, whose own bounds are those that are
checked. -/
theorem ofElements?_eq_some {array : RowMajor α} :
    ofElements? rows cols elements = .ok (some array) ↔
      array.rows = rows ∧ array.cols = cols ∧ array.elements = elements := by
  rw [ofElements?]
  constructor
  · intro arranged
    split at arranged
    · split at arranged
      · cases arranged
        exact ⟨rfl, rfl, rfl⟩
      · cases arranged
    · cases arranged
  · rintro ⟨rfl, rfl, rfl⟩
    rw [dif_pos ⟨array.rows_lt, array.cols_lt, array.size_lt⟩, dif_pos array.length_eq]

/-- The product of the sides is not reduced: where it is no machine word, there is no answer. -/
theorem ofElements?_of_overflow (too_large : Index.limit ≤ rows * cols) :
    ofElements? rows cols elements = .error (.overflow .multiply) := by
  rw [ofElements?, dif_neg fun fits => Nat.not_lt.mpr too_large fits.2.2]

theorem ofElements?_of_length_ne (rows_lt : rows < Index.limit) (cols_lt : cols < Index.limit)
    (size_lt : rows * cols < Index.limit) (length_ne : elements.length ≠ rows * cols) :
    ofElements? rows cols elements = .ok none := by
  rw [ofElements?, dif_pos ⟨rows_lt, cols_lt, size_lt⟩, dif_neg length_ne]

theorem exists_ofElements?_eq_some (rows_lt : rows < Index.limit) (cols_lt : cols < Index.limit)
    (size_lt : rows * cols < Index.limit) (length_eq : elements.length = rows * cols) :
    ∃ array, ofElements? rows cols elements = .ok (some array) :=
  ⟨⟨rows, cols, elements, rows_lt, cols_lt, size_lt, length_eq⟩,
    ofElements?_eq_some.mpr ⟨rfl, rfl, rfl⟩⟩

/-! ## Rows and positions -/

variable (array : RowMajor α)

/-- The rows, one after the other, are the elements. -/
theorem flatten_rows :
    (List.ofFn fun i => List.ofFn (array.elementAt i)).flatten = array.elements := by
  have in_order : array.elements = List.ofFn fun k : Fin (array.rows * array.cols) =>
      array.elements.get (k.cast array.length_eq.symm) :=
    (List.ofFn_get array.elements).symm.trans (List.ofFn_congr array.length_eq _)
  rw [in_order, List.ofFn_mul]
  rfl

/-- A position that an array has lies in one of its rows and in one of its columns. -/
theorem exists_row_column {k : Nat} (inside : k < array.elements.length) :
    ∃ (i : Fin array.rows) (j : Fin array.cols), k / array.cols = i ∧ k % array.cols = j ∧
      array.elementAt i j = array.elements[k] := by
  have in_shape : k < array.rows * array.cols := array.length_eq ▸ inside
  obtain ⟨⟨-, row_lt⟩, -, col_lt⟩ := Index.divMod_of_lt in_shape
  refine ⟨⟨_, row_lt⟩, ⟨_, col_lt⟩, rfl, rfl, ?_⟩
  simp only [elementAt, List.get_eq_getElem, Nat.div_add_mod']

/-- The rows of an array, read one at a time, lie side by side in its elements. -/
structure Tiled (array : RowMajor α) : Prop where
  /-- Every row can be read and has an element for each column. -/
  row_of_lt : ∀ i < array.rows, ∃ row, array.row i = .ok row ∧ row.length = array.cols
  /-- There are no other rows. -/
  row_of_le : ∀ i, array.rows ≤ i → array.row i = .error .rowOutOfRange
  /-- The rows in order are the elements. -/
  rowList_flatten : ∃ rows, array.rowList = .ok rows ∧ rows.length = array.rows ∧
    (∀ i < array.rows, ∃ row, rows[i]? = some row ∧ array.row i = .ok row) ∧
    rows.flatten = array.elements
  /-- The element at a position stands in the row that is the quotient, and in the column that is
  the remainder, of the position by the number of columns. -/
  position : ∀ k (inside : k < array.elements.length),
    array.cols ≠ 0 ∧ k / array.cols < array.rows ∧
      ∃ row, array.row (k / array.cols) = .ok row ∧
        entry row (k % array.cols) = .ok array.elements[k]

theorem tiled : array.Tiled where
  row_of_lt i inside := ⟨_, array.row_eq_ok ⟨i, inside⟩, List.length_ofFn⟩
  row_of_le i outside := if_neg (Nat.not_lt.mpr outside)
  rowList_flatten := by
    refine ⟨_, array.rowList_eq_ok, List.length_ofFn, fun i inside => ?_, array.flatten_rows⟩
    exact ⟨_, getElem?_ofFn_val _ ⟨i, inside⟩, array.row_eq_ok ⟨i, inside⟩⟩
  position k inside := by
    obtain ⟨i, j, row_eq, col_eq, element_eq⟩ := array.exists_row_column inside
    rw [row_eq, col_eq, ← element_eq]
    refine ⟨Nat.ne_zero_of_lt j.isLt, i.isLt, _, array.row_eq_ok i, ?_⟩
    rw [entry_eq_ok (List.length_ofFn.symm ▸ j.isLt), List.getElem_ofFn]

end RowMajor

/-! ## The same entry by rows and by positions -/

variable {T : ScalarType}

namespace AffineVector

/-- An update of all elements updates the one at each position from the input there. -/
theorem getElem?_of_mapUpdate_eq_ok {α : Type}
    {update : AffineFunction T → α → Except Fault (AffineFunction T)} {dests after : AffineVector T}
    {xs : List α} (updated : mapUpdate update dests xs = .ok after) {i : Nat}
    {dest : AffineFunction T} {x : α} (dest_at : dests[i]? = some dest) (x_at : xs[i]? = some x) :
    ∃ element, after[i]? = some element ∧ update dest x = .ok element := by
  induction dests generalizing xs after i with
  | nil => cases dest_at
  | cons first dests ih =>
      cases xs with
      | nil => cases x_at
      | cons input xs =>
          rw [mapUpdate] at updated
          obtain ⟨head, head_updated, updated⟩ := bind_eq_ok.mp updated
          obtain ⟨rest, rest_updated, updated⟩ := bind_eq_ok.mp updated
          cases updated
          cases i with
          | zero =>
              cases dest_at
              cases x_at
              exact ⟨head, rfl, head_updated⟩
          | succ i => exact ih rest_updated dest_at x_at

theorem lengths_of_setMatrixProduct_eq_ok {dest after : AffineVector T}
    {matrix : Below ScalarMatrix T} {column : Column T}
    (succeeds : dest.setMatrixProduct matrix column = .ok after) :
    matrix.value.rows = dest.length ∧ matrix.value.cols = column.length := by
  rw [setMatrixProduct_eq_checked] at succeeds
  obtain ⟨_, rows_checked, succeeds⟩ := bind_eq_ok.mp succeeds
  obtain ⟨_, cols_checked, succeeds⟩ := bind_eq_ok.mp succeeds
  exact ⟨checkLength_eq_ok.mp rows_checked, checkLength_eq_ok.mp cols_checked⟩

end AffineVector

/-- At a position of a matrix stands a number that products with columns find by rows, and bilinear
forms by counting positions. -/
structure Below.EntryAt (matrix : Below ScalarMatrix T) (k : Nat)
    (number : Scalar matrix.source) : Prop where
  /-- A product with any column computes its element at the quotient from the row at the quotient,
  in which the number stands at the remainder. -/
  product {dest after : AffineVector T} {column : Column T} :
    dest.setMatrixProduct matrix column = .ok after →
      ∃ row element result, matrix.value.row (k / matrix.value.cols) = .ok row ∧
        row[k % matrix.value.cols]? = some number ∧
        dest[k / matrix.value.cols]? = some element ∧
        after[k / matrix.value.cols]? = some result ∧
        element.setRowProduct (row.map (Scalar.widen matrix.source_le)) column = .ok result
  /-- A product with a column of variables shows the number with the variable at the remainder. -/
  productTerm (dest : AffineVector T) (y : List Variable) :
    matrix.value.rows = dest.length → matrix.value.cols = y.length →
      ∃ after result col, dest.setMatrixProduct matrix (.vars y) = .ok after ∧
        after[k / matrix.value.cols]? = some result ∧ y[k % matrix.value.cols]? = some col ∧
        result.linear[k % matrix.value.cols]? = some ⟨number.widen matrix.source_le, col⟩
  /-- A bilinear form shows the number with the variables at the quotient and the remainder. -/
  formTerm (dest : QuadraticFunction T) (x y : List Variable) :
    matrix.value.rows = x.length → matrix.value.cols = y.length →
      ∃ after row col, dest.setBilinear matrix x y = .ok after ∧
        x[k / matrix.value.cols]? = some row ∧ y[k % matrix.value.cols]? = some col ∧
        after.quadratic[k]? = some ⟨number.widen matrix.source_le, row, col⟩

theorem Below.getElem?_rowFunctions (matrix : Below ScalarMatrix T) {y : List Variable}
    (cols_eq : matrix.value.cols = y.length) (i : Fin matrix.value.rows) :
    (matrix.rowFunctions y cols_eq)[(i : Nat)]? = some ⟨List.ofFn fun j =>
      ⟨(matrix.value.elementAt i j).widen matrix.source_le, y.get (j.cast cols_eq)⟩, .zero⟩ :=
  getElem?_ofFn_val _ i

theorem Below.entryAt (matrix : Below ScalarMatrix T) {k : Nat}
    (inside : k < matrix.value.elements.length) :
    matrix.EntryAt k matrix.value.elements[k] := by
  obtain ⟨i, j, row_eq, col_eq, element_eq⟩ := matrix.value.exists_row_column inside
  constructor
  case product =>
    intro dest after column succeeds
    obtain ⟨rows_eq, cols_eq⟩ := AffineVector.lengths_of_setMatrixProduct_eq_ok succeeds
    rw [AffineVector.setMatrixProduct_of_lengths rows_eq cols_eq, lift_eq_ok] at succeeds
    obtain ⟨result, result_at, computed⟩ := AffineVector.getElem?_of_mapUpdate_eq_ok succeeds
      (getElem?_val i rows_eq) (getElem?_ofFn_val _ i)
    rw [row_eq, col_eq, ← element_eq]
    exact ⟨_, _, result, matrix.value.row_eq_ok i, getElem?_ofFn_val _ j, getElem?_val i rows_eq,
      result_at, computed⟩
  case productTerm =>
    intro dest y rows_eq cols_eq
    rw [row_eq, col_eq, ← element_eq]
    exact ⟨_, _, _, AffineVector.setMatrixProduct_vars rows_eq cols_eq,
      matrix.getElem?_rowFunctions cols_eq i, getElem?_val j cols_eq, getElem?_ofFn_val _ j⟩
  case formTerm =>
    intro dest x y rows_eq cols_eq
    have row_at : x[k / matrix.value.cols]? = some (x.get (i.cast rows_eq)) :=
      row_eq ▸ getElem?_val i rows_eq
    have col_at : y[k % matrix.value.cols]? = some (y.get (j.cast cols_eq)) :=
      col_eq ▸ getElem?_val j cols_eq
    refine ⟨_, _, _, dest.setBilinear_eq_ok rows_eq cols_eq, row_at, col_at, ?_⟩
    rw [matrix.bilinearTerms_eq_ofFn, List.getElem?_ofFn,
      dif_pos (matrix.value.length_eq ▸ inside), List.getD_eq_getElem?_getD, row_at,
      List.getD_eq_getElem?_getD, col_at]
    rfl

/-- Elements are arranged in a shape exactly if their number is the product of its sides, which is
never reduced.  The rows of an array, also of one without rows or columns, can all be read and tile
its elements, and a number that stands at a position of a matrix is the one that products with
columns find by rows and bilinear forms by positions. -/
theorem rows_tile_elements {α : Type} (rows cols : Nat) (elements : List α) :
    (rows < Index.limit → cols < Index.limit →
      Index.limit ≤ rows * cols ∧
        RowMajor.ofElements? rows cols elements = .error (.overflow .multiply) ∨
      rows * cols < Index.limit ∧ elements.length ≠ rows * cols ∧
        RowMajor.ofElements? rows cols elements = .ok none ∨
      rows * cols < Index.limit ∧ elements.length = rows * cols ∧
        ∃ array, RowMajor.ofElements? rows cols elements = .ok (some array)) ∧
    (∀ array, RowMajor.ofElements? rows cols elements = .ok (some array) →
      elements.length = rows * cols ∧ array.rows = rows ∧ array.cols = cols ∧
        array.elements = elements ∧ array.Tiled) ∧
    ∀ {T : ScalarType} (matrix : Below ScalarMatrix T) k
      (inside : k < matrix.value.elements.length), matrix.EntryAt k matrix.value.elements[k] := by
  refine ⟨fun rows_lt cols_lt => ?_, fun array arranged => ?_, fun matrix k => matrix.entryAt⟩
  · rcases Nat.lt_or_ge (rows * cols) Index.limit with size_lt | too_large
    · by_cases length_eq : elements.length = rows * cols
      · exact .inr (.inr ⟨size_lt, length_eq,
          RowMajor.exists_ofElements?_eq_some rows_lt cols_lt size_lt length_eq⟩)
      · exact .inr (.inl ⟨size_lt, length_eq,
          RowMajor.ofElements?_of_length_ne rows_lt cols_lt size_lt length_eq⟩)
    · exact .inl ⟨too_large, RowMajor.ofElements?_of_overflow too_large⟩
  · obtain ⟨rfl, rfl, rfl⟩ := RowMajor.ofElements?_eq_some.mp arranged
    exact ⟨array.length_eq, rfl, rfl, rfl, array.tiled⟩

theorem rows_tile_elements_wide :
    RowMajor.ofElements? 2 3 wideMatrix.elements = .ok (some wideMatrix) ∧ wideMatrix.Tiled ∧
    RowMajor.ofElements? 2 0 [] = .ok (some (.withoutColumns 2 (by decide) : RowMajor Nat)) ∧
    (.withoutColumns 2 (by decide) : RowMajor Nat).Tiled ∧
    -- The product of the sides would be zero if it were reduced.
    RowMajor.ofElements? 4294967296 4294967296 ([] : List Nat) = .error (.overflow .multiply) ∧
    Below.EntryAt (⟨.integer .bits8, by decide, wideMatrix⟩ : Below ScalarMatrix (.integer .bits16))
      5 ⟨4, by decide, by decide⟩ := by
  have wide_tiled := ((rows_tile_elements 2 3 wideMatrix.elements).2.1 wideMatrix rfl).2.2.2.2
  have empty_tiled :=
    ((rows_tile_elements 2 0 ([] : List Nat)).2.1 (.withoutColumns 2 (by decide)) rfl).2.2.2.2
  refine ⟨rfl, wide_tiled, rfl, empty_tiled, ?_, ?_⟩
  · rcases (rows_tile_elements 4294967296 4294967296 ([] : List Nat)).1 (by decide) (by decide)
      with ⟨-, overflow⟩ | ⟨size_lt, -⟩ | ⟨size_lt, -⟩
    · exact overflow
    · exact absurd size_lt (by decide)
    · exact absurd size_lt (by decide)
  · exact (rows_tile_elements 2 3 wideMatrix.elements).2.2
      ⟨.integer .bits8, by decide, wideMatrix⟩ 5 (by decide)

end DegreeTwo
