import DegreeTwo.Proofs.LinearAlgebra
import DegreeTwo.Proofs.NumberProducts
import DegreeTwo.Proofs.Widening.Basic

/-!
# Products written directly

Where every product of a sum is a single term, the terms can be stored over the buffer of the
destination instead of being added one after the other, and the rows of a product with a matrix are
written in this way.  Nothing shows which way was taken: the terms have the same coefficients and
stand in the same order, the constant is zero, and the same products overflow.
-/

namespace DegreeTwo

variable {T : ScalarType} {width : IntWidth}

/-! ## Sums of single terms -/

/-- Adding the product appends one term, unless the computation of the term breaks off. -/
def AffineProduct.AddsTerm (product : AffineProduct T) (term : Except Fault (LinearTerm T)) :
    Prop :=
  ∀ dest : AffineFunction T, dest.addProduct product = dest.pushLinear <$> term

namespace AffineProduct

theorem numberTimes_var_addsTerm (number : Below Scalar T) (x : Variable) :
    (numberTimes number (.factor (.var x))).AddsTerm (pure ⟨number.scalar, x⟩) :=
  fun _ => rfl

theorem factorTimes_var_addsTerm (x : Variable) (number : Below Scalar T) :
    (factorTimes (.var x) number).AddsTerm (pure ⟨number.scalar, x⟩) :=
  fun _ => rfl

theorem factorTimes_term_addsTerm (term : Below LinearTerm T) (number : Below Scalar T) :
    (factorTimes (.term term) number).AddsTerm (term.linearTerm.scale number.scalar) :=
  fun _ => (map_eq_pure_bind _ _).symm

/-- Written directly, the term is multiplied from the left. -/
theorem numberTimes_term_addsTerm (number : Below Scalar (.integer width))
    (term : Below LinearTerm (.integer width)) :
    (numberTimes number (.factor (.term term))).AddsTerm
      (TermFactors.numberTimesTerm number term) := by
  intro dest
  have commuted :
      TermFactors.numberTimesTerm number term = term.linearTerm.scale number.scalar := by
    rw [TermFactors.numberTimesTerm, LinearTerm.scale, Scalar.mul_comm]
    rfl
  rw [commuted]
  exact factorTimes_term_addsTerm term number dest

end AffineProduct

theorem AffineProduct.AddsTerm.length_eq {product : AffineProduct T}
    {term : Except Fault (LinearTerm T)} (adds : product.AddsTerm term)
    {dest after : AffineFunction T} (succeeds : dest.addProduct product = .ok after) :
    after.linear.length = dest.linear.length + 1 := by
  rw [adds dest] at succeeds
  cases term with
  | error fault => cases succeeds
  | ok term =>
      cases succeeds
      exact List.length_append

/-- Products that add one term each append their terms in order. -/
theorem AffineFunction.addProducts_terms {α β : Type} {product : α → β → AffineProduct T}
    {term : α → β → Except Fault (LinearTerm T)} (each : ∀ x y, (product x y).AddsTerm (term x y))
    (dest : AffineFunction T) (xs : List α) (ys : List β) :
    dest.addProducts (List.zipWith product xs ys) =
      (fun terms => ⟨dest.linear ++ terms, dest.constant⟩) <$>
        (xs.zip ys).mapM fun pair => term pair.1 pair.2 := by
  induction xs generalizing dest ys with
  | nil => simp [addProducts]
  | cons x xs ih =>
      cases ys with
      | nil => simp [addProducts]
      | cons y ys =>
          rw [List.zipWith_cons_cons, addProducts, List.foldlM_cons, each x y dest,
            List.zip_cons_cons, List.mapM_cons]
          cases term x y with
          | error fault => rfl
          | ok first =>
              change (dest.pushLinear first).addProducts (List.zipWith product xs ys) = _
              rw [ih]
              cases (xs.zip ys).mapM fun pair => term pair.1 pair.2 with
              | error fault => rfl
              | ok rest => simp [pushLinear]

/-- The two lists as factors of products that are added one after the other. -/
def TermFactors.toAffine : TermFactors T → AffineFactors T
  | numberVariable x y => .numberTimes x (y.map fun var => .factor (.var var))
  | variableNumber x y => .factorTimes (x.map .var) y
  | numberTerm x y => .numberTimes x (y.map fun term => .factor (.term term))
  | termNumber x y => .factorTimes (x.map .term) y

namespace TermFactors

theorem checkLengths_toAffine (factors : TermFactors T) :
    factors.toAffine.checkLengths = checkLength .y factors.length factors.rightLength := by
  cases factors <;> simp [toAffine, AffineFactors.checkLengths, length, rightLength]

theorem addProducts_toAffine (factors : TermFactors (.integer width)) :
    AffineFunction.zero.addProducts factors.toAffine.products =
      (AffineFunction.mk · .zero) <$> factors.terms := by
  cases factors with
  | numberVariable x y =>
      rw [toAffine, AffineFactors.products, List.zipWith_map_right,
        AffineFunction.addProducts_terms AffineProduct.numberTimes_var_addsTerm, List.mapM_pure,
        List.map_zip_eq_zipWith]
      rfl
  | variableNumber x y =>
      rw [toAffine, AffineFactors.products, List.zipWith_map_left,
        AffineFunction.addProducts_terms AffineProduct.factorTimes_var_addsTerm, List.mapM_pure,
        List.map_zip_eq_zipWith]
      rfl
  | numberTerm x y =>
      rw [toAffine, AffineFactors.products, List.zipWith_map_right,
        AffineFunction.addProducts_terms AffineProduct.numberTimes_term_addsTerm]
      rfl
  | termNumber x y =>
      rw [toAffine, AffineFactors.products, List.zipWith_map_left,
        AffineFunction.addProducts_terms AffineProduct.factorTimes_term_addsTerm]
      rfl

end TermFactors

/-- Terms written over the buffer are the terms of the sum. -/
theorem AffineFunction.dotTerms_eq_dot (dest other : AffineFunction (.integer width))
    (factors : TermFactors (.integer width)) :
    dest.dotTerms factors = other.dot factors.toAffine := by
  rw [dotTerms_eq, dot_eq_checked, ← factors.toAffine.checkLengths_eq,
    factors.checkLengths_toAffine, factors.addProducts_toAffine, lift_map, map_eq_pure_bind]

/-! ## Rows of a product with a matrix -/

namespace Column

/-- The elements of a column as operands. -/
def operands : Column T → List (AffineOperand T)
  | vars elements => elements.map fun var => .factor (.var var)
  | terms elements => elements.map fun term => .factor (.term term)
  | functions elements => elements.map fun f => .factor (.function f)

theorem length_operands (column : Column T) : column.operands.length = column.length := by
  cases column <;> exact List.length_map _

/-- The sum of the products of a row of numbers and the column. -/
def sumProducts (column : Column T) (row : List (Below Scalar T)) :
    Except Fault (AffineFunction T) :=
  AffineFunction.zero.addProducts (List.zipWith .numberTimes row column.operands)

end Column

theorem AffineFunction.dot_operands (dest : AffineFunction T) {row : List (Below Scalar T)}
    {column : Column T} (fits : row.length = column.length) :
    dest.dot (.numberTimes row column.operands) = liftM (column.sumProducts row) := by
  have lengths : row.length = column.operands.length := fits.trans column.length_operands.symm
  rw [dot_eq_checked, AffineFactors.leftLength, AffineFactors.rightLength,
    checkLength_of_eq lengths, ok_bind]
  rfl

/-- The numbers in a row of a matrix. -/
def Below.rowNumbers (matrix : Below ScalarMatrix T) (i : Fin matrix.value.rows) :
    List (Below Scalar T) :=
  (List.ofFn (matrix.value.elementAt i)).map fun number => ⟨matrix.source, matrix.source_le, number⟩

@[simp]
theorem Below.length_rowNumbers (matrix : Below ScalarMatrix T) (i : Fin matrix.value.rows) :
    (matrix.rowNumbers i).length = matrix.value.cols := by
  rw [rowNumbers, List.length_map, List.length_ofFn]

namespace Column

/-- The sum of the products of a row and a column of variables has the numbers as coefficients. -/
theorem sumProducts_vars (elements : List Variable) (row : List (Below Scalar T)) :
    (vars elements).sumProducts row =
      .ok ⟨List.zipWith (fun number x => ⟨number.scalar, x⟩) row elements, .zero⟩ := by
  rw [sumProducts, operands, List.zipWith_map_right,
    AffineFunction.addProducts_terms AffineProduct.numberTimes_var_addsTerm, List.mapM_pure,
    List.map_zip_eq_zipWith]
  rfl

theorem sumProducts_terms (elements : List (Below LinearTerm (.integer width)))
    (row : List (Below Scalar (.integer width))) :
    (terms elements).sumProducts row = (AffineFunction.mk · .zero) <$>
      (row.zip elements).mapM fun pair => TermFactors.numberTimesTerm pair.1 pair.2 := by
  rw [sumProducts, operands, List.zipWith_map_right]
  exact AffineFunction.addProducts_terms AffineProduct.numberTimes_term_addsTerm .zero row elements

end Column

/-- The direct product of a row is the sum of its products. -/
theorem AffineFunction.setRowProduct_eq (dest : AffineFunction (.integer width))
    {row : List (Below Scalar (.integer width))} {column : Column (.integer width)}
    (fits : row.length = column.length) :
    dest.setRowProduct (row.map Below.scalar) column = column.sumProducts row := by
  cases column with
  | vars elements =>
      have filled : (List.zipWith (fun number x =>
          (⟨number.scalar, x⟩ : LinearTerm (.integer width))) row elements).length =
            (row.map Below.scalar).length := by
        rw [List.length_map]
        exact length_zipWith_of_eq fits
      rw [setRowProduct, List.zipWith_map_left, storeLinear_eq filled, Column.sumProducts_vars]
      rfl
  | terms elements =>
      rw [setRowProduct, List.zip_map_left, List.mapM_map, Column.sumProducts_terms,
        map_eq_pure_bind]
      apply bind_congr_ok
      intro terms mapped
      have filled : terms.length = (row.map Below.scalar).length := by
        rw [length_of_mapM_eq_ok mapped, List.length_map]
        exact length_zip_of_eq fits
      rw [storeLinear_eq filled]
  | functions elements =>
      rw [setRowProduct, List.zip_map_left, List.foldlM_map, Column.sumProducts, Column.operands,
        List.zipWith_map_right, addProducts, ← List.map_uncurry_zip_eq_zipWith, List.foldlM_map]
      rfl

namespace AffineVector

/-- The rows of a product with a matrix are the sums of the products of its rows. -/
theorem setMatrixProduct_eq (dest : AffineVector (.integer width))
    (matrix : Below ScalarMatrix (.integer width)) (column : Column (.integer width)) :
    dest.setMatrixProduct matrix column = (do
      checkLength .y matrix.value.rows dest.length
      checkLength .x matrix.value.cols column.length
      liftM ((List.ofFn fun i => column.sumProducts (matrix.rowNumbers i)).mapM id)) := by
  rw [setMatrixProduct_eq_checked]
  apply bind_congr_ok
  intro _ rows_checked
  apply bind_congr_ok
  intro _ cols_checked
  have rows_eq : matrix.value.rows = dest.length := checkLength_eq_ok.mp rows_checked
  have cols_eq : matrix.value.cols = column.length := checkLength_eq_ok.mp cols_checked
  have each : ∀ row ∈ List.ofFn fun i => List.ofFn (matrix.value.elementAt i),
      ∀ element : AffineFunction (.integer width),
        element.setRowProduct (row.map (Scalar.widen matrix.source_le)) column =
          column.sumProducts (row.map fun number =>
            ⟨matrix.source, matrix.source_le, number⟩) := by
    intro row member element
    obtain ⟨i, rfl⟩ := List.mem_ofFn.mp member
    have fits : (matrix.rowNumbers i).length = column.length :=
      (matrix.length_rowNumbers i).trans cols_eq
    rw [← Below.rowNumbers, ← element.setRowProduct_eq fits, Below.rowNumbers, List.map_map]
    rfl
  have filled : dest.length = (List.ofFn fun i =>
      List.ofFn (matrix.value.elementAt i)).length := by rw [List.length_ofFn, rows_eq]
  rw [lift_eq_ok.mpr matrix.value.rowList_eq_ok, ok_bind, mapUpdate_eq_mapM each filled,
    ← Function.id_comp fun row => column.sumProducts _, ← List.mapM_map, List.map_ofFn]
  rfl

theorem setMatrixProduct_of_shape {dest : AffineVector (.integer width)}
    {matrix : Below ScalarMatrix (.integer width)} {column : Column (.integer width)}
    (rows_eq : matrix.value.rows = dest.length) (cols_eq : matrix.value.cols = column.length) :
    dest.setMatrixProduct matrix column =
      liftM ((List.ofFn fun i => column.sumProducts (matrix.rowNumbers i)).mapM id) := by
  rw [setMatrixProduct_eq, checkLength_of_eq rows_eq, ok_bind, checkLength_of_eq cols_eq, ok_bind]

/-- Columns with the same sums of products have the same product with a matrix. -/
theorem setMatrixProduct_congr {dest other : AffineVector (.integer width)}
    (same_dest : dest.length = other.length) {matrix : Below ScalarMatrix (.integer width)}
    {left right : Column (.integer width)} (same_length : left.length = right.length)
    (same : left.length < Index.limit → ∀ row : List (Below Scalar (.integer width)),
      left.sumProducts row = right.sumProducts row) :
    dest.setMatrixProduct matrix left = other.setMatrixProduct matrix right := by
  rw [setMatrixProduct_eq, setMatrixProduct_eq, same_dest, same_length]
  apply bind_congr_ok
  intro _ _
  apply bind_congr_ok
  intro _ cols_checked
  have cols_eq : matrix.value.cols = right.length := checkLength_eq_ok.mp cols_checked
  have fits : left.length < Index.limit := by
    rw [same_length, ← cols_eq]
    exact matrix.value.cols_lt
  rw [funext fun i => same fits (matrix.rowNumbers i)]

end AffineVector

/-! ## Columns with the same elements -/

/-- A number times a variable as a term has the number as its coefficient. -/
theorem TermFactors.numberTimesTerm_ofVariable {S : ScalarType} (below : S ≤ .integer width)
    (number : Below Scalar (.integer width)) (x : Variable) :
    numberTimesTerm number ⟨S, below, .ofVariable x⟩ = .ok ⟨number.scalar, x⟩ := by
  rw [numberTimesTerm, Below.linearTerm, LinearTerm.ofVariable, LinearTerm.widen, Scalar.widen_one,
    Scalar.mul_one]
  rfl

/-- A linear term as a function. -/
def Below.ofTerm (term : Below LinearTerm T) : Below AffineFunction T :=
  ⟨term.source, term.source_le, .ofTerm term.value⟩

namespace AffineFunction

/-- A function made from a term adds what the term adds, and the constant zero. -/
theorem addProduct_ofTerm {dest : AffineFunction (.integer width)}
    (number : Below Scalar (.integer width)) (term : Below LinearTerm (.integer width))
    (fits : dest.linear.length + 1 < Index.limit) :
    dest.addProduct (.numberTimes number (.factor (.function term.ofTerm))) =
      dest.addProduct (.numberTimes number (.factor (.term term))) := by
  have constant : (Factor.function term.ofTerm).constant? = some Scalar.zero :=
    congrArg some (Scalar.widen_zero term.source_le)
  rw [addProduct, addScaled, addScaledFactor_eq _ fits, addProduct, addScaled,
    addScaledFactor_eq _ fits, constant]
  simp only [QuadraticFunction.addConstants, Scalar.zero_mul, ok_bind, Scalar.add_zero]
  rfl

theorem addProducts_ofTerm {dest : AffineFunction (.integer width)}
    {row : List (Below Scalar (.integer width))} {terms : List (Below LinearTerm (.integer width))}
    (fits : dest.linear.length + terms.length < Index.limit) :
    dest.addProducts (List.zipWith (fun number term =>
        .numberTimes number (.factor (.function term.ofTerm))) row terms) =
      dest.addProducts (List.zipWith (fun number term =>
        .numberTimes number (.factor (.term term))) row terms) := by
  induction row generalizing dest terms with
  | nil => rfl
  | cons number row ih =>
      cases terms with
      | nil => rfl
      | cons term terms =>
          rw [List.length_cons] at fits
          have room : dest.linear.length + 1 < Index.limit := by omega
          rw [addProducts, addProducts, List.zipWith_cons_cons, List.zipWith_cons_cons,
            List.foldlM_cons, List.foldlM_cons, addProduct_ofTerm number term room]
          apply bind_congr_ok
          intro after added
          have after_length : after.linear.length = dest.linear.length + 1 :=
            (AffineProduct.numberTimes_term_addsTerm number term).length_eq added
          apply ih
          omega

end AffineFunction

namespace Column

/-- Variables may be given as terms with coefficient one. -/
theorem sumProducts_ofVariable {S : ScalarType} (below : S ≤ .integer width) (xs : List Variable)
    (row : List (Below Scalar (.integer width))) :
    (terms (xs.map fun x => ⟨S, below, .ofVariable x⟩)).sumProducts row =
      (vars xs).sumProducts row := by
  have products : (row.zip xs).mapM (fun pair =>
      TermFactors.numberTimesTerm pair.1 ⟨S, below, .ofVariable pair.2⟩) =
        .ok (List.zipWith (fun number x => ⟨number.scalar, x⟩) row xs) := by
    simp only [TermFactors.numberTimesTerm_ofVariable]
    exact List.mapM_pure.trans (congrArg _ List.map_zip_eq_zipWith)
  rw [sumProducts_terms, sumProducts_vars, List.zip_map_right, List.mapM_map]
  exact congrArg _ products

/-- Terms may be given as functions. -/
theorem sumProducts_ofTerm {elements : List (Below LinearTerm (.integer width))}
    (fits : elements.length < Index.limit) (row : List (Below Scalar (.integer width))) :
    (functions (elements.map Below.ofTerm)).sumProducts row =
      (terms elements).sumProducts row := by
  have room : (AffineFunction.zero : AffineFunction (.integer width)).linear.length +
      elements.length < Index.limit := by simpa [AffineFunction.zero] using fits
  rw [sumProducts, sumProducts, operands, operands, List.map_map, List.zipWith_map_right,
    List.zipWith_map_right]
  exact AffineFunction.addProducts_ofTerm room

end Column

/-- Writing products directly has the outcome of adding them one after the other: for sums of single
terms, and for every row of a product with a matrix, which breaks off exactly if the sum of one of
its rows does.  Neither the old destination shows in the result, nor whether a column was given by
variables, by terms or by functions. -/
theorem direct_products_agree (width : IntWidth) :
    (∀ (dest other : AffineFunction (.integer width)) (factors : TermFactors (.integer width)),
      dest.dotTerms factors = other.dot factors.toAffine) ∧
    (∀ (dest : AffineVector (.integer width)) (other : AffineFunction (.integer width))
      (matrix : Below ScalarMatrix (.integer width)) (column : Column (.integer width)),
      matrix.value.rows = dest.length → matrix.value.cols = column.length →
      (∀ after, dest.setMatrixProduct matrix column = .ok after ↔
        ∃ length_eq : matrix.value.rows = after.length, ∀ i,
          other.dot (.numberTimes (matrix.rowNumbers i) column.operands) =
            .ok (after.get (i.cast length_eq))) ∧
      ((∃ fault, dest.setMatrixProduct matrix column = .error (.faulted fault)) ↔
        ∃ i fault, other.dot (.numberTimes (matrix.rowNumbers i) column.operands) =
          .error (.faulted fault))) ∧
    ∀ (dest other : AffineVector (.integer width)) (matrix : Below ScalarMatrix (.integer width)),
      dest.length = other.length →
      (∀ {S : ScalarType} (below : S ≤ .integer width) (xs : List Variable),
        dest.setMatrixProduct matrix (.terms (xs.map fun x => ⟨S, below, .ofVariable x⟩)) =
          other.setMatrixProduct matrix (.vars xs) ∧
        dest.setMatrixProduct matrix (.functions (xs.map fun x => ⟨S, below, .ofVariable x⟩)) =
          other.setMatrixProduct matrix (.vars xs)) ∧
      ∀ terms : List (Below LinearTerm (.integer width)),
        dest.setMatrixProduct matrix (.functions (terms.map Below.ofTerm)) =
          other.setMatrixProduct matrix (.terms terms) := by
  refine ⟨fun dest other factors => dest.dotTerms_eq_dot other factors, ?_, ?_⟩
  · intro dest other matrix column rows_eq cols_eq
    have row_dot : ∀ i, other.dot (.numberTimes (matrix.rowNumbers i) column.operands) =
        liftM (column.sumProducts (matrix.rowNumbers i)) := fun i =>
      other.dot_operands ((matrix.length_rowNumbers i).trans cols_eq)
    rw [AffineVector.setMatrixProduct_of_shape rows_eq cols_eq]
    simp only [row_dot, lift_eq_ok, lift_eq_faulted]
    constructor
    · exact fun after => mapM_ofFn_eq_ok
    · rw [exists_mapM_eq_error]
      simp
  · intro dest other matrix same_dest
    refine ⟨fun {S} below xs => ⟨?_, ?_⟩, fun terms => ?_⟩
    · apply AffineVector.setMatrixProduct_congr same_dest
      · simp [Column.length]
      · exact fun _ row => Column.sumProducts_ofVariable below xs row
    · apply AffineVector.setMatrixProduct_congr same_dest
      · simp [Column.length]
      · intro fits row
        rw [← Column.sumProducts_ofVariable below xs row, ← Column.sumProducts_ofTerm, List.map_map]
        · rfl
        · simpa [Column.length] using fits
    · apply AffineVector.setMatrixProduct_congr same_dest
      · simp [Column.length]
      · intro fits row
        exact Column.sumProducts_ofTerm (by simpa [Column.length] using fits) row

/-- A matrix without columns. -/
def RowMajor.withoutColumns {α : Type} (rows : Nat) (rows_lt : rows < Index.limit) : RowMajor α :=
  ⟨rows, 0, [], rows_lt, Nat.zero_lt_of_lt rows_lt, Nat.zero_lt_of_lt rows_lt, rfl⟩

/-- The terms `x1`, `x2` and `10000 * x3`. -/
def steepTerms : List (Below LinearTerm (.integer .bits16)) :=
  [.same (.ofVariable ⟨1⟩), .same (.ofVariable ⟨2⟩), .same ⟨⟨10000, by decide, by decide⟩, ⟨3⟩⟩]

/-- The vector of two functions `x9 - 1`. -/
def usedVector : AffineVector (.integer .bits16) :=
  [⟨[.ofVariable ⟨9⟩], .minusOne⟩, ⟨[.ofVariable ⟨9⟩], .minusOne⟩]

theorem direct_products_agree_steep :
    (∃ fault, usedVector.setMatrixProduct ⟨.integer .bits8, by decide, wideMatrix⟩
      (.terms steepTerms) = .error (.faulted fault)) ∧
    usedVector.setMatrixProduct ⟨.integer .bits8, by decide, .withoutColumns 2 (by decide)⟩
      (.vars []) = .ok [.zero, .zero] ∧
    usedVector.setMatrixProduct ⟨.integer .bits8, by decide, wideMatrix⟩
        (.functions ([⟨1⟩, ⟨1⟩, ⟨2⟩].map fun x => ⟨.integer .bits8, by decide, .ofVariable x⟩)) =
      .ok [⟨[⟨.one, ⟨1⟩⟩, ⟨.minusOne, ⟨1⟩⟩, ⟨.zero, ⟨2⟩⟩], .zero⟩,
        ⟨[⟨.minusOne, ⟨1⟩⟩, ⟨.one, ⟨1⟩⟩, ⟨⟨4, by decide, by decide⟩, ⟨2⟩⟩], .zero⟩] := by
  obtain ⟨-, rows, columns⟩ := direct_products_agree .bits16
  have narrow : ScalarType.integer .bits8 ≤ .integer .bits16 := by decide
  refine ⟨?_, ?_, ?_⟩
  · -- The first row does not overflow, but the second one does.
    have second_row := rows usedVector .zero ⟨.integer .bits8, narrow, wideMatrix⟩
      (.terms steepTerms) rfl rfl
    exact second_row.2.mpr ⟨⟨1, Nat.one_lt_two⟩, .overflow .multiply, rfl⟩
  · have no_columns := rows usedVector .zero
      ⟨.integer .bits8, narrow, .withoutColumns 2 (by decide)⟩ (.vars []) rfl rfl
    exact (no_columns.1 [.zero, .zero]).mpr ⟨rfl, Fin.forall_fin_two.mpr ⟨rfl, rfl⟩⟩
  · have from_variables := (columns usedVector [.zero, .zero]
      ⟨.integer .bits8, narrow, wideMatrix⟩ rfl).1 narrow [⟨1⟩, ⟨1⟩, ⟨2⟩]
    exact from_variables.2.trans rfl

end DegreeTwo
