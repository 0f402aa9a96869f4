import DegreeTwo.Proofs.Conversion.Operands
import DegreeTwo.Proofs.Overwriting
import DegreeTwo.Proofs.Value.Rows

/-!
# Converted lists, columns and matrices

The operations on lists and matrices pass their elements on to the operations on single operands, so
each element may be converted beforehand, and the matrix too.
-/

namespace DegreeTwo

variable {T : ScalarType}

/-! ## Lists of factors -/

/-- The second lists are the first ones, possibly with elements converted. -/
inductive AffineFactors.MayConvert : AffineFactors T → AffineFactors T → Prop
  | numberTimes {numbers others : List (Below Scalar T)} {x y : List (AffineOperand T)}
      (left : List.Forall₂ Below.MayConvert numbers others)
      (right : List.Forall₂ AffineOperand.MayConvert x y) :
      MayConvert (.numberTimes numbers x) (.numberTimes others y)
  | factorTimes {x y : List (Factor T)} {numbers others : List (Below Scalar T)}
      (left : List.Forall₂ Factor.MayConvert x y)
      (right : List.Forall₂ Below.MayConvert numbers others) :
      MayConvert (.factorTimes x numbers) (.factorTimes y others)

/-- The second lists are the first ones, possibly with elements converted. -/
inductive QuadraticFactors.MayConvert : QuadraticFactors T → QuadraticFactors T → Prop
  | numberTimes {numbers others : List (Below Scalar T)} {x y : List (QuadraticOperand T)}
      (left : List.Forall₂ Below.MayConvert numbers others)
      (right : List.Forall₂ QuadraticOperand.MayConvert x y) :
      MayConvert (.numberTimes numbers x) (.numberTimes others y)
  | factorTimes {x y : List (Factor T)} {u v : List (AffineOperand T)}
      (left : List.Forall₂ Factor.MayConvert x y)
      (right : List.Forall₂ AffineOperand.MayConvert u v) :
      MayConvert (.factorTimes x u) (.factorTimes y v)
  | termTimes {x y : List (Below QuadraticTerm T)} {numbers others : List (Below Scalar T)}
      (left : List.Forall₂ Below.MayConvert x y)
      (right : List.Forall₂ Below.MayConvert numbers others) :
      MayConvert (.termTimes x numbers) (.termTimes y others)
  | functionTimes {x y : List (Below QuadraticFunction T)} {numbers others : List (Below Scalar T)}
      (left : List.Forall₂ Below.MayConvert x y)
      (right : List.Forall₂ Below.MayConvert numbers others) :
      MayConvert (.functionTimes x numbers) (.functionTimes y others)

/-- The second lists are the first ones, possibly with elements converted. -/
inductive TermFactors.MayConvert : TermFactors T → TermFactors T → Prop
  | numberVariable {numbers others : List (Below Scalar T)}
      (left : List.Forall₂ Below.MayConvert numbers others) (vars : List Variable) :
      MayConvert (.numberVariable numbers vars) (.numberVariable others vars)
  | variableNumber (vars : List Variable) {numbers others : List (Below Scalar T)}
      (right : List.Forall₂ Below.MayConvert numbers others) :
      MayConvert (.variableNumber vars numbers) (.variableNumber vars others)
  | numberTerm {numbers others : List (Below Scalar T)} {x y : List (Below LinearTerm T)}
      (left : List.Forall₂ Below.MayConvert numbers others)
      (right : List.Forall₂ Below.MayConvert x y) :
      MayConvert (.numberTerm numbers x) (.numberTerm others y)
  | termNumber {x y : List (Below LinearTerm T)} {numbers others : List (Below Scalar T)}
      (left : List.Forall₂ Below.MayConvert x y)
      (right : List.Forall₂ Below.MayConvert numbers others) :
      MayConvert (.termNumber x numbers) (.termNumber y others)

namespace AffineFactors

theorem MayConvert.products {x y : AffineFactors T} (may : x.MayConvert y) :
    List.Forall₂ AffineProduct.MayConvert x.products y.products := by
  cases may with
  | numberTimes left right => exact forall₂_zipWith .numberTimes left right
  | factorTimes left right => exact forall₂_zipWith .factorTimes left right

theorem MayConvert.checkLengths {x y : AffineFactors T} (may : x.MayConvert y) :
    x.checkLengths = y.checkLengths := by
  cases may with
  | numberTimes left right =>
      rw [AffineFactors.checkLengths, AffineFactors.checkLengths, left.length_eq, right.length_eq]
  | factorTimes left right =>
      rw [AffineFactors.checkLengths, AffineFactors.checkLengths, left.length_eq, right.length_eq]

end AffineFactors

namespace QuadraticFactors

theorem MayConvert.products {x y : QuadraticFactors T} (may : x.MayConvert y) :
    List.Forall₂ QuadraticProduct.MayConvert x.products y.products := by
  cases may with
  | numberTimes left right => exact forall₂_zipWith .numberTimes left right
  | factorTimes left right => exact forall₂_zipWith .factorTimes left right
  | termTimes left right => exact forall₂_zipWith .termTimes left right
  | functionTimes left right => exact forall₂_zipWith .functionTimes left right

theorem MayConvert.checkLengths {x y : QuadraticFactors T} (may : x.MayConvert y) :
    x.checkLengths = y.checkLengths := by
  cases may with
  | numberTimes left right | factorTimes left right | termTimes left right
  | functionTimes left right =>
      rw [QuadraticFactors.checkLengths, QuadraticFactors.checkLengths, left.length_eq,
        right.length_eq]

end QuadraticFactors

namespace TermFactors

theorem MayConvert.checkLengths {x y : TermFactors T} (may : x.MayConvert y) :
    x.checkLengths = y.checkLengths := by
  cases may with
  | numberVariable left vars =>
      rw [TermFactors.checkLengths, TermFactors.checkLengths, left.length_eq]
  | variableNumber vars right =>
      rw [TermFactors.checkLengths, TermFactors.checkLengths, right.length_eq]
  | numberTerm left right | termNumber left right =>
      rw [TermFactors.checkLengths, TermFactors.checkLengths, left.length_eq, right.length_eq]

theorem MayConvert.length {x y : TermFactors T} (may : x.MayConvert y) : x.length = y.length := by
  cases may with
  | numberVariable left vars => exact left.length_eq
  | variableNumber vars right => rfl
  | numberTerm left right => exact left.length_eq
  | termNumber left right => exact left.length_eq

theorem numberTimesTerm_converted {number other : Below Scalar T} {x y : Below LinearTerm T}
    (left : number.MayConvert other) (right : x.MayConvert y) :
    numberTimesTerm number x = numberTimesTerm other y := by
  rw [numberTimesTerm, numberTimesTerm, left.scalar, right.linearTerm, right.var]

theorem MayConvert.terms {x y : TermFactors T} (may : x.MayConvert y) : x.terms = y.terms := by
  cases may with
  | @numberVariable numbers others left vars =>
      have related : List.Forall₂ Eq
          (List.zipWith (fun number var => LinearTerm.mk number.scalar var) numbers vars)
          (List.zipWith (fun number var => LinearTerm.mk number.scalar var) others vars) :=
        forall₂_zipWith_right (fun may var => congrArg (LinearTerm.mk · var) may.scalar) left vars
      rw [List.forall₂_eq_eq_eq] at related
      exact congrArg pure related
  | @variableNumber vars numbers others right =>
      have related : List.Forall₂ Eq
          (List.zipWith (fun var number => LinearTerm.mk (Below.scalar number) var) vars numbers)
          (List.zipWith (fun var number => LinearTerm.mk (Below.scalar number) var) vars others) :=
        forall₂_zipWith_left (fun var _ _ may => congrArg (LinearTerm.mk · var) may.scalar) vars
          right
      rw [List.forall₂_eq_eq_eq] at related
      exact congrArg pure related
  | numberTerm left right =>
      apply mapM_eq_of_forall₂ (forall₂_zipWith _ left right)
      exact fun left right => numberTimesTerm_converted left right
  | termNumber left right =>
      apply mapM_eq_of_forall₂ (forall₂_zipWith _ left right)
      intro x y number other left right
      rw [left.linearTerm, right.scalar]

end TermFactors

theorem AffineFunction.dot_converted (dest : AffineFunction T) {x y : AffineFactors T}
    (may : x.MayConvert y) : dest.dot x = dest.dot y := by
  have same_sum : zero.addProducts x.products = zero.addProducts y.products :=
    foldlM_eq_of_forall₂ (may.products.imp fun _ _ may sum => sum.addProduct_converted may) _
  rw [dot_eq_checked, dot_eq_checked, ← x.checkLengths_eq, ← y.checkLengths_eq, may.checkLengths,
    same_sum]

theorem AffineFunction.dotTerms_converted (dest : AffineFunction T) {x y : TermFactors T}
    (may : x.MayConvert y) : dest.dotTerms x = dest.dotTerms y := by
  rw [dotTerms_eq_checked, dotTerms_eq_checked, ← x.checkLengths_eq, ← y.checkLengths_eq,
    may.checkLengths, may.terms, may.length]

theorem QuadraticFunction.dot_converted (dest : QuadraticFunction T) {x y : QuadraticFactors T}
    (may : x.MayConvert y) : dest.dot x = dest.dot y := by
  have same_sum : zero.addProducts x.products = zero.addProducts y.products :=
    foldlM_eq_of_forall₂ (may.products.imp fun _ _ may sum => sum.addProduct_converted may) _
  rw [dot_eq_checked, dot_eq_checked, ← x.checkLengths_eq, ← y.checkLengths_eq, may.checkLengths,
    same_sum]

/-! ## Matrices -/

/-- The array with a function applied to its elements. -/
def RowMajor.map {α β : Type} (f : α → β) (array : RowMajor α) : RowMajor β :=
  ⟨array.rows, array.cols, array.elements.map f, array.rows_lt, array.cols_lt, array.size_lt,
    (List.length_map f).trans array.length_eq⟩

instance : Converts ScalarMatrix := ⟨fun h matrix => matrix.map (Scalar.widen h)⟩

theorem RowMajor.rowList_map {α β : Type} (f : α → β) (array : RowMajor α) :
    (array.map f).rowList = List.map (List.map f) <$> array.rowList := by
  have entries : ∀ i, List.ofFn ((array.map f).elementAt i) =
      (List.ofFn (array.elementAt i)).map f := by
    intro i
    rw [List.map_ofFn]
    exact congrArg List.ofFn (funext fun j => List.getElem_map f)
  rw [rowList_eq_ok, rowList_eq_ok]
  simp only [entries]
  exact congrArg Except.ok (List.map_ofFn ..).symm

theorem QuadraticFunction.setBilinear_converted (dest : QuadraticFunction T)
    {matrix other : Below ScalarMatrix T} (may : matrix.MayConvert other) (x y : List Variable) :
    dest.setBilinear matrix x y = dest.setBilinear other x y := by
  apply may.congr fun matrix => dest.setBilinear matrix x y
  intro matrix
  simp only [setBilinear_eq, Below.converted, Below.same, Converts.convert, RowMajor.map,
    List.zipIdx_map, List.mapM_map, Function.comp_def, Prod.map_fst, Prod.map_snd, id_eq,
    Scalar.widen_self]

/-! ## Columns and vectors -/

/-- The second column is the first one, possibly with elements converted. -/
inductive Column.MayConvert : Column T → Column T → Prop
  | vars (elements : List Variable) : MayConvert (.vars elements) (.vars elements)
  | terms {x y : List (Below LinearTerm T)} (may : List.Forall₂ Below.MayConvert x y) :
      MayConvert (.terms x) (.terms y)
  | functions {x y : List (Below AffineFunction T)} (may : List.Forall₂ Below.MayConvert x y) :
      MayConvert (.functions x) (.functions y)

theorem Column.MayConvert.length {x y : Column T} (may : x.MayConvert y) :
    x.length = y.length := by
  cases may with
  | vars elements => rfl
  | terms may => exact may.length_eq
  | functions may => exact may.length_eq

theorem AffineFunction.setRowProduct_converted (dest : AffineFunction T) (row : List (Scalar T))
    {x y : Column T} (may : x.MayConvert y) :
    dest.setRowProduct row x = dest.setRowProduct row y := by
  cases may with
  | vars elements => rfl
  | terms may =>
      rw [setRowProduct, setRowProduct]
      apply congrArg (· >>= _)
      apply mapM_eq_of_forall₂ (forall₂_zipWith_left _ row may)
      intro coeff x y may
      rw [may.linearTerm, may.var]
  | functions may =>
      apply foldlM_eq_of_forall₂ (forall₂_zipWith_left _ row may)
      exact fun coeff _ _ may sum => sum.addScaledFactor_converted (.function may) coeff

namespace AffineVector

theorem outcome_writePairs_converted
    {update : AffineFunction T → AffineOperand T → AffineOperand T →
      Except Fault (AffineFunction T)}
    (same : ∀ dest {x y u v}, x.MayConvert y → u.MayConvert v → update dest x u = update dest y v)
    {x y u v : List (AffineOperand T)} (left : List.Forall₂ AffineOperand.MayConvert x y)
    (right : List.Forall₂ AffineOperand.MayConvert u v) (dest : AffineVector T) :
    (writePairs update x u).outcome dest = (writePairs update y v).outcome dest := by
  have updated (dests : AffineVector T) :
      zipUpdate update dests x u = zipUpdate update dests y v := by
    rw [zipUpdate_eq_mapUpdate, zipUpdate_eq_mapUpdate]
    apply mapUpdate_eq_of_forall₂ (forall₂_zipWith _ left right)
    exact fun left right dest => same dest left right
  rw [outcome_writePairs, outcome_writePairs, left.length_eq, right.length_eq, updated]

theorem setSum_converted (dest : AffineVector T) {x y u v : List (AffineOperand T)}
    (left : List.Forall₂ AffineOperand.MayConvert x y)
    (right : List.Forall₂ AffineOperand.MayConvert u v) : dest.setSum x u = dest.setSum y v :=
  outcome_writePairs_converted AffineFunction.setSum_converted left right dest

theorem setDifference_converted (dest : AffineVector T) {x y u v : List (AffineOperand T)}
    (left : List.Forall₂ AffineOperand.MayConvert x y)
    (right : List.Forall₂ AffineOperand.MayConvert u v) :
    dest.setDifference x u = dest.setDifference y v :=
  outcome_writePairs_converted AffineFunction.setDifference_converted left right dest

theorem setMultiples_converted (dest : AffineVector T) {x y : List (AffineOperand T)}
    {number other : Below Scalar T} (left : List.Forall₂ AffineOperand.MayConvert x y)
    (right : number.MayConvert other) : dest.setMultiples x number = dest.setMultiples y other := by
  rw [setMultiples, setMultiples, setProducts, setProducts, left.length_eq]
  apply mapUpdate_eq_of_forall₂ (left.imp _)
  exact fun x y may dest => dest.clear.addProduct_converted (may.timesNumber right)

theorem setMultiplesOf_converted (dest : AffineVector T) {numbers others : List (Below Scalar T)}
    {operand other : AffineOperand T} (left : List.Forall₂ Below.MayConvert numbers others)
    (right : operand.MayConvert other) :
    dest.setMultiplesOf numbers operand = dest.setMultiplesOf others other := by
  rw [setMultiplesOf, setMultiplesOf, setProducts, setProducts, left.length_eq]
  apply mapUpdate_eq_of_forall₂ (left.imp _)
  exact fun x y may dest => dest.clear.addProduct_converted (.numberTimes may right)

theorem setConcatenation_converted (dest : AffineVector T)
    {x y : List (List (Below AffineFunction T))}
    (may : List.Forall₂ (List.Forall₂ Below.MayConvert) x y) :
    dest.setConcatenation x = dest.setConcatenation y := by
  have flattened : List.Forall₂ Below.MayConvert x.flatten y.flatten := List.rel_flatten may
  rw [setConcatenation_eq_checked, setConcatenation_eq_checked, flattened.length_eq,
    mapUpdate_eq_of_forall₂ (flattened.imp _)]
  exact fun x y may dest => congrArg pure (dest.overwrite_converted may)

theorem setMatrixProduct_converted (dest : AffineVector T) {matrix other : Below ScalarMatrix T}
    (left : matrix.MayConvert other) {x y : Column T} (right : x.MayConvert y) :
    dest.setMatrixProduct matrix x = dest.setMatrixProduct other y := by
  -- The column first: its elements meet the rows of the same matrix on both sides then.
  have same_column : dest.setMatrixProduct matrix x = dest.setMatrixProduct matrix y := by
    simp only [setMatrixProduct_eq_checked, right.length,
      AffineFunction.setRowProduct_converted _ _ right]
  rw [same_column]
  apply left.congr fun matrix => dest.setMatrixProduct matrix y
  intro matrix
  have rows : matrix.converted.value.rowList =
      List.map (List.map (Scalar.widen matrix.source_le)) <$> matrix.value.rowList :=
    matrix.value.rowList_map _
  rw [setMatrixProduct_eq_checked, setMatrixProduct_eq_checked]
  refine bind_congr fun _ => bind_congr fun _ => ?_
  rw [rows, matrix.value.rowList_eq_ok]
  apply congrArg (liftM : Except Fault (AffineVector T) → Except Failure (AffineVector T))
  refine mapUpdate_eq_of_forall₂ (List.forall₂_map_left_iff.mpr (List.forall₂_same.mpr ?_)) dest
  intro row _ element
  have widened : (row.map (Scalar.widen matrix.source_le)).map
      (Scalar.widen (ScalarType.le_refl T)) = row.map (Scalar.widen matrix.source_le) := by
    simp only [List.map_map, Function.comp_def, Scalar.widen_self]
  exact congrArg (element.setRowProduct · y) widened

end AffineVector

end DegreeTwo
