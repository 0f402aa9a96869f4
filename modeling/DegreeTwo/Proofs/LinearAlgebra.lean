import DegreeTwo.Proofs.Overwriting
import DegreeTwo.Proofs.Value.Bilinear
import DegreeTwo.Proofs.Value.Quadratic
import DegreeTwo.Proofs.Value.Rows

/-!
# Arrays as linear algebra

On arguments of matching shape the operations on lists and matrices leave what their names say:
element by element the sums, differences and multiples, the product of a matrix and a column, the
concatenation, and the values of inner products and bilinear forms.  They work for every shape,
lists without elements and matrices without rows or columns among them.
-/

namespace DegreeTwo

/-- Unless an integer overflows, the computation returns a result with the property. -/
def Delivers {α : Type} (computation : Except Failure α) (property : α → Prop) : Prop :=
  (∀ operation, computation ≠ .error (.faulted (.overflow operation))) →
    ∃ result, computation = .ok result ∧ property result

theorem Yields.delivers {α : Type} {computation : Except Fault α} {property : α → Prop}
    (yields : Yields computation property) : Delivers (liftM computation) property := by
  intro no_overflow
  have no_fault : ∀ operation, computation ≠ .error (.overflow operation) := by
    rintro operation rfl
    exact no_overflow operation rfl
  obtain ⟨result, succeeds, holds⟩ := yields.exists_ok no_fault
  exact ⟨result, lift_eq_ok.mpr succeeds, holds⟩

variable {T : ScalarType} {width : IntWidth} {α β : Type}

theorem AffineOperand.value_timesNumber (point : Variable → Int) (operand : AffineOperand T)
    (number : Below Scalar T) :
    (operand.timesNumber number).value point = operand.value point * number.value.toInt := by
  cases operand <;> rfl

/-! ## Element by element -/

namespace AffineVector

/-- The vector has one element for each position, with the given value at every point. -/
def Evaluates {n : Nat} (vector : AffineVector T) (values : Fin n → (Variable → Int) → Int) :
    Prop :=
  ∃ length_eq : n = vector.length,
    ∀ i point, (vector.get (i.cast length_eq)).value point = values i point

/-- Updates that leave a value for each position leave a vector of these values. -/
theorem mapUpdate_yields {update : AffineFunction T → α → Except Fault (AffineFunction T)} {n : Nat}
    {input : Fin n → α} {values : Fin n → (Variable → Int) → Int}
    (each : ∀ i dest, Yields (update dest (input i)) fun after =>
      ∀ point, after.value point = values i point)
    {dests : AffineVector T} (filled : dests.length = n) :
    Yields (mapUpdate update dests (List.ofFn input)) fun after => after.Evaluates values := by
  induction n generalizing dests with
  | zero =>
      obtain rfl := List.eq_nil_of_length_eq_zero filled
      exact .pure ⟨rfl, fun i => i.elim0⟩
  | succ n ih =>
      obtain ⟨dest, dests, rfl⟩ := List.exists_cons_of_length_eq_add_one filled
      rw [List.ofFn_succ, mapUpdate]
      apply (each 0 dest).bind
      intro first first_value
      apply (ih (fun i => each i.succ) (Nat.succ_inj.mp filled)).bind
      rintro rest ⟨length_eq, rest_values⟩
      exact .pure ⟨congrArg Nat.succ length_eq, Fin.cases first_value rest_values⟩

theorem mapUpdate_pure (result : α → AffineFunction T) {dests : AffineVector T} {xs : List α}
    (filled : dests.length = xs.length) :
    mapUpdate (fun _ x => pure (result x)) dests xs = .ok (xs.map result) := by
  calc
    mapUpdate (fun _ x => pure (result x)) dests xs = xs.mapM fun x => pure (result x) := by
      apply mapUpdate_eq_mapM _ filled
      intro x _ dest
      rfl
    _ = .ok (xs.map result) := List.mapM_pure

/-- Overwriting a destination from the pairs of two lists. -/
theorem outcome_writePairs_delivers
    {update : AffineFunction (.integer width) → AffineOperand (.integer width) →
      AffineOperand (.integer width) → Except Fault (AffineFunction (.integer width))}
    {value : AffineOperand (.integer width) → AffineOperand (.integer width) →
      (Variable → Int) → Int}
    (each : ∀ dest x y, Yields (update dest x y) fun after =>
      ∀ point, after.value point = value x y point)
    (dest : AffineVector (.integer width)) {x y : List (AffineOperand (.integer width))}
    (same_length : x.length = y.length) :
    Delivers ((writePairs update x y).outcome dest) fun after =>
      after.Evaluates fun i => value (x.get i) (y.get (i.cast same_length)) := by
  have pairs : x.zip y = List.ofFn fun i => (x.get i, y.get (i.cast same_length)) := by
    apply List.ext_getElem
    · simp [same_length]
    · intro i _ _
      simp
  have updated : Yields (zipUpdate update (resize dest x.length) x y) fun after =>
      after.Evaluates fun i => value (x.get i) (y.get (i.cast same_length)) := by
    rw [zipUpdate_eq_mapUpdate, pairs]
    exact mapUpdate_yields (fun i element => each element (x.get i) (y.get (i.cast same_length)))
      (length_resize dest _)
  rw [outcome_writePairs, checkLength_of_eq same_length, ok_bind]
  exact updated.delivers

theorem setSum_delivers (dest : AffineVector (.integer width))
    {x y : List (AffineOperand (.integer width))} (same_length : x.length = y.length) :
    Delivers (dest.setSum x y) fun after => after.Evaluates fun i point =>
      (x.get i).value point + (y.get (i.cast same_length)).value point :=
  outcome_writePairs_delivers AffineFunction.setSum_yields dest same_length

theorem setDifference_delivers (dest : AffineVector (.integer width))
    {x y : List (AffineOperand (.integer width))} (same_length : x.length = y.length) :
    Delivers (dest.setDifference x y) fun after => after.Evaluates fun i point =>
      (x.get i).value point - (y.get (i.cast same_length)).value point :=
  outcome_writePairs_delivers AffineFunction.setDifference_yields dest same_length

theorem setProducts_yields (product : α → AffineProduct (.integer width))
    (dest : AffineVector (.integer width)) (x : List α) :
    Yields (setProducts product dest x) fun after => after.Evaluates fun (i : Fin x.length) point =>
      (product (x.get i)).value point := by
  have listed : setProducts product dest x =
      mapUpdate (fun element value => element.setProduct (product value)) (resize dest x.length)
        (List.ofFn x.get) := by rw [List.ofFn_get, setProducts]
  rw [listed]
  refine mapUpdate_yields (fun i element => ?_) (length_resize dest _)
  exact element.setProduct_yields (product (x.get i))

theorem setMultiples_yields (dest : AffineVector (.integer width))
    (x : List (AffineOperand (.integer width))) (number : Below Scalar (.integer width)) :
    Yields (dest.setMultiples x number) fun after => after.Evaluates fun (i : Fin x.length) point =>
      (x.get i).value point * number.value.toInt := by
  simp only [← AffineOperand.value_timesNumber]
  exact setProducts_yields (fun operand => operand.timesNumber number) dest x

theorem setMultiplesOf_yields (dest : AffineVector (.integer width))
    (numbers : List (Below Scalar (.integer width))) (operand : AffineOperand (.integer width)) :
    Yields (dest.setMultiplesOf numbers operand) fun after =>
      after.Evaluates fun (i : Fin numbers.length) point =>
        (numbers.get i).value.toInt * operand.value point :=
  setProducts_yields (fun number => .numberTimes number operand) dest numbers

theorem setMatrixProduct_delivers {dest : AffineVector (.integer width)}
    {matrix : Below ScalarMatrix (.integer width)} {column : Column (.integer width)}
    (rows_eq : matrix.value.rows = dest.length) (cols_eq : matrix.value.cols = column.length) :
    Delivers (dest.setMatrixProduct matrix column) fun after => after.Evaluates fun i point =>
      ∑ j, (matrix.value.elementAt i j).toInt * column.value point (j.cast cols_eq) := by
  rw [setMatrixProduct_of_lengths rows_eq cols_eq]
  refine (mapUpdate_yields (fun i element => ?_) rows_eq.symm).delivers
  have fits : ((List.ofFn (matrix.value.elementAt i)).map
      (Scalar.widen matrix.source_le)).length = column.length := by
    rw [List.length_map, List.length_ofFn, cols_eq]
  apply (element.setRowProduct_yields fits).imp
  intro after row_value point
  rw [row_value, ← (finCongr cols_eq).sum_comp]
  refine Finset.sum_congr rfl fun j _ => ?_
  simp

theorem setConcatenation_eq_ok {dest : AffineVector T}
    {sources : List (List (Below AffineFunction T))}
    (length_eq : dest.length = sources.flatten.length) :
    dest.setConcatenation sources = .ok (sources.flatten.map fun source =>
      ⟨source.value.linear.map (LinearTerm.widen source.source_le),
        source.value.constant.widen source.source_le⟩) := by
  rw [setConcatenation_eq_checked, checkLength_of_eq length_eq, ok_bind, lift_eq_ok]
  simp only [AffineFunction.overwrite_eq]
  exact mapUpdate_pure _ length_eq

end AffineVector

/-! ## Inner products and bilinear forms -/

theorem AffineFunction.dot_delivers (dest : AffineFunction (.integer width))
    {factors : AffineFactors (.integer width)}
    (same_length : factors.leftLength = factors.rightLength) :
    Delivers (dest.dot factors) fun after => ∀ point, after.value point = factors.value point := by
  rw [dot_eq_checked, checkLength_of_eq same_length, ok_bind]
  exact (dest.sumProducts_yields factors).delivers

theorem QuadraticFunction.dot_delivers (dest : QuadraticFunction (.integer width))
    {factors : QuadraticFactors (.integer width)}
    (same_length : factors.leftLength = factors.rightLength) :
    Delivers (dest.dot factors) fun after => ∀ point, after.value point = factors.value point := by
  rw [dot_eq_checked, checkLength_of_eq same_length, ok_bind]
  exact (dest.sumProducts_yields factors).delivers

theorem QuadraticFunction.setBilinear_delivers (dest : QuadraticFunction (.integer width))
    {matrix : Below ScalarMatrix (.integer width)} {x y : List Variable}
    (rows_eq : matrix.value.rows = x.length) (cols_eq : matrix.value.cols = y.length) :
    Delivers (dest.setBilinear matrix x y) fun after => ∀ point,
      after.value point = bilinearValue point matrix.value x y rows_eq cols_eq := by
  rw [dest.setBilinear_eq_ok rows_eq cols_eq]
  intro _
  refine ⟨_, rfl, fun point => ?_⟩
  rw [value, matrix.sum_bilinearTerms]
  exact Int.add_zero _

/-- On arguments of matching shape, and unless an integer overflows, the operations on lists and
matrices compute what they are named for, whatever their destination held before. -/
theorem arrays_compute_linear_algebra (width : IntWidth) :
    (∀ (dest : AffineVector (.integer width)) (x y : List (AffineOperand (.integer width)))
      (same_length : x.length = y.length),
      Delivers (dest.setSum x y) (fun after => after.Evaluates fun (i : Fin x.length) point =>
        (x.get i).value point + (y.get (i.cast same_length)).value point) ∧
      Delivers (dest.setDifference x y) fun after =>
        after.Evaluates fun (i : Fin x.length) point =>
          (x.get i).value point - (y.get (i.cast same_length)).value point) ∧
    (∀ (dest : AffineVector (.integer width)) (x : List (AffineOperand (.integer width)))
      (number : Below Scalar (.integer width)),
      Delivers (liftM (dest.setMultiples x number)) fun after =>
        after.Evaluates fun (i : Fin x.length) point =>
          (x.get i).value point * number.value.toInt) ∧
    (∀ (dest : AffineVector (.integer width)) (numbers : List (Below Scalar (.integer width)))
      (operand : AffineOperand (.integer width)),
      Delivers (liftM (dest.setMultiplesOf numbers operand)) fun after =>
        after.Evaluates fun (i : Fin numbers.length) point =>
          (numbers.get i).value.toInt * operand.value point) ∧
    (∀ (dest : AffineVector (.integer width)) (matrix : Below ScalarMatrix (.integer width))
      (column : Column (.integer width)) (_ : matrix.value.rows = dest.length)
      (cols_eq : matrix.value.cols = column.length),
      Delivers (dest.setMatrixProduct matrix column) fun after =>
        after.Evaluates fun (i : Fin matrix.value.rows) point =>
          ∑ j, (matrix.value.elementAt i j).toInt * column.value point (j.cast cols_eq)) ∧
    (∀ (dest : AffineVector (.integer width))
      (sources : List (List (Below AffineFunction (.integer width)))),
      dest.length = sources.flatten.length →
      dest.setConcatenation sources = .ok (sources.flatten.map fun source =>
        ⟨source.value.linear.map (LinearTerm.widen source.source_le),
          source.value.constant.widen source.source_le⟩)) ∧
    (∀ (dest : AffineFunction (.integer width)) (factors : AffineFactors (.integer width)),
      factors.leftLength = factors.rightLength →
      Delivers (dest.dot factors) fun after => ∀ point,
        after.value point = factors.value point) ∧
    (∀ (dest : QuadraticFunction (.integer width)) (factors : QuadraticFactors (.integer width)),
      factors.leftLength = factors.rightLength →
      Delivers (dest.dot factors) fun after => ∀ point,
        after.value point = factors.value point) ∧
    ∀ (dest : QuadraticFunction (.integer width)) (matrix : Below ScalarMatrix (.integer width))
      (x y : List Variable) (rows_eq : matrix.value.rows = x.length)
      (cols_eq : matrix.value.cols = y.length),
      Delivers (dest.setBilinear matrix x y) fun after => ∀ point,
        after.value point = bilinearValue point matrix.value x y rows_eq cols_eq := by
  refine ⟨fun dest x y same_length => ⟨?_, ?_⟩, ?_, ?_, ?_, ?_, ?_, ?_, ?_⟩
  · exact dest.setSum_delivers same_length
  · exact dest.setDifference_delivers same_length
  · exact fun dest x number => (dest.setMultiples_yields x number).delivers
  · exact fun dest numbers operand => (dest.setMultiplesOf_yields numbers operand).delivers
  · exact fun dest matrix column rows_eq cols_eq =>
      AffineVector.setMatrixProduct_delivers rows_eq cols_eq
  · exact fun dest sources length_eq => AffineVector.setConcatenation_eq_ok length_eq
  · exact fun dest factors same_length => dest.dot_delivers same_length
  · exact fun dest factors same_length => dest.dot_delivers same_length
  · exact fun dest matrix x y rows_eq cols_eq => dest.setBilinear_delivers rows_eq cols_eq

/-- A number and a variable. -/
def mixedOperands : List (AffineOperand (.integer .bits8)) :=
  [.number (.same .one), .factor (.var ⟨1⟩)]

/-- A matrix with two rows and three columns. -/
def wideMatrix : ScalarMatrix (.integer .bits8) :=
  ⟨2, 3, [.one, .minusOne, .zero, .minusOne, .one, ⟨4, by decide, by decide⟩], by decide, by decide,
    by decide, rfl⟩

/-- A column of functions, one of which stands in it twice. -/
def functionColumn : Column (.integer .bits8) :=
  .functions [.same ⟨[⟨.one, ⟨1⟩⟩], .one⟩, .same ⟨[⟨.minusOne, ⟨2⟩⟩], .zero⟩,
    .same ⟨[⟨.one, ⟨1⟩⟩], .one⟩]

/-- A number times a variable and another number times a constant. -/
def numberFactors : AffineFactors (.integer .bits8) :=
  .numberTimes [.same .minusOne, .same .one] [.factor (.var ⟨1⟩), .number (.same .one)]

/-- The square of a variable. -/
def squareFactors : QuadraticFactors (.integer .bits8) :=
  .factorTimes [.var ⟨1⟩] [.factor (.var ⟨1⟩)]

theorem arrays_compute_linear_algebra_wide :
    (∃ after, AffineVector.setSum [] mixedOperands mixedOperands = .ok after ∧
      after.Evaluates fun (i : Fin 2) point =>
        (mixedOperands.get i).value point + (mixedOperands.get i).value point) ∧
    (∃ after, AffineVector.setMatrixProduct [.zero, .zero] (.same wideMatrix) functionColumn =
        .ok after ∧ after.Evaluates fun (i : Fin 2) point =>
          ∑ j : Fin 3, (wideMatrix.elementAt i j).toInt * functionColumn.value point j) ∧
    AffineVector.setConcatenation [.zero] [[], [.same ⟨[⟨.one, ⟨1⟩⟩], .zero⟩]] =
      .ok [(⟨[⟨.one, ⟨1⟩⟩], .zero⟩ : AffineFunction (.integer .bits8))] ∧
    (∃ after, AffineFunction.zero.dot numberFactors = .ok after ∧
      ∀ point, after.value point = numberFactors.value point) ∧
    (∃ after, QuadraticFunction.zero.dot squareFactors = .ok after ∧
      ∀ point, after.value point = squareFactors.value point) ∧
    ∃ after, QuadraticFunction.zero.setBilinear (.same wideMatrix) [⟨1⟩, ⟨2⟩] [⟨2⟩, ⟨2⟩, ⟨3⟩] =
        .ok after ∧ ∀ point, after.value point =
          bilinearValue point wideMatrix [⟨1⟩, ⟨2⟩] [⟨2⟩, ⟨2⟩, ⟨3⟩] rfl rfl := by
  obtain ⟨sums, -, -, products, concatenation, dot, quadratic_dot, bilinear⟩ :=
    arrays_compute_linear_algebra .bits8
  refine ⟨?_, ?_, ?_, ?_, ?_, ?_⟩
  · exact (sums [] mixedOperands mixedOperands rfl).1 fun operation overflow => nomatch overflow
  · exact products [.zero, .zero] (.same wideMatrix) functionColumn rfl rfl
      fun operation overflow => nomatch overflow
  · exact concatenation [.zero] [[], [.same ⟨[⟨.one, ⟨1⟩⟩], .zero⟩]] rfl
  · exact dot .zero numberFactors rfl fun operation overflow => nomatch overflow
  · exact quadratic_dot .zero squareFactors rfl fun operation overflow => nomatch overflow
  · exact bilinear .zero (.same wideMatrix) [⟨1⟩, ⟨2⟩] [⟨2⟩, ⟨2⟩, ⟨3⟩] rfl rfl
      fun operation overflow => nomatch overflow

end DegreeTwo
