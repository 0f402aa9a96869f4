import DegreeTwo.Proofs.Multiples
import DegreeTwo.Proofs.OnlyOverflows
import DegreeTwo.Proofs.Updates
import DegreeTwo.Proofs.Value.Rows

/-!
# Arguments of wrong lengths

The operations on lists and matrices go through several lists at once and stop at the end of the
shortest one.  What makes them complete is that they compare the lengths beforehand.  They are
refused exactly if a comparison fails, and have changed nothing then; otherwise they write every
element of the destination, and look at no position outside a list.
-/

namespace DegreeTwo

variable {α β σ υ : Type} {T : ScalarType}

/-! ## Refused steps of a run -/

/-- The answers of a run: each step works on what the ones before it have left, and a fault ends the
run. -/
def answers (perform : υ → InPlace σ Unit) :
    List υ → σ → List (Except Fault (Except Error Unit × σ))
  | [], _ => []
  | update :: updates, state =>
      match (perform update).answer state with
      | .ok (answer, after) => .ok (answer, after) :: answers perform updates after
      | .error fault => [.error fault]

/-- An answer that refuses a step. -/
def IsRefusal : Except Fault (Except Error Unit × σ) → Bool
  | .ok (.error _, _) => true
  | _ => false

/-- The steps of a run that are not refused. -/
def unrefused (perform : υ → InPlace σ Unit) : List υ → σ → List υ
  | [], _ => []
  | update :: updates, state =>
      match (perform update).answer state with
      | .ok (.ok (), after) => update :: unrefused perform updates after
      | .ok (.error _, after) => unrefused perform updates after
      | .error _ => update :: updates

section Runs

variable {perform : υ → InPlace σ Unit} {update : υ} {before after : σ} {error : Error}

theorem unrefused_of_accepted (updates : List υ)
    (answered : (perform update).answer before = .ok (.ok (), after)) :
    unrefused perform (update :: updates) before = update :: unrefused perform updates after := by
  rw [unrefused, answered]

theorem unrefused_of_refused (updates : List υ)
    (answered : (perform update).answer before = .ok (.error error, after)) :
    unrefused perform (update :: updates) before = unrefused perform updates after := by
  rw [unrefused, answered]

theorem unrefused_of_faulted {fault : Fault} (updates : List υ)
    (answered : (perform update).answer before = .error fault) :
    unrefused perform (update :: updates) before = update :: updates := by
  rw [unrefused, answered]

/-- The refused steps of a run can be deleted: the answers to all other steps stay the same. -/
theorem answers_unrefused (atomic : ∀ update, InPlace.Atomic (perform update)) (updates : List υ)
    (start : σ) :
    answers perform (unrefused perform updates start) start =
      (answers perform updates start).filter fun answer => !IsRefusal answer := by
  induction updates generalizing start with
  | nil => rfl
  | cons update updates ih =>
      rcases answered : (perform update).answer start with fault | ⟨error | _, after⟩
      · rw [unrefused_of_faulted updates answered, answers, answered]
        rfl
      · -- The destination is as before, so that the next step does not notice.
        obtain rfl := atomic update start after error answered
        rw [unrefused_of_refused updates answered, ih after, answers, answered]
        rfl
      · rw [unrefused_of_accepted updates answered, answers, answers, answered]
        exact congrArg _ (ih after)

/-- Without its refused steps a run ends as it does with them. -/
theorem performAll_unrefused (atomic : ∀ update, InPlace.Atomic (perform update))
    (updates : List υ) (start : σ) :
    performAll perform (unrefused perform updates start) start =
      performAll perform updates start := by
  induction updates generalizing start with
  | nil => rfl
  | cons update updates ih =>
      rcases answered : (perform update).answer start with fault | ⟨error | _, after⟩
      · rw [unrefused_of_faulted updates answered]
      · obtain rfl := atomic update start after error answered
        rw [unrefused_of_refused updates answered, ih after, InPlace.performAll_cons,
          InPlace.leaves_of_answer answered, ok_bind]
      · rw [unrefused_of_accepted updates answered, InPlace.performAll_cons,
          InPlace.performAll_cons, InPlace.leaves_of_answer answered, ok_bind, ok_bind, ih after]

end Runs

/-- Updates whose refusals are exact and leave no trace. -/
structure ShapeChecked (checks : υ → σ → List LengthCheck) (perform : υ → InPlace σ Unit) :
    Prop where
  /-- An update is refused exactly if a check fails, with the answer of the first one that does; and
  then it has left the destination as it was. -/
  refused_iff (update : υ) (dest after : σ) (error : Error) :
    (perform update).answer dest = .ok (.error error, after) ↔
      LengthCheck.firstMismatch? (checks update dest) = some error ∧ after = dest
  /-- Without the refused steps of a run, the answers of all other steps are the same. -/
  answers_eq (updates : List υ) (start : σ) :
    answers perform (unrefused perform updates start) start =
      (answers perform updates start).filter fun answer => !IsRefusal answer
  /-- Without the refused steps, a run ends as it does with them. -/
  run_eq (updates : List υ) (start : σ) :
    performAll perform (unrefused perform updates start) start = performAll perform updates start

/-- What holds of the single updates makes the refused steps of a run superfluous. -/
theorem ShapeChecked.of_checksFirst {checks : υ → σ → List LengthCheck}
    {perform : υ → InPlace σ Unit}
    (checked : ∀ update dest, InPlace.ChecksFirst (checks update dest) (perform update) dest) :
    ShapeChecked checks perform where
  refused_iff update dest _ _ := (checked update dest).refused_iff
  answers_eq := answers_unrefused fun update => InPlace.atomic_of_checksFirst (checked update)
  run_eq := performAll_unrefused fun update => InPlace.atomic_of_checksFirst (checked update)

/-! ## The elements of a result -/

/-- The term of each pair, on its own. -/
def TermFactors.pairTerms : TermFactors T → List (Except Fault (LinearTerm T))
  | numberVariable x y => (x.zip y).map fun pair => pure ⟨pair.1.scalar, pair.2⟩
  | variableNumber x y => (x.zip y).map fun pair => pure ⟨pair.2.scalar, pair.1⟩
  | numberTerm x y => (x.zip y).map fun pair => numberTimesTerm pair.1 pair.2
  | termNumber x y => (x.zip y).map fun pair => pair.1.linearTerm.scale pair.2.scalar

namespace TermFactors

theorem terms_eq (factors : TermFactors T) : factors.terms = factors.pairTerms.mapM id := by
  cases factors with
  | numberVariable x y =>
      rw [terms, pairTerms, List.mapM_map, Function.id_comp, List.mapM_pure,
        List.map_zip_eq_zipWith]
      rfl
  | variableNumber x y =>
      rw [terms, pairTerms, List.mapM_map, Function.id_comp, List.mapM_pure,
        List.map_zip_eq_zipWith]
      rfl
  | numberTerm x y => rw [terms, pairTerms, List.mapM_map, Function.id_comp]
  | termNumber x y => rw [terms, pairTerms, List.mapM_map, Function.id_comp]

theorem length_pairTerms {factors : TermFactors T}
    (same_length : factors.length = factors.rightLength) :
    factors.pairTerms.length = factors.length := by
  cases factors with
  | numberVariable x y => exact (List.length_map _).trans (length_zip_of_eq same_length)
  | variableNumber x y => exact (List.length_map _).trans (length_zip_of_eq same_length)
  | numberTerm x y => exact (List.length_map _).trans (length_zip_of_eq same_length)
  | termNumber x y => exact (List.length_map _).trans (length_zip_of_eq same_length)

end TermFactors

namespace QuadraticFunction

/-- The terms of a bilinear form, one for each entry of the matrix. -/
def entryTerms (matrix : Below ScalarMatrix T) (x y : List Variable) :
    List (Except Fault (QuadraticTerm T)) :=
  matrix.value.elements.zipIdx.map fun element =>
    bilinearTerm matrix.value.cols x y (element.1.widen matrix.source_le) element.2

theorem length_entryTerms (matrix : Below ScalarMatrix T) (x y : List Variable) :
    (entryTerms matrix x y).length = matrix.value.elements.length :=
  (List.length_map _).trans List.length_zipIdx

end QuadraticFunction

namespace AffineVector

/-- Overwrite an element with the product of a row of a matrix and a column. -/
def setRow (matrix : Below ScalarMatrix T) (column : Column T) (dest : AffineFunction T) (i : Nat) :
    Except Fault (AffineFunction T) := do
  let row ← matrix.value.row i
  dest.setRowProduct (row.map (Scalar.widen matrix.source_le)) column

/-- Every row can be read, so it makes no difference to read all of them beforehand. -/
theorem setMatrixProduct_eq_mapUpdate (dest : AffineVector T) (matrix : Below ScalarMatrix T)
    (column : Column T) :
    dest.setMatrixProduct matrix column = (do
      checkLength .y matrix.value.rows dest.length
      checkLength .x matrix.value.cols column.length
      mapUpdate (setRow matrix column) dest (List.range matrix.value.rows)) := by
  have listed := matrix.value.rowList_eq_ok
  have row_by_row : ∀ {i row}, matrix.value.row i = .ok row → ∀ element,
      element.setRowProduct (row.map (Scalar.widen matrix.source_le)) column =
        setRow matrix column element i := by
    intro i row reads element
    rw [setRow, reads, ok_bind]
  rw [setMatrixProduct_eq_checked, listed, lift_ok, ok_bind,
    mapUpdate_eq_of_forall₂ ((mapM_eq_ok.mp listed).flip.imp fun _ _ => row_by_row) dest]

end AffineVector

/-! ## Complete results -/

/-- The outcome is put together from as many elements as the destination has.  Each of them is
computed without a look at what the destination held, and breaks off only on an overflow. -/
structure FilledBy (outcome : Except Failure β) (arrange : List α → β)
    (elements : List (Except Fault α)) (len : Nat) : Prop where
  /-- The outcome is made of the elements and of nothing else. -/
  outcome_eq : outcome = arrange <$> liftM (elements.mapM id)
  /-- There is one for each element of the destination. -/
  length_eq : elements.length = len
  /-- None of them looks at a position outside a list. -/
  only_overflows : ∀ element ∈ elements, OnlyOverflows element

theorem AffineFactors.length_products {factors : AffineFactors T}
    (same_length : factors.leftLength = factors.rightLength) :
    factors.products.length = factors.leftLength := by
  cases factors with
  | numberTimes x y => exact length_zipWith_of_eq same_length
  | factorTimes x y => exact length_zipWith_of_eq same_length

theorem QuadraticFactors.length_products {factors : QuadraticFactors T}
    (same_length : factors.leftLength = factors.rightLength) :
    factors.products.length = factors.leftLength := by
  cases factors with
  | numberTimes x y => exact length_zipWith_of_eq same_length
  | factorTimes x y => exact length_zipWith_of_eq same_length
  | termTimes x y => exact length_zipWith_of_eq same_length
  | functionTimes x y => exact length_zipWith_of_eq same_length

theorem TermFactors.pairTerms_onlyOverflows (factors : TermFactors T) :
    ∀ term ∈ factors.pairTerms, OnlyOverflows term := by
  cases factors with
  | numberVariable x y => exact List.forall_mem_map.mpr fun _ _ => .pure _
  | variableNumber x y => exact List.forall_mem_map.mpr fun _ _ => .pure _
  | numberTerm x y =>
      exact List.forall_mem_map.mpr fun _ _ =>
        (Scalar.mul_onlyOverflows _ _).bind fun _ => .pure _
  | termNumber x y => exact List.forall_mem_map.mpr fun _ _ => LinearTerm.scale_onlyOverflows _ _

theorem AffineFunction.dot_eq_addProducts (dest : AffineFunction T) {factors : AffineFactors T}
    (same_length : factors.leftLength = factors.rightLength) :
    dest.dot factors = liftM (zero.addProducts factors.products) := by
  rw [dot_eq_checked, checkLength_of_eq same_length]
  rfl

theorem QuadraticFunction.dot_eq_addProducts (dest : QuadraticFunction T)
    {factors : QuadraticFactors T} (same_length : factors.leftLength = factors.rightLength) :
    dest.dot factors = liftM (zero.addProducts factors.products) := by
  rw [dot_eq_checked, checkLength_of_eq same_length]
  rfl

theorem AffineFunction.dotTerms_filledBy (dest : AffineFunction T) {factors : TermFactors T}
    (same_length : factors.length = factors.rightLength) :
    FilledBy (dest.dotTerms factors) (fun linear => ⟨linear, .zero⟩) factors.pairTerms
      factors.length where
  outcome_eq := by
    rw [dotTerms_eq, checkLength_of_eq same_length, ok_bind, factors.terms_eq]
    rfl
  length_eq := TermFactors.length_pairTerms same_length
  only_overflows := factors.pairTerms_onlyOverflows

theorem QuadraticFunction.setBilinear_filledBy (dest : QuadraticFunction T)
    {matrix : Below ScalarMatrix T} {x y : List Variable} (rows_eq : matrix.value.rows = x.length)
    (cols_eq : matrix.value.cols = y.length) :
    FilledBy (dest.setBilinear matrix x y) (fun quadratic => ⟨quadratic, .zero⟩)
      (entryTerms matrix x y) (matrix.value.rows * matrix.value.cols) where
  outcome_eq := by
    rw [setBilinear_eq, checkLength_of_eq rows_eq, ok_bind, checkLength_of_eq cols_eq, ok_bind,
      mapM_lift, entryTerms, List.mapM_map, Function.id_comp]
    rfl
  length_eq := (length_entryTerms matrix x y).trans matrix.value.length_eq
  only_overflows := by
    rw [entryTerms, List.forall_mem_map]
    rintro ⟨coeff, position⟩ member
    have inside : position < x.length * matrix.value.cols := by
      have below := List.snd_lt_of_mem_zipIdx member
      rwa [matrix.value.length_eq, rows_eq] at below
    rw [bilinearTerm_eq_ok _ cols_eq inside]
    exact .pure _

namespace AffineVector

theorem writePairs_filledBy {update : AffineFunction T → AffineOperand T → AffineOperand T →
      Except Fault (AffineFunction T)}
    (same : ∀ dest other x y, update dest x y = update other x y)
    (only : ∀ dest x y, OnlyOverflows (update dest x y)) (dest : AffineVector T)
    {x y : List (AffineOperand T)} (same_length : x.length = y.length) :
    FilledBy ((writePairs update x y).outcome dest) id (List.zipWith (update .zero) x y)
      x.length where
  outcome_eq := by
    have filled : (resize dest x.length).length = (x.zip y).length := by
      rw [length_resize, length_zip_of_eq same_length]
    rw [outcome_writePairs, checkLength_of_eq same_length, ok_bind, zipUpdate_eq_mapUpdate,
      mapUpdate_eq_mapM (fun pair _ other => same other .zero pair.1 pair.2) filled,
      ← List.map_uncurry_zip_eq_zipWith, List.mapM_map, Function.id_comp, id_map]
    rfl
  length_eq := length_zipWith_of_eq same_length
  only_overflows := by
    rw [← List.map_uncurry_zip_eq_zipWith, List.forall_mem_map]
    exact fun pair _ => only .zero pair.1 pair.2

theorem setRow_dest {matrix : Below ScalarMatrix T} {column : Column T}
    (cols_eq : matrix.value.cols = column.length) (dest other : AffineFunction T) (i : Nat) :
    setRow matrix column dest i = setRow matrix column other i := by
  rw [setRow, setRow]
  apply bind_congr_ok
  intro row reads
  apply AffineFunction.setRowProduct_dest
  rw [List.length_map, RowMajor.length_of_row_eq_ok reads, cols_eq]

theorem setMatrixProduct_filledBy (dest : AffineVector T) {matrix : Below ScalarMatrix T}
    {column : Column T} (rows_eq : matrix.value.rows = dest.length)
    (cols_eq : matrix.value.cols = column.length) :
    FilledBy (dest.setMatrixProduct matrix column) id
      ((List.range matrix.value.rows).map (setRow matrix column .zero)) dest.length where
  outcome_eq := by
    have filled : dest.length = (List.range matrix.value.rows).length := by
      rw [List.length_range, rows_eq]
    rw [setMatrixProduct_eq_mapUpdate, checkLength_of_eq rows_eq, ok_bind,
      checkLength_of_eq cols_eq, ok_bind,
      mapUpdate_eq_mapM (fun i _ other => setRow_dest cols_eq other .zero i) filled,
      List.mapM_map, Function.id_comp, id_map]
  length_eq := by rw [List.length_map, List.length_range, rows_eq]
  only_overflows := by
    rw [List.forall_mem_map]
    intro i member
    have reads := matrix.value.row_eq_ok ⟨i, List.mem_range.mp member⟩
    rw [setRow, reads, ok_bind]
    exact AffineFunction.setRowProduct_onlyOverflows _ _ _

theorem setConcatenation_filledBy (dest : AffineVector T)
    {sources : List (List (Below AffineFunction T))}
    (filled : dest.length = sources.flatten.length) :
    FilledBy (dest.setConcatenation sources) id
      (sources.flatten.map fun source => .ok (source.value.widen source.source_le))
      dest.length where
  outcome_eq := by
    rw [setConcatenation_eq_checked, checkLength_of_eq filled, ok_bind,
      mapUpdate_eq_mapM (fun source _ other => congrArg pure (other.overwrite_dest .zero source))
        filled, List.mapM_map, Function.id_comp, id_map]
    rfl
  length_eq := by rw [List.length_map, filled]
  only_overflows := List.forall_mem_map.mpr fun _ _ => .pure _

end AffineVector

/-- In every coefficient type, updates compare the lengths of their arguments before they change
anything, so that their refusals are exact and leave no trace in memory or in a run.  Where the
lengths agree, sums take in all products, and every term, function or row of the destination is
written; no position is out of range. -/
theorem shape_errors (T : ScalarType) :
    ShapeChecked (fun update (_ : AffineFunction T) => update.checks) AffineUpdate.perform ∧
    ShapeChecked (fun update (_ : QuadraticFunction T) => update.checks)
      QuadraticUpdate.perform ∧
    ShapeChecked (fun update (dest : AffineVector T) => update.checks dest)
      VectorUpdate.perform ∧
    (∀ (dest : AffineFunction T) (factors : AffineFactors T),
      factors.leftLength = factors.rightLength →
      factors.products.length = factors.leftLength ∧
      dest.dot factors = liftM (AffineFunction.zero.addProducts factors.products) ∧
      OnlyOverflows (AffineFunction.zero.addProducts factors.products)) ∧
    (∀ (dest : QuadraticFunction T) (factors : QuadraticFactors T),
      factors.leftLength = factors.rightLength →
      factors.products.length = factors.leftLength ∧
      dest.dot factors = liftM (QuadraticFunction.zero.addProducts factors.products) ∧
      OnlyOverflows (QuadraticFunction.zero.addProducts factors.products)) ∧
    (∀ (dest : AffineFunction T) (factors : TermFactors T),
      factors.length = factors.rightLength →
      FilledBy (dest.dotTerms factors) (fun linear => ⟨linear, .zero⟩) factors.pairTerms
        factors.length) ∧
    (∀ (dest : QuadraticFunction T) (matrix : Below ScalarMatrix T) (x y : List Variable),
      matrix.value.rows = x.length → matrix.value.cols = y.length →
      FilledBy (dest.setBilinear matrix x y) (fun quadratic => ⟨quadratic, .zero⟩)
        (QuadraticFunction.entryTerms matrix x y) (matrix.value.rows * matrix.value.cols)) ∧
    (∀ (dest : AffineVector T) (x y : List (AffineOperand T)), x.length = y.length →
      FilledBy (dest.setSum x y) id (List.zipWith AffineFunction.zero.setSum x y) x.length ∧
      FilledBy (dest.setDifference x y) id (List.zipWith AffineFunction.zero.setDifference x y)
        x.length) ∧
    (∀ (dest : AffineVector T) (matrix : Below ScalarMatrix T) (column : Column T),
      matrix.value.rows = dest.length → matrix.value.cols = column.length →
      FilledBy (dest.setMatrixProduct matrix column) id
        ((List.range matrix.value.rows).map (AffineVector.setRow matrix column .zero))
        dest.length) ∧
    ∀ (dest : AffineVector T) (sources : List (List (Below AffineFunction T))),
      dest.length = sources.flatten.length →
      FilledBy (dest.setConcatenation sources) id
        (sources.flatten.map fun source => .ok (source.value.widen source.source_le))
        dest.length := by
  refine ⟨.of_checksFirst AffineUpdate.checksFirst, .of_checksFirst QuadraticUpdate.checksFirst,
    .of_checksFirst VectorUpdate.checksFirst, ?_, ?_, ?_, ?_, ?_, ?_, ?_⟩
  · exact fun dest factors same_length => ⟨factors.length_products same_length,
      dest.dot_eq_addProducts same_length, AffineFunction.zero.addProducts_onlyOverflows _⟩
  · exact fun dest factors same_length => ⟨factors.length_products same_length,
      dest.dot_eq_addProducts same_length, QuadraticFunction.zero.addProducts_onlyOverflows _⟩
  · exact fun dest factors => dest.dotTerms_filledBy
  · exact fun dest matrix x y => dest.setBilinear_filledBy
  · exact fun dest x y same_length => ⟨
      AffineVector.writePairs_filledBy AffineFunction.setSum_dest
        AffineFunction.setSum_onlyOverflows dest same_length,
      AffineVector.writePairs_filledBy AffineFunction.setDifference_dest
        AffineFunction.setDifference_onlyOverflows dest same_length⟩
  · exact fun dest matrix column => AffineVector.setMatrixProduct_filledBy dest
  · exact fun dest sources => AffineVector.setConcatenation_filledBy dest

/-- A matrix with one row and one column. -/
def oneEntry : Below ScalarMatrix (.integer .bits8) := .same (.single .minusOne)

/-- Two numbers, but only one variable. -/
def unevenFactors : TermFactors (.integer .bits8) :=
  .numberVariable [.same .one, .same .minusOne] [⟨1⟩]

/-- A run with two refused steps; the first of them fails in both of its checks. -/
def unevenRun : List (VectorUpdate (.integer .bits8)) :=
  [.matMul oneEntry (.vars []), .zeros 1, .setSum [.number (.same .one)] [],
    .matMul oneEntry (.vars [⟨1⟩])]

theorem shape_errors_uneven :
    (AffineUpdate.dotTerms unevenFactors).perform.answer (.ofVariable ⟨3⟩) =
        .ok (.error (.wrongLength .y 2 1), .ofVariable ⟨3⟩) ∧
      (QuadraticUpdate.bilinear oneEntry [] []).perform.answer (.ofVariable ⟨3⟩) =
        .ok (.error (.wrongLength .x 1 0), .ofVariable ⟨3⟩) ∧
      answers VectorUpdate.perform (unrefused VectorUpdate.perform unevenRun []) [] =
        [.ok (.ok (), [.zero]), .ok (.ok (), [⟨[⟨.minusOne, ⟨1⟩⟩], .zero⟩])] ∧
      (AffineFunction.ofVariable ⟨3⟩).dot (.numberTimes [.same .one] [.factor (.var ⟨1⟩)]) =
        .ok (.ofVariable ⟨1⟩ : AffineFunction (.integer .bits8)) ∧
      (QuadraticFunction.ofVariable ⟨3⟩).dot (.factorTimes [.var ⟨1⟩] [.factor (.var ⟨2⟩)]) =
        .ok (.ofTerm ⟨.one, ⟨1⟩, ⟨2⟩⟩ : QuadraticFunction (.integer .bits8)) ∧
      (AffineFunction.ofVariable ⟨3⟩).dotTerms (.variableNumber [⟨1⟩] [.same .one]) =
        .ok (.ofVariable ⟨1⟩ : AffineFunction (.integer .bits8)) ∧
      (QuadraticFunction.ofVariable ⟨3⟩).setBilinear oneEntry [⟨1⟩] [⟨2⟩] =
        .ok (.ofTerm ⟨.minusOne, ⟨1⟩, ⟨2⟩⟩) ∧
      AffineVector.setSum [.zero, .zero] [.factor (.var ⟨1⟩)] [.number (.same .one)] =
        .ok [(⟨[⟨.one, ⟨1⟩⟩], .one⟩ : AffineFunction (.integer .bits8))] ∧
      AffineVector.setMatrixProduct [.zero] oneEntry (.vars [⟨1⟩]) =
        .ok [.ofTerm ⟨.minusOne, ⟨1⟩⟩] ∧
      AffineVector.setConcatenation [.zero] [[], [.same (.ofVariable ⟨1⟩)]] =
        .ok [(.ofVariable ⟨1⟩ : AffineFunction (.integer .bits8))] := by
  obtain ⟨affine, quadratic, vector, dot, quadratic_dot, terms, bilinear, sums, products,
    concatenation⟩ := shape_errors (.integer .bits8)
  refine ⟨?_, ?_, ?_, ?_, ?_, ?_, ?_, ?_, ?_, ?_⟩
  · exact (affine.refused_iff (.dotTerms unevenFactors) (.ofVariable ⟨3⟩) _ _).mpr ⟨rfl, rfl⟩
  · exact (quadratic.refused_iff (.bilinear oneEntry [] []) (.ofVariable ⟨3⟩) _ _).mpr ⟨rfl, rfl⟩
  · exact (vector.answers_eq unevenRun []).trans rfl
  · exact (dot (.ofVariable ⟨3⟩) (.numberTimes [.same .one] [.factor (.var ⟨1⟩)]) rfl).2.1.trans rfl
  · exact (quadratic_dot (.ofVariable ⟨3⟩) (.factorTimes [.var ⟨1⟩] [.factor (.var ⟨2⟩)])
      rfl).2.1.trans rfl
  · exact (terms (.ofVariable ⟨3⟩) (.variableNumber [⟨1⟩] [.same .one]) rfl).outcome_eq.trans rfl
  · exact (bilinear (.ofVariable ⟨3⟩) oneEntry [⟨1⟩] [⟨2⟩] rfl rfl).outcome_eq.trans rfl
  · exact (sums [.zero, .zero] [.factor (.var ⟨1⟩)] [.number (.same .one)] rfl).1.outcome_eq.trans
      rfl
  · exact (products [.zero] oneEntry (.vars [⟨1⟩]) rfl rfl).outcome_eq.trans rfl
  · exact (concatenation [.zero] [[], [.same (.ofVariable ⟨1⟩)]] rfl).outcome_eq.trans rfl

end DegreeTwo
