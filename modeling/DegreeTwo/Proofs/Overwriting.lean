import DegreeTwo.Proofs.Buffers
import DegreeTwo.Proofs.Updates

/-!
# Overwriting a used destination

An operation that overwrites its destination has the same outcome on every destination, in every
coefficient type: whatever an earlier update left in the buffers is gone after a later one.
-/

namespace DegreeTwo

variable {T : ScalarType}

/-! ## Operations -/

namespace AffineFunction

theorem overwrite_dest (dest other : AffineFunction T) (source : Below AffineFunction T) :
    dest.overwrite source = other.overwrite source := by
  rw [overwrite_eq, overwrite_eq]

theorem setTo_dest (dest other : AffineFunction T) (operand : AffineOperand T) :
    dest.setTo operand = other.setTo operand := by
  cases operand with
  | number number => rfl
  | factor factor =>
      cases factor with
      | var var => rfl
      | term term => rfl
      | function source => rw [setTo, setTo, overwrite_dest dest other]

theorem setSum_dest (dest other : AffineFunction T) (x y : AffineOperand T) :
    dest.setSum x y = other.setSum x y := by
  rw [setSum, setSum, setTo_dest dest other]

theorem setDifference_dest (dest other : AffineFunction T) (x y : AffineOperand T) :
    dest.setDifference x y = other.setDifference x y := by
  rw [setDifference, setDifference, setTo_dest dest other]

theorem setProduct_dest (dest other : AffineFunction T) (product : AffineProduct T) :
    dest.setProduct product = other.setProduct product := rfl

theorem dot_dest (dest other : AffineFunction T) (factors : AffineFactors T) :
    dest.dot factors = other.dot factors := by
  rw [dot_eq_checked, dot_eq_checked]

theorem dotTerms_dest (dest other : AffineFunction T) (factors : TermFactors T) :
    dest.dotTerms factors = other.dotTerms factors := by
  rw [dotTerms_eq, dotTerms_eq]

theorem setRowProduct_dest (dest other : AffineFunction T) {row : List (Scalar T)}
    {column : Column T} (fits : row.length = column.length) :
    dest.setRowProduct row column = other.setRowProduct row column := by
  cases column with
  | vars elements =>
      have filled : (List.zipWith (fun coeff var => (⟨coeff, var⟩ : LinearTerm T)) row
          elements).length = row.length := length_zipWith_of_eq fits
      rw [setRowProduct, setRowProduct, storeLinear_eq filled, storeLinear_eq filled]
  | terms elements =>
      rw [setRowProduct, setRowProduct]
      apply bind_congr_ok
      intro products mapped
      have filled : products.length = row.length :=
        (length_of_mapM_eq_ok mapped).trans (length_zip_of_eq fits)
      rw [storeLinear_eq filled, storeLinear_eq filled]
  | functions elements => rfl

end AffineFunction

namespace QuadraticFunction

theorem overwrite_dest (dest other : QuadraticFunction T) (source : Below QuadraticFunction T) :
    dest.overwrite source = other.overwrite source := by
  rw [overwrite_eq, overwrite_eq]

theorem setTo_dest (dest other : QuadraticFunction T) (operand : QuadraticOperand T) :
    dest.setTo operand = other.setTo operand := by
  cases operand with
  | affine operand =>
      cases operand with
      | number number => rfl
      | factor factor => rw [setTo, setTo, AffineFunction.setTo_dest dest.affine other.affine]
  | term term => rfl
  | function source => rw [setTo, setTo, overwrite_dest dest other]

theorem setSum_dest (dest other : QuadraticFunction T) (x y : QuadraticOperand T) :
    dest.setSum x y = other.setSum x y := by
  rw [setSum, setSum, setTo_dest dest other]

theorem setDifference_dest (dest other : QuadraticFunction T) (x y : QuadraticOperand T) :
    dest.setDifference x y = other.setDifference x y := by
  rw [setDifference, setDifference, setTo_dest dest other]

theorem setProduct_dest (dest other : QuadraticFunction T) (product : QuadraticProduct T) :
    dest.setProduct product = other.setProduct product := rfl

theorem dot_dest (dest other : QuadraticFunction T) (factors : QuadraticFactors T) :
    dest.dot factors = other.dot factors := by
  rw [dot_eq_checked, dot_eq_checked]

theorem setBilinear_dest (dest other : QuadraticFunction T) (matrix : Below ScalarMatrix T)
    (x y : List Variable) : dest.setBilinear matrix x y = other.setBilinear matrix x y := by
  rw [setBilinear_eq, setBilinear_eq]

end QuadraticFunction

namespace AffineVector

theorem length_resize (dest : AffineVector T) (len : Nat) : (resize dest len).length = len :=
  Buffer.length_resize dest len .zero

/-- Updating from two lists is the same where the updates from their elements are. -/
theorem mapUpdate_eq_of_forall₂ {α α' : Type}
    {update : AffineFunction T → α → Except Fault (AffineFunction T)}
    {other : AffineFunction T → α' → Except Fault (AffineFunction T)} {xs : List α} {ys : List α'}
    (same : List.Forall₂ (fun a b => ∀ dest, update dest a = other dest b) xs ys)
    (dests : AffineVector T) : mapUpdate update dests xs = mapUpdate other dests ys := by
  induction same generalizing dests with
  | nil => cases dests <;> rfl
  | cons first _ ih =>
      cases dests with
      | nil => rfl
      | cons dest dests => rw [mapUpdate, mapUpdate, first dest, ih dests]

/-- Where the old elements do not matter, the update of all elements computes the new ones in
order. -/
theorem mapUpdate_eq_mapM {α : Type}
    {update : AffineFunction T → α → Except Fault (AffineFunction T)}
    {result : α → Except Fault (AffineFunction T)} {xs : List α}
    (same : ∀ x ∈ xs, ∀ dest, update dest x = result x) {dests : AffineVector T}
    (filled : dests.length = xs.length) : mapUpdate update dests xs = xs.mapM result := by
  induction xs generalizing dests with
  | nil =>
      obtain rfl := List.eq_nil_of_length_eq_zero filled
      rfl
  | cons x xs ih =>
      obtain ⟨dest, dests, rfl⟩ := List.exists_cons_of_length_eq_add_one filled
      rw [mapUpdate, List.mapM_cons, same x List.mem_cons_self dest,
        ih (fun x' member => same x' (List.mem_cons_of_mem x member)) (Nat.succ_inj.mp filled)]

/-- Where every element is overwritten, only the number of elements matters. -/
theorem mapUpdate_dest {α : Type} {update : AffineFunction T → α → Except Fault (AffineFunction T)}
    {xs : List α} (same : ∀ x ∈ xs, ∀ dest other, update dest x = update other x)
    {dests others : AffineVector T} (dests_length : dests.length = xs.length)
    (others_length : others.length = xs.length) :
    mapUpdate update dests xs = mapUpdate update others xs := by
  have fresh : ∀ x ∈ xs, ∀ dest, update dest x = update .zero x :=
    fun x member dest => same x member dest .zero
  rw [mapUpdate_eq_mapM fresh dests_length, mapUpdate_eq_mapM fresh others_length]

/-- Going through two lists is going through the list of their pairs. -/
theorem zipUpdate_eq_mapUpdate {α β : Type}
    (update : AffineFunction T → α → β → Except Fault (AffineFunction T))
    (dests : AffineVector T) (xs : List α) (ys : List β) :
    zipUpdate update dests xs ys =
      mapUpdate (fun dest pair => update dest pair.1 pair.2) dests (xs.zip ys) := by
  induction dests generalizing xs ys with
  | nil => rfl
  | cons dest dests ih =>
      cases xs with
      | nil => rfl
      | cons x xs =>
          cases ys with
          | nil => rfl
          | cons y ys =>
              rw [zipUpdate, List.zip_cons_cons, mapUpdate]
              simp only [ih]

/-- Where every element is overwritten, only the number of elements matters. -/
theorem zipUpdate_dest {α β : Type}
    {update : AffineFunction T → α → β → Except Fault (AffineFunction T)}
    (same : ∀ dest other x y, update dest x y = update other x y) {xs : List α} {ys : List β}
    (same_length : xs.length = ys.length) {dests others : AffineVector T}
    (dests_length : dests.length = xs.length) (others_length : others.length = xs.length) :
    zipUpdate update dests xs ys = zipUpdate update others xs ys := by
  have pairs_length : (xs.zip ys).length = xs.length := length_zip_of_eq same_length
  rw [zipUpdate_eq_mapUpdate, zipUpdate_eq_mapUpdate]
  exact mapUpdate_dest (fun pair _ dest other => same dest other pair.1 pair.2)
    (dests_length.trans pairs_length.symm) (others_length.trans pairs_length.symm)

theorem outcome_writePairs_dest {update : AffineFunction T → AffineOperand T → AffineOperand T →
      Except Fault (AffineFunction T)} (same : ∀ dest other x y, update dest x y = update other x y)
    (dest other : AffineVector T) (x y : List (AffineOperand T)) :
    (writePairs update x y).outcome dest = (writePairs update x y).outcome other := by
  rw [outcome_writePairs, outcome_writePairs]
  apply bind_congr_ok
  intro _ checked
  rw [zipUpdate_dest same (checkLength_eq_ok.mp checked) (length_resize dest _)
    (length_resize other _)]

theorem setSum_dest (dest other : AffineVector T) (x y : List (AffineOperand T)) :
    setSum dest x y = setSum other x y :=
  outcome_writePairs_dest AffineFunction.setSum_dest dest other x y

theorem setDifference_dest (dest other : AffineVector T) (x y : List (AffineOperand T)) :
    setDifference dest x y = setDifference other x y :=
  outcome_writePairs_dest AffineFunction.setDifference_dest dest other x y

theorem setProducts_dest {α : Type} (product : α → AffineProduct T) (dest other : AffineVector T)
    (x : List α) : setProducts product dest x = setProducts product other x :=
  mapUpdate_dest (fun value _ dest other => dest.setProduct_dest other (product value))
    (length_resize dest _) (length_resize other _)

theorem setMatrixProduct_dest {dest other : AffineVector T}
    (same_length : dest.length = other.length) (matrix : Below ScalarMatrix T) (column : Column T) :
    setMatrixProduct dest matrix column = setMatrixProduct other matrix column := by
  rw [setMatrixProduct_eq_checked, setMatrixProduct_eq_checked, same_length]
  apply bind_congr_ok
  intro _ rows_checked
  apply bind_congr_ok
  intro _ cols_checked
  apply bind_congr_ok
  intro rows listed
  have rows_length := RowMajor.length_of_rowList_eq_ok (lift_eq_ok.mp listed)
  have other_length : other.length = rows.length :=
    (checkLength_eq_ok.mp rows_checked).symm.trans rows_length.symm
  rw [mapUpdate_dest _ (same_length.trans other_length) other_length]
  intro row member dest other
  apply AffineFunction.setRowProduct_dest
  rw [List.length_map, RowMajor.length_of_mem_rowList (lift_eq_ok.mp listed) member]
  exact checkLength_eq_ok.mp cols_checked

theorem setConcatenation_dest {dest other : AffineVector T}
    (same_length : dest.length = other.length) (sources : List (List (Below AffineFunction T))) :
    setConcatenation dest sources = setConcatenation other sources := by
  rw [setConcatenation_eq_checked, setConcatenation_eq_checked, same_length]
  apply bind_congr_ok
  intro _ checked
  have other_length := checkLength_eq_ok.mp checked
  rw [mapUpdate_dest _ (same_length.trans other_length) other_length]
  intro source _ dest other
  rw [AffineFunction.overwrite_dest dest other]

end AffineVector

/-! ## Updates and runs -/

/-- The updates that overwrite their destination. -/
def AffineUpdate.Overwrites : AffineUpdate T → Prop
  | .clear | .set _ | .overwrite _ | .setTo _ | .setSum _ _ | .setDifference _ _ => True
  | .setProduct _ | .dot _ | .dotTerms _ => True
  | _ => False

/-- The updates that overwrite their destination. -/
def QuadraticUpdate.Overwrites : QuadraticUpdate T → Prop
  | .clear | .set _ | .overwrite _ | .setTo _ | .setSum _ _ | .setDifference _ _ => True
  | .setProduct _ | .dot _ | .bilinear _ _ _ => True
  | _ => False

/-- The updates that overwrite their destination. -/
def VectorUpdate.Overwrites : VectorUpdate T → Prop
  | .set _ | .zeros _ | .setSum _ _ | .setDifference _ _ | .scale _ _ | .multiplesOf _ _ => True
  | .matMul _ _ | .concat _ => True
  | .element _ _ => False

/-- The updates that overwrite the elements of their destination, but keep their number. -/
def VectorUpdate.KeepsLength : VectorUpdate T → Prop
  | .matMul _ _ | .concat _ => True
  | _ => False

theorem AffineUpdate.apply_dest {update : AffineUpdate T} (overwrites : update.Overwrites)
    (dest other : AffineFunction T) : update.apply dest = update.apply other := by
  rw [apply_eq, apply_eq]
  cases update with
  | clear => rfl
  | set value => rfl
  | overwrite source => simp only [AffineFunction.overwrite_dest dest other]
  | setTo operand => simp only [AffineFunction.setTo_dest dest other]
  | setSum x y => simp only [AffineFunction.setSum_dest dest other]
  | setDifference x y => simp only [AffineFunction.setDifference_dest dest other]
  | setProduct product => simp only [AffineFunction.setProduct_dest dest other]
  | dot factors => exact AffineFunction.dot_dest dest other factors
  | dotTerms factors => exact AffineFunction.dotTerms_dest dest other factors
  | _ => exact overwrites.elim

theorem QuadraticUpdate.apply_dest {update : QuadraticUpdate T} (overwrites : update.Overwrites)
    (dest other : QuadraticFunction T) : update.apply dest = update.apply other := by
  rw [apply_eq, apply_eq]
  cases update with
  | clear => rfl
  | set value => rfl
  | overwrite source => simp only [QuadraticFunction.overwrite_dest dest other]
  | setTo operand => simp only [QuadraticFunction.setTo_dest dest other]
  | setSum x y => simp only [QuadraticFunction.setSum_dest dest other]
  | setDifference x y => simp only [QuadraticFunction.setDifference_dest dest other]
  | setProduct product => simp only [QuadraticFunction.setProduct_dest dest other]
  | dot factors => exact QuadraticFunction.dot_dest dest other factors
  | bilinear matrix x y => exact QuadraticFunction.setBilinear_dest dest other matrix x y
  | _ => exact overwrites.elim

theorem VectorUpdate.apply_dest {update : VectorUpdate T} (overwrites : update.Overwrites)
    {dest other : AffineVector T} (same_length : update.KeepsLength → dest.length = other.length) :
    update.apply dest = update.apply other := by
  rw [apply_eq, apply_eq]
  cases update with
  | set value => rfl
  | zeros len => rfl
  | setSum x y => exact AffineVector.setSum_dest dest other x y
  | setDifference x y => exact AffineVector.setDifference_dest dest other x y
  | matMul matrix column =>
      exact AffineVector.setMatrixProduct_dest (same_length trivial) matrix column
  | scale x number => exact congrArg liftM (AffineVector.setProducts_dest _ dest other x)
  | multiplesOf numbers operand =>
      exact congrArg liftM (AffineVector.setProducts_dest _ dest other numbers)
  | concat sources => exact AffineVector.setConcatenation_dest (same_length trivial) sources
  | element i update => exact overwrites.elim

/-- Overwriting has the same outcome on every destination.  So a run continues after an overwriting
update that is not refused as it would from a fresh destination. -/
theorem overwriting_forgets (T : ScalarType) :
    (∀ update : AffineUpdate T, update.Overwrites →
      (∀ dest other, update.apply dest = update.apply other) ∧
      ∀ (start : AffineFunction T) front before back, start.run front = .ok before →
        (∀ error, update.apply before ≠ .error (.refused error)) →
        start.run (front ++ update :: back) = AffineFunction.zero.run (update :: back)) ∧
    (∀ update : QuadraticUpdate T, update.Overwrites →
      (∀ dest other, update.apply dest = update.apply other) ∧
      ∀ (start : QuadraticFunction T) front before back, start.run front = .ok before →
        (∀ error, update.apply before ≠ .error (.refused error)) →
        start.run (front ++ update :: back) = QuadraticFunction.zero.run (update :: back)) ∧
    ∀ update : VectorUpdate T, update.Overwrites →
      (∀ dest other : AffineVector T, (update.KeepsLength → dest.length = other.length) →
        update.apply dest = update.apply other) ∧
      ∀ (start : AffineVector T) front before back, start.run front = .ok before →
        (∀ error, update.apply before ≠ .error (.refused error)) →
        start.run (front ++ update :: back) =
          AffineVector.run (update :: back) (List.replicate before.length .zero) := by
  refine ⟨fun update overwrites => ⟨update.apply_dest overwrites, ?_⟩,
    fun update overwrites => ⟨update.apply_dest overwrites, ?_⟩,
    fun update overwrites => ⟨fun dest other => update.apply_dest overwrites, ?_⟩⟩
  · intro start front before back run_front accepted
    rw [AffineFunction.run_eq] at run_front ⊢
    rw [AffineFunction.run_eq]
    exact run_after_accepted run_front accepted (update.apply_dest overwrites before .zero)
  · intro start front before back run_front accepted
    rw [QuadraticFunction.run_eq] at run_front ⊢
    rw [QuadraticFunction.run_eq]
    exact run_after_accepted run_front accepted (update.apply_dest overwrites before .zero)
  · intro start front before back run_front accepted
    rw [AffineVector.run_eq] at run_front ⊢
    rw [AffineVector.run_eq]
    exact run_after_accepted run_front accepted
      (update.apply_dest overwrites fun _ => List.length_replicate.symm)

/-- A function that an earlier computation has left in a destination. -/
def usedFunction : AffineFunction .double := ⟨[⟨.one, ⟨2⟩⟩, ⟨.minusOne, ⟨3⟩⟩], .one⟩

theorem overwriting_forgets_used :
    usedFunction.run [.pushLinear ⟨.one, ⟨4⟩⟩, .setTo (.factor (.var ⟨1⟩))] =
        AffineFunction.zero.run [.setTo (.factor (.var ⟨1⟩))] ∧
      (QuadraticFunction.ofAffine usedFunction).run
          [.pushQuadratic ⟨.one, ⟨4⟩, ⟨4⟩⟩, .setTo (.affine (.factor (.var ⟨1⟩)))] =
        QuadraticFunction.zero.run [.setTo (.affine (.factor (.var ⟨1⟩)))] ∧
      AffineVector.run [.element 0 .neg, .concat [[.same (.ofVariable ⟨1⟩)]]] [usedFunction] =
        AffineVector.run [.concat [[.same (.ofVariable ⟨1⟩)]]] [AffineFunction.zero] := by
  obtain ⟨affine, quadratic, vector⟩ := overwriting_forgets .double
  refine ⟨?_, ?_, ?_⟩
  · exact (affine (.setTo (.factor (.var ⟨1⟩))) trivial).2 usedFunction
      [.pushLinear ⟨.one, ⟨4⟩⟩] _ [] rfl fun error refused => nomatch refused
  · exact (quadratic (.setTo (.affine (.factor (.var ⟨1⟩)))) trivial).2
      (QuadraticFunction.ofAffine usedFunction) [.pushQuadratic ⟨.one, ⟨4⟩, ⟨4⟩⟩] _ [] rfl
      fun error refused => nomatch refused
  · exact (vector (.concat [[.same (.ofVariable ⟨1⟩)]]) trivial).2 [usedFunction]
      [.element 0 .neg] [_] [] rfl fun error refused => nomatch refused

end DegreeTwo
