import DegreeTwo.Proofs.Sorting.Totals
import DegreeTwo.Proofs.Value.Basic
import DegreeTwo.Proofs.VariableOrder

/-!
# Values of canonical functions

Orienting, sorting and merging terms does not change the value of a function at any point, and
neither does dropping the terms with coefficient zero.
-/

namespace DegreeTwo

variable {T : ScalarType} {width : IntWidth}

/-! ## Merging like terms -/

/-- The sum of two terms on one variable, as canonicalization computes it. -/
def LinearTerm.addLike (left right : LinearTerm T) : Except Fault (LinearTerm T) := do
  let coeff ← left.coeff.add right.coeff
  pure ⟨coeff, left.var⟩

/-- The sum of two terms on one pair of variables, as canonicalization computes it. -/
def QuadraticTerm.addLike (left right : QuadraticTerm T) : Except Fault (QuadraticTerm T) := do
  let coeff ← left.coeff.add right.coeff
  pure ⟨coeff, left.row, left.col⟩

/-- The sum is on the variable of the left term. -/
theorem LinearTerm.eq_of_addLike {left right merged : LinearTerm T}
    (adds : left.addLike right = .ok merged) : ∃ sum, merged = ⟨sum, left.var⟩ := by
  obtain ⟨sum, -, result⟩ := bind_eq_ok.mp adds
  exact ⟨sum, (Except.ok.inj result).symm⟩

/-- The sum is on the variables of the left term. -/
theorem QuadraticTerm.eq_of_addLike {left right merged : QuadraticTerm T}
    (adds : left.addLike right = .ok merged) : ∃ sum, merged = ⟨sum, left.row, left.col⟩ := by
  obtain ⟨sum, -, result⟩ := bind_eq_ok.mp adds
  exact ⟨sum, (Except.ok.inj result).symm⟩

theorem AffineFunction.canonicalize_eq (f : AffineFunction T) :
    f.canonicalize = (do
      let linear ← mergeByKey LinearTerm.var LinearTerm.addLike f.linear
      pure ⟨linear, f.constant⟩) := rfl

theorem QuadraticFunction.canonicalize_eq (f : QuadraticFunction T) :
    f.canonicalize = (do
      let affine ← f.affine.canonicalize
      let quadratic ← mergeByKey QuadraticTerm.pair QuadraticTerm.addLike
        (f.quadratic.map QuadraticTerm.orient)
      pure ⟨quadratic, affine⟩) := rfl

/-- Merging adds up whatever is linear in the coefficient and depends on the variable otherwise. -/
theorem LinearTerm.addsWeights {ι : Type} (factor : ι → Variable → Int) :
    AddsWeights var
      (fun i (term : LinearTerm (.integer width)) => term.coeff.toInt * factor i term.var)
      addLike := by
  intro left right same
  apply (Scalar.add_yields _ _).bind
  intro coeff coeff_eq
  refine .pure ⟨rfl, fun i => ?_⟩
  simp only [coeff_eq, same, Int.add_mul]

/-- Merging adds up whatever is linear in the coefficient and depends on the pair otherwise. -/
theorem QuadraticTerm.addsWeights {ι : Type} (factor : ι → VariablePair → Int) :
    AddsWeights pair
      (fun i (term : QuadraticTerm (.integer width)) => term.coeff.toInt * factor i term.pair)
      addLike := by
  intro left right same
  apply (Scalar.add_yields _ _).bind
  intro coeff coeff_eq
  refine .pure ⟨rfl, fun i => ?_⟩
  simp only [pair, coeff_eq, Int.add_mul] at same ⊢
  rw [same]

theorem LinearTerm.mergeLike_yields (terms : List (LinearTerm (.integer width))) :
    Yields (mergeByKey var addLike terms) fun merged =>
      ∀ point, (merged.map (value point)).sum = (terms.map (value point)).sum :=
  (addsWeights fun (point : Variable → Int) var => point var).mergeByKey_yields terms

theorem QuadraticTerm.mergeLike_yields (terms : List (QuadraticTerm (.integer width))) :
    Yields (mergeByKey pair addLike terms) fun merged =>
      ∀ point, (merged.map (value point)).sum = (terms.map (value point)).sum := by
  have value_eq : ∀ point, (value point : QuadraticTerm (.integer width) → Int) =
      fun term => term.coeff.toInt * (point term.pair.row * point term.pair.col) :=
    fun point => funext fun term => Int.mul_assoc _ _ _
  simp only [value_eq]
  exact (addsWeights fun (point : Variable → Int) pair =>
    point pair.row * point pair.col).mergeByKey_yields terms

theorem AffineFunction.canonicalize_yields (f : AffineFunction (.integer width)) :
    Yields f.canonicalize fun canonical => ∀ point, canonical.value point = f.value point := by
  rw [canonicalize_eq]
  apply (LinearTerm.mergeLike_yields f.linear).bind
  intro linear total
  refine .pure fun point => ?_
  rw [value, value, total]

theorem QuadraticFunction.canonicalize_yields (f : QuadraticFunction (.integer width)) :
    Yields f.canonicalize fun canonical => ∀ point, canonical.value point = f.value point := by
  rw [canonicalize_eq]
  apply f.affine.canonicalize_yields.bind
  intro affine affine_value
  apply (QuadraticTerm.mergeLike_yields (f.quadratic.map QuadraticTerm.orient)).bind
  intro quadratic total
  refine .pure fun point => ?_
  rw [value, value, total, affine_value, List.map_map, QuadraticTerm.value_comp_orient]

/-! ## Dropping zeros -/

/-- The magnitude of an integer is the absolute value, cut off at the greatest integer. -/
theorem BoundedInt.val_magnitude (a : BoundedInt width) :
    a.magnitude.val = min |a.val| (width.limit - 1) := by
  obtain ⟨n, lower, upper⟩ := a
  rw [magnitude]
  split
  · rename_i negative
    simp only at negative ⊢
    rw [ofInt?, abs_of_neg negative]
    split
    · simp only [Option.getD_some]
      omega
    · simp only [Option.getD_none, greatest]
      omega
  · rename_i nonnegative
    simp only [not_lt] at nonnegative ⊢
    rw [abs_of_nonneg nonnegative]
    omega

theorem Scalar.toInt_magnitude (a : Scalar (.integer width)) :
    a.magnitude.toInt = min |a.toInt| (width.limit - 1) := BoundedInt.val_magnitude a

theorem Scalar.less_magnitude_zero (a : Scalar (.integer width)) :
    zero.less a.magnitude = decide (a.toInt ≠ 0) := by
  have one_lt := width.one_lt_limit
  have zero_lt_greatest : 0 < width.limit - 1 := by omega
  change decide (0 < a.magnitude.toInt) = decide (a.toInt ≠ 0)
  rw [decide_eq_decide, toInt_magnitude, lt_min_iff, abs_pos]
  exact and_iff_left zero_lt_greatest

/-- A sum is what it keeps and what it drops. -/
theorem sum_sub_sum_filter {α : Type} (weight : α → Int) (keep : α → Bool) (terms : List α) :
    (terms.map weight).sum - ((terms.filter keep).map weight).sum =
      ((terms.filter fun term => !keep term).map weight).sum := by
  induction terms with
  | nil => rfl
  | cons term terms ih =>
      cases kept : keep term <;>
        simp only [kept, List.filter_cons, List.map_cons, List.sum_cons, Bool.not_true,
          Bool.not_false, if_true, Bool.false_eq_true, if_false] <;>
        omega

/-- Terms of value zero do not count in a sum. -/
theorem sum_filter_of_zero {α : Type} {weight : α → Int} {keep : α → Bool} {terms : List α}
    (dropped : ∀ term ∈ terms, keep term = false → weight term = 0) :
    ((terms.filter keep).map weight).sum = (terms.map weight).sum := by
  have nothing_dropped : ((terms.filter fun term => !keep term).map weight).sum = 0 := by
    apply List.sum_eq_zero
    intro value summand
    obtain ⟨term, filtered, rfl⟩ := List.mem_map.mp summand
    obtain ⟨member, not_kept⟩ := List.mem_filter.mp filtered
    exact dropped term member (by simpa using not_kept)
  rw [← sum_sub_sum_filter weight keep terms, sub_eq_zero] at nothing_dropped
  exact nothing_dropped.symm

@[simp]
theorem AffineFunction.value_pruneZeros (point : Variable → Int)
    (f : AffineFunction (.integer width)) : f.pruneZeros.value point = f.value point := by
  rw [value, value, pruneZeros, prune, sum_filter_of_zero]
  intro term _ dropped
  rw [Scalar.less_magnitude_zero, decide_eq_false_iff_not, not_not] at dropped
  rw [LinearTerm.value, dropped, Int.zero_mul]

@[simp]
theorem QuadraticFunction.value_pruneZeros (point : Variable → Int)
    (f : QuadraticFunction (.integer width)) : f.pruneZeros.value point = f.value point := by
  rw [value, value, pruneZeros, prune, sum_filter_of_zero]
  · exact congrArg (_ + ·) (f.affine.value_pruneZeros point)
  · intro term _ dropped
    rw [Scalar.less_magnitude_zero, decide_eq_false_iff_not, not_not] at dropped
    rw [QuadraticTerm.value, dropped, Int.zero_mul, Int.zero_mul]

end DegreeTwo
