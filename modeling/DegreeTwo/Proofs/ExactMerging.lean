import DegreeTwo.Proofs.Mentions
import DegreeTwo.Proofs.Sorting.PrefixSums

/-!
# Exact canonicalization

Canonicalization adds the coefficients of each variable, and of each unordered pair of variables, in
the order of the terms.  It overflows exactly if one of these additions does, and otherwise returns
one term for each variable and pair with the exact sum of its coefficients.
-/

namespace DegreeTwo

variable {T : ScalarType} {width : IntWidth}

/-! ## Coefficients in order -/

/-- The coefficients of the terms on a variable, in the order of the terms. -/
def AffineFunction.coefficientsAt (f : AffineFunction T) (x : Variable) : List Int :=
  (withKey LinearTerm.var f.linear x).map fun term => term.coeff.toInt

/-- The coefficients of the terms on two variables, in either order of these, in the order of the
terms. -/
def QuadraticFunction.coefficientsAt (f : QuadraticFunction T) (pair : Sym2 Variable) : List Int :=
  (f.quadratic.filter fun term => term.unordered = pair).map fun term => term.coeff.toInt

theorem LinearTerm.addsExactly :
    AddsExactly width var (fun term : LinearTerm (.integer width) => term.coeff.toInt) addLike where
  fits term := term.coeff.fits_toInt
  yields left right :=
    (left.coeff.add_yieldsIff right.coeff).map fun _ coeff_eq => ⟨rfl, coeff_eq⟩

theorem QuadraticTerm.addsExactly :
    AddsExactly width pair (fun term : QuadraticTerm (.integer width) => term.coeff.toInt)
      addLike where
  fits term := term.coeff.fits_toInt
  yields left right :=
    (left.coeff.add_yieldsIff right.coeff).map fun _ coeff_eq => ⟨rfl, coeff_eq⟩

/-! ## Oriented terms -/

namespace QuadraticTerm

theorem orient_of_oriented {term : QuadraticTerm T} (oriented : term.row ≤ term.col) :
    term.orient = term := by
  rw [orient, if_neg (not_lt.mpr oriented)]

theorem coeff_orient (term : QuadraticTerm T) : term.orient.coeff = term.coeff := by
  rw [orient]
  split <;> rfl

/-- The terms on an oriented pair after orienting are those on the unordered pair before. -/
theorem pair_orient_eq (term : QuadraticTerm T) {row col : Variable} (oriented : row ≤ col) :
    term.orient.pair = ⟨row, col⟩ ↔ term.unordered = s(row, col) := by
  have same := term.pair_orient_eq_iff ⟨term.coeff, row, col⟩
  have kept : (⟨term.coeff, row, col⟩ : QuadraticTerm T).orient = ⟨term.coeff, row, col⟩ :=
    orient_of_oriented oriented
  rwa [kept] at same

end QuadraticTerm

namespace QuadraticFunction

theorem coefficients_of_oriented (f : QuadraticFunction T) {row col : Variable}
    (oriented : row ≤ col) :
    (withKey QuadraticTerm.pair (f.quadratic.map QuadraticTerm.orient) ⟨row, col⟩).map
        (fun term => term.coeff.toInt) =
      f.coefficientsAt s(row, col) := by
  rw [withKey, List.filter_map, List.map_map, coefficientsAt]
  congr 1
  · funext term
    exact congrArg Scalar.toInt term.coeff_orient
  · apply List.filter_congr
    intro term _
    simp only [Function.comp_apply, decide_eq_decide]
    exact term.pair_orient_eq oriented

theorem withKey_of_not_oriented (f : QuadraticFunction T) {pair : VariablePair}
    (not_oriented : ¬ pair.row ≤ pair.col) :
    withKey QuadraticTerm.pair (f.quadratic.map QuadraticTerm.orient) pair = [] := by
  apply withKey_eq_nil
  rintro term member rfl
  obtain ⟨source, -, rfl⟩ := List.mem_map.mp member
  exact not_oriented source.orient_row_le_col

/-- The prefix sums of the oriented pairs are those of the unordered ones. -/
theorem prefixSumsFit_oriented_iff (f : QuadraticFunction T) :
    (∀ pair, PrefixSumsFit width
        ((withKey QuadraticTerm.pair (f.quadratic.map QuadraticTerm.orient) pair).map
          fun term => term.coeff.toInt)) ↔
      ∀ pair, PrefixSumsFit width (f.coefficientsAt pair) := by
  constructor
  · intro fit pair
    induction pair with
    | _ x y =>
        rcases le_total x y with x_le | y_le
        · rw [← f.coefficients_of_oriented x_le]
          exact fit ⟨x, y⟩
        · rw [Sym2.eq_swap, ← f.coefficients_of_oriented y_le]
          exact fit ⟨y, x⟩
  · intro fit pair
    by_cases oriented : pair.row ≤ pair.col
    · rw [f.coefficients_of_oriented oriented]
      exact fit s(pair.row, pair.col)
    · rw [f.withKey_of_not_oriented oriented]
      exact prefixSumsFit_nil width

end QuadraticFunction

/-! ## The merged function -/

/-- An affine function with one term for each variable of another one, ascending, with the exact
sum of its coefficients, and with the same constant. -/
structure AffineFunction.MergedFrom (f merged : AffineFunction (.integer width)) : Prop where
  /-- The variables ascend, so that each has one term. -/
  ascending : (merged.linear.map LinearTerm.var).Pairwise (· < ·)
  /-- The variables are those of the function. -/
  same_variables : merged.variables = f.variables
  /-- Each coefficient is the sum of the coefficients on its variable. -/
  sums : ∀ term ∈ merged.linear, term.coeff.toInt = (f.coefficientsAt term.var).sum
  /-- The constant is the same. -/
  same_constant : merged.constant = f.constant

/-- A quadratic function with one oriented term for each unordered pair of another one, ascending,
with the exact sum of its coefficients, and with a merged affine part. -/
structure QuadraticFunction.MergedFrom (f merged : QuadraticFunction (.integer width)) : Prop where
  /-- The lesser variable is the row. -/
  oriented : ∀ term ∈ merged.quadratic, term.row ≤ term.col
  /-- The pairs ascend, by their rows first. -/
  ascending : (merged.quadratic.map QuadraticTerm.pair).Pairwise (· < ·)
  /-- Each unordered pair has one term. -/
  distinct : (merged.quadratic.map QuadraticTerm.unordered).Nodup
  /-- The unordered pairs are those of the function. -/
  same_pairs : merged.pairs = f.pairs
  /-- Each coefficient is the sum of the coefficients on its unordered pair. -/
  sums : ∀ term ∈ merged.quadratic, term.coeff.toInt = (f.coefficientsAt term.unordered).sum
  /-- The affine part is merged. -/
  affine : f.affine.MergedFrom merged.affine

theorem AffineFunction.canonicalize_yieldsIff (f : AffineFunction (.integer width)) :
    YieldsIff f.canonicalize (· = .overflow .add)
      (∀ x, PrefixSumsFit width (f.coefficientsAt x)) f.MergedFrom := by
  have sums : YieldsIff f.canonicalize (· = .overflow .add)
      (∀ x, PrefixSumsFit width (f.coefficientsAt x)) fun merged =>
        ∀ term ∈ merged.linear, term.coeff.toInt = (f.coefficientsAt term.var).sum := by
    rw [canonicalize_eq]
    exact (LinearTerm.addsExactly.mergeByKey_yieldsIff f.linear).map fun _ merged => merged.2
  refine sums.imp_of_ok fun merged succeeds merged_sums => ?_
  have canonicalOf := canonicalOf_of_canonicalize succeeds
  exact ⟨canonicalOf.strict, variables_of_canonicalize succeeds, merged_sums, canonicalOf.constant⟩

/-- The pairs of the canonical form are oriented, because they are those of oriented terms. -/
theorem QuadraticFunction.CanonicalOf.oriented {f canonical : QuadraticFunction (.integer width)}
    (canonicalOf : f.CanonicalOf canonical) {term : QuadraticTerm (.integer width)}
    (member : term ∈ canonical.quadratic) : term.row ≤ term.col := by
  have occurs : term.pair ∈ canonical.quadratic.map QuadraticTerm.pair := List.mem_map_of_mem member
  rw [canonicalOf.keys, mem_distinctKeys, List.map_map] at occurs
  obtain ⟨source, -, same_pair⟩ := List.mem_map.mp occurs
  obtain ⟨row_eq, col_eq⟩ := VariablePair.mk.inj same_pair
  rw [← row_eq, ← col_eq]
  exact source.orient_row_le_col

theorem QuadraticFunction.CanonicalOf.distinct {f canonical : QuadraticFunction (.integer width)}
    (canonicalOf : f.CanonicalOf canonical) :
    (canonical.quadratic.map QuadraticTerm.unordered).Nodup := by
  refine List.pairwise_map.mpr ((List.pairwise_map.mp canonicalOf.strict).imp_of_mem ?_)
  intro left right left_member right_member less same
  have same_pair := (left.pair_orient_eq_iff right).mpr same
  rw [QuadraticTerm.orient_of_oriented (canonicalOf.oriented left_member),
    QuadraticTerm.orient_of_oriented (canonicalOf.oriented right_member)] at same_pair
  exact ne_of_lt less same_pair

theorem QuadraticFunction.canonicalize_yieldsIff (f : QuadraticFunction (.integer width)) :
    YieldsIff f.canonicalize (· = .overflow .add)
      ((∀ x, PrefixSumsFit width (f.affine.coefficientsAt x)) ∧
        ∀ pair, PrefixSumsFit width (f.coefficientsAt pair)) f.MergedFrom := by
  have sums : YieldsIff f.canonicalize (· = .overflow .add)
      ((∀ x, PrefixSumsFit width (f.affine.coefficientsAt x)) ∧
        ∀ pair, PrefixSumsFit width (f.coefficientsAt pair)) fun merged =>
        f.affine.MergedFrom merged.affine ∧ ∀ term ∈ merged.quadratic, term.row ≤ term.col →
          term.coeff.toInt = (f.coefficientsAt term.unordered).sum := by
    rw [canonicalize_eq]
    refine f.affine.canonicalize_yieldsIff.bind fun affine affine_merged => ?_
    refine ((QuadraticTerm.addsExactly.mergeByKey_yieldsIff _).congr
      f.prefixSumsFit_oriented_iff).map fun quadratic merged => ⟨affine_merged, ?_⟩
    intro term member oriented
    rw [merged.2 term member]
    exact congrArg List.sum (f.coefficients_of_oriented oriented)
  refine sums.imp_of_ok fun merged succeeds merged_sums => ?_
  have canonicalOf := canonicalOf_of_canonicalize succeeds
  exact ⟨fun _ => canonicalOf.oriented, canonicalOf.strict, canonicalOf.distinct,
    congrArg Prod.snd (mentions_of_canonicalize succeeds),
    fun term member => merged_sums.2 term member (canonicalOf.oriented member), merged_sums.1⟩

/-- The coefficients on some variable have a prefix sum that is not an integer of the width. -/
def AffineFunction.PrefixOverflows (f : AffineFunction (.integer width)) : Prop :=
  ∃ x, ¬ PrefixSumsFit width (f.coefficientsAt x)

/-- The coefficients on some variable, or on some unordered pair, have a prefix sum that is not an
integer of the width. -/
def QuadraticFunction.PrefixOverflows (f : QuadraticFunction (.integer width)) : Prop :=
  f.affine.PrefixOverflows ∨ ∃ pair, ¬ PrefixSumsFit width (f.coefficientsAt pair)

theorem AffineFunction.not_prefixOverflows (f : AffineFunction (.integer width)) :
    ¬ f.PrefixOverflows ↔ ∀ x, PrefixSumsFit width (f.coefficientsAt x) := by
  simp [PrefixOverflows]

theorem QuadraticFunction.not_prefixOverflows (f : QuadraticFunction (.integer width)) :
    ¬ f.PrefixOverflows ↔ (∀ x, PrefixSumsFit width (f.affine.coefficientsAt x)) ∧
      ∀ pair, PrefixSumsFit width (f.coefficientsAt pair) := by
  simp [PrefixOverflows, AffineFunction.not_prefixOverflows]

/-- Canonicalization breaks off, with the overflow of an addition, exactly if the coefficients of
some variable or unordered pair have a prefix sum that is not an integer of the width; and it
returns the merged function exactly if there is no such prefix sum. -/
theorem canonicalize_exact (width : IntWidth) :
    (Fault.overflow .add).message = "attempt to add with overflow" ∧
    (∀ f : AffineFunction (.integer width),
      (f.canonicalize = .error (.overflow .add) ↔ f.PrefixOverflows) ∧
      ((∃ merged, f.canonicalize = .ok merged ∧ f.MergedFrom merged) ↔ ¬ f.PrefixOverflows)) ∧
    ∀ f : QuadraticFunction (.integer width),
      (f.canonicalize = .error (.overflow .add) ↔ f.PrefixOverflows) ∧
      ((∃ merged, f.canonicalize = .ok merged ∧ f.MergedFrom merged) ↔ ¬ f.PrefixOverflows) := by
  refine ⟨by decide, fun f => ?_, fun f => ?_⟩
  · have outcome := f.canonicalize_yieldsIff.congr f.not_prefixOverflows.symm
    exact ⟨by simpa using outcome.error_iff, outcome.ok_iff⟩
  · have outcome := f.canonicalize_yieldsIff.congr f.not_prefixOverflows.symm
    exact ⟨by simpa using outcome.error_iff, outcome.ok_iff⟩

end DegreeTwo
