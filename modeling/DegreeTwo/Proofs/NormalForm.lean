import DegreeTwo.Proofs.Equality
import DegreeTwo.Proofs.Value.Canonical
import DegreeTwo.Proofs.Value.Coefficients
import Mathlib.Data.Sym.Sym2

/-!
# Canonical form is a complete normal form

Canonicalization keeps the mentioned variables and pairs and the coefficient of each, and nothing
else of a function.  Both can be read off: the coefficients from the values, and the mentioned
variables and pairs from the terms.  Without the terms of coefficient zero, the values alone
determine the canonical form.
-/

namespace DegreeTwo

variable {T : ScalarType} {width : IntWidth}

/-! ## Mentioned variables and pairs -/

/-- The variables of the linear terms. -/
def AffineFunction.variables (f : AffineFunction T) : Set Variable :=
  {x | x ∈ f.linear.map LinearTerm.var}

/-- The two variables of a quadratic term without their order. -/
def QuadraticTerm.unordered (term : QuadraticTerm T) : Sym2 Variable := s(term.row, term.col)

/-- The unordered pairs of variables of the quadratic terms. -/
def QuadraticFunction.pairs (f : QuadraticFunction T) : Set (Sym2 Variable) :=
  {pair | pair ∈ f.quadratic.map QuadraticTerm.unordered}

theorem QuadraticTerm.unordered_orient (term : QuadraticTerm T) :
    term.orient.unordered = term.unordered := by
  rw [orient]
  split
  · exact Sym2.eq_swap
  · rfl

/-- Orienting keeps exactly the unordered pair. -/
theorem QuadraticTerm.pair_orient_eq_iff (left right : QuadraticTerm T) :
    left.orient.pair = right.orient.pair ↔ left.unordered = right.unordered := by
  rw [← left.unordered_orient, ← right.unordered_orient]
  have left_oriented := left.orient_row_le_col
  have right_oriented := right.orient_row_le_col
  rw [pair, pair, VariablePair.mk.injEq, unordered, unordered, Sym2.eq_iff]
  constructor
  · exact .inl
  · rintro (same | ⟨row_eq, col_eq⟩)
    · exact same
    · rw [row_eq, col_eq] at left_oriented ⊢
      have equal := le_antisymm left_oriented right_oriented
      exact ⟨equal, equal.symm⟩

/-- Images of two lists agree for one function if they do for another one with the same fibers. -/
theorem same_images_iff {α β γ : Type} {φ : α → β} {ψ : α → γ}
    (fibers : ∀ x y, φ x = φ y ↔ ψ x = ψ y) (first second : List α) :
    (∀ b, b ∈ first.map φ ↔ b ∈ second.map φ) ↔ ∀ c, c ∈ first.map ψ ↔ c ∈ second.map ψ := by
  have covered : ∀ left right : List α,
      (∀ b, b ∈ left.map φ → b ∈ right.map φ) ↔ ∀ c, c ∈ left.map ψ → c ∈ right.map ψ := by
    intro left right
    simp only [List.mem_map, forall_exists_index, and_imp, forall_apply_eq_imp_iff₂, fibers]
  simp only [iff_iff_implies_and_implies, forall_and, covered]

/-! ## What canonicalization keeps -/

theorem LinearTerm.addsTotals :
    AddsWeights LinearTerm.var
      (fun x (term : LinearTerm (.integer width)) => if term.var = x then term.coeff.toInt else 0)
      addLike := by
  simpa using addsWeights fun (x : Variable) var => if var = x then (1 : Int) else 0

theorem QuadraticTerm.addsTotals :
    AddsWeights QuadraticTerm.pair
      (fun pair (term : QuadraticTerm (.integer width)) =>
        if term.pair = pair then term.coeff.toInt else 0)
      addLike := by
  simpa using addsWeights fun (p : VariablePair) pair => if pair = p then (1 : Int) else 0

/-- A canonical affine function has one term for each variable, ascending, with the coefficient of
this variable, and the constant of the function that it was made from. -/
structure AffineFunction.CanonicalOf (f canonical : AffineFunction (.integer width)) : Prop where
  /-- The variables are those of the function, each of them once. -/
  keys : canonical.linear.map LinearTerm.var = distinctKeys LinearTerm.var f.linear
  /-- Each variable keeps its coefficient. -/
  coefficients : ∀ x, canonical.coefficient x = f.coefficient x
  /-- The constant is kept. -/
  constant : canonical.constant = f.constant

/-- A canonical quadratic function has one oriented term for each unordered pair, ascending, with
the coefficient of this pair, and a canonical affine part. -/
structure QuadraticFunction.CanonicalOf (f canonical : QuadraticFunction (.integer width)) : Prop
    where
  /-- The pairs are those of the function, each of them once. -/
  keys : canonical.quadratic.map QuadraticTerm.pair =
    distinctKeys QuadraticTerm.pair (f.quadratic.map QuadraticTerm.orient)
  /-- Each pair keeps its coefficient. -/
  coefficients : ∀ pair, totalAt QuadraticTerm.pair (fun term => term.coeff.toInt)
    canonical.quadratic pair = f.coefficient pair
  /-- The affine part is canonical. -/
  affine : f.affine.CanonicalOf canonical.affine

theorem AffineFunction.canonicalOf_of_canonicalize {f canonical : AffineFunction (.integer width)}
    (succeeds : f.canonicalize = .ok canonical) : f.CanonicalOf canonical := by
  rw [canonicalize_eq] at succeeds
  obtain ⟨linear, merge, result⟩ := bind_eq_ok.mp succeeds
  cases result
  exact ⟨LinearTerm.addsTotals.preservesKey.keys_of_merge merge,
    (LinearTerm.addsTotals.mergeByKey_yields f.linear).result merge, rfl⟩

theorem QuadraticFunction.canonicalOf_of_canonicalize
    {f canonical : QuadraticFunction (.integer width)} (succeeds : f.canonicalize = .ok canonical) :
    f.CanonicalOf canonical := by
  rw [canonicalize_eq] at succeeds
  obtain ⟨affine, affine_succeeds, rest⟩ := bind_eq_ok.mp succeeds
  obtain ⟨quadratic, merge, result⟩ := bind_eq_ok.mp rest
  cases result
  exact ⟨QuadraticTerm.addsTotals.preservesKey.keys_of_merge merge,
    (QuadraticTerm.addsTotals.mergeByKey_yields _).result merge,
    AffineFunction.canonicalOf_of_canonicalize affine_succeeds⟩

/-! ## Affine functions -/

namespace AffineFunction

variable {f g fCanonical gCanonical : AffineFunction (.integer width)}

theorem CanonicalOf.strict (canonical : f.CanonicalOf fCanonical) :
    (fCanonical.linear.map LinearTerm.var).Pairwise (· < ·) := by
  rw [canonical.keys]
  exact distinctKeys_strict

theorem CanonicalOf.mem_variables (canonical : f.CanonicalOf fCanonical) (x : Variable) :
    x ∈ fCanonical.linear.map LinearTerm.var ↔ x ∈ f.variables := by
  rw [canonical.keys]
  exact mem_distinctKeys

theorem linear_pruneZeros (f : AffineFunction (.integer width)) :
    f.pruneZeros.linear = nonzero (fun term => term.coeff.toInt) f.linear := by
  simp only [pruneZeros, prune, Scalar.less_magnitude_zero, nonzero]

theorem linearTerm_determined (left right : LinearTerm (.integer width))
    (same_var : left.var = right.var) (same_coeff : left.coeff.toInt = right.coeff.toInt) :
    left = right := by
  cases left
  cases right
  rw [LinearTerm.mk.injEq]
  exact ⟨Scalar.ext_toInt same_coeff, same_var⟩

theorem CanonicalOf.same_totals (hf : f.CanonicalOf fCanonical) (hg : g.CanonicalOf gCanonical)
    (same_coefficients : ∀ x, f.coefficient x = g.coefficient x) (x : Variable) :
    totalAt LinearTerm.var (fun term => term.coeff.toInt) fCanonical.linear x =
      totalAt LinearTerm.var (fun term => term.coeff.toInt) gCanonical.linear x :=
  (hf.coefficients x).trans ((same_coefficients x).trans (hg.coefficients x).symm)

/-- Variables, coefficients and the constant determine the canonical form. -/
theorem CanonicalOf.unique (hf : f.CanonicalOf fCanonical) (hg : g.CanonicalOf gCanonical)
    (same_variables : f.variables = g.variables)
    (same_coefficients : ∀ x, f.coefficient x = g.coefficient x)
    (same_constant : f.constant = g.constant) : fCanonical = gCanonical := by
  have same_keys : ∀ x, x ∈ fCanonical.linear.map LinearTerm.var ↔
      x ∈ gCanonical.linear.map LinearTerm.var := by
    intro x
    rw [hf.mem_variables, hg.mem_variables, same_variables]
  have linear_eq := eq_of_totals linearTerm_determined hf.strict hg.strict same_keys
    (hf.same_totals hg same_coefficients)
  have constant_eq := hf.constant.trans (same_constant.trans hg.constant.symm)
  cases fCanonical
  cases gCanonical
  rw [AffineFunction.mk.injEq]
  exact ⟨linear_eq, constant_eq⟩

/-- Without zeros, coefficients and the constant determine the canonical form. -/
theorem CanonicalOf.unique_pruned (hf : f.CanonicalOf fCanonical) (hg : g.CanonicalOf gCanonical)
    (same_coefficients : ∀ x, f.coefficient x = g.coefficient x)
    (same_constant : f.constant = g.constant) : fCanonical.pruneZeros = gCanonical.pruneZeros := by
  have linear_eq : fCanonical.pruneZeros.linear = gCanonical.pruneZeros.linear := by
    rw [linear_pruneZeros, linear_pruneZeros]
    exact nonzero_eq_of_totals linearTerm_determined hf.strict hg.strict
      (hf.same_totals hg same_coefficients)
  have constant_eq : fCanonical.pruneZeros.constant = gCanonical.pruneZeros.constant :=
    hf.constant.trans (same_constant.trans hg.constant.symm)
  exact congrArg₂ AffineFunction.mk linear_eq constant_eq

end AffineFunction

/-! ## Quadratic functions -/

namespace QuadraticFunction

variable {f g fCanonical gCanonical : QuadraticFunction (.integer width)}

theorem CanonicalOf.strict (canonical : f.CanonicalOf fCanonical) :
    (fCanonical.quadratic.map QuadraticTerm.pair).Pairwise (· < ·) := by
  rw [canonical.keys]
  exact distinctKeys_strict

theorem quadratic_pruneZeros (f : QuadraticFunction (.integer width)) :
    f.pruneZeros.quadratic = nonzero (fun term => term.coeff.toInt) f.quadratic := by
  simp only [pruneZeros, prune, Scalar.less_magnitude_zero, nonzero]

theorem quadraticTerm_determined (left right : QuadraticTerm (.integer width))
    (same_pair : left.pair = right.pair) (same_coeff : left.coeff.toInt = right.coeff.toInt) :
    left = right := by
  cases left
  cases right
  rw [QuadraticTerm.pair, QuadraticTerm.pair, VariablePair.mk.injEq] at same_pair
  rw [QuadraticTerm.mk.injEq]
  exact ⟨Scalar.ext_toInt same_coeff, same_pair⟩

/-- The pairs of the oriented terms agree exactly if the unordered pairs do. -/
theorem CanonicalOf.same_keys_iff (hf : f.CanonicalOf fCanonical) (hg : g.CanonicalOf gCanonical) :
    (∀ pair, pair ∈ fCanonical.quadratic.map QuadraticTerm.pair ↔
        pair ∈ gCanonical.quadratic.map QuadraticTerm.pair) ↔ f.pairs = g.pairs := by
  simp only [hf.keys, hg.keys, mem_distinctKeys, List.map_map]
  exact (same_images_iff QuadraticTerm.pair_orient_eq_iff _ _).trans Set.ext_iff.symm

theorem CanonicalOf.same_totals (hf : f.CanonicalOf fCanonical) (hg : g.CanonicalOf gCanonical)
    (same_coefficients : ∀ pair, f.coefficient pair = g.coefficient pair) (pair : VariablePair) :
    totalAt QuadraticTerm.pair (fun term => term.coeff.toInt) fCanonical.quadratic pair =
      totalAt QuadraticTerm.pair (fun term => term.coeff.toInt) gCanonical.quadratic pair :=
  (hf.coefficients pair).trans ((same_coefficients pair).trans (hg.coefficients pair).symm)

/-- Pairs, coefficients and the affine part determine the canonical form. -/
theorem CanonicalOf.unique (hf : f.CanonicalOf fCanonical) (hg : g.CanonicalOf gCanonical)
    (same_pairs : f.pairs = g.pairs)
    (same_coefficients : ∀ pair, f.coefficient pair = g.coefficient pair)
    (same_affine : fCanonical.affine = gCanonical.affine) : fCanonical = gCanonical := by
  have quadratic_eq := eq_of_totals quadraticTerm_determined hf.strict hg.strict
    ((hf.same_keys_iff hg).mpr same_pairs) (hf.same_totals hg same_coefficients)
  cases fCanonical
  cases gCanonical
  rw [QuadraticFunction.mk.injEq]
  exact ⟨quadratic_eq, same_affine⟩

/-- Without zeros, coefficients and the affine part determine the canonical form. -/
theorem CanonicalOf.unique_pruned (hf : f.CanonicalOf fCanonical) (hg : g.CanonicalOf gCanonical)
    (same_coefficients : ∀ pair, f.coefficient pair = g.coefficient pair)
    (same_affine : fCanonical.affine.pruneZeros = gCanonical.affine.pruneZeros) :
    fCanonical.pruneZeros = gCanonical.pruneZeros := by
  have quadratic_eq : fCanonical.pruneZeros.quadratic = gCanonical.pruneZeros.quadratic := by
    rw [quadratic_pruneZeros, quadratic_pruneZeros]
    exact nonzero_eq_of_totals quadraticTerm_determined hf.strict hg.strict
      (hf.same_totals hg same_coefficients)
  exact congrArg₂ QuadraticFunction.mk quadratic_eq same_affine

end QuadraticFunction

/-! ## The normal form -/

theorem AffineFunction.canonicalize_eq_iff
    {f g fCanonical gCanonical : AffineFunction (.integer width)}
    (f_succeeds : f.canonicalize = .ok fCanonical) (g_succeeds : g.canonicalize = .ok gCanonical) :
    fCanonical = gCanonical ↔
      f.variables = g.variables ∧ ∀ point, f.value point = g.value point := by
  have hf := canonicalOf_of_canonicalize f_succeeds
  have hg := canonicalOf_of_canonicalize g_succeeds
  constructor
  · rintro rfl
    constructor
    · ext x
      rw [← hf.mem_variables, ← hg.mem_variables]
    · intro point
      rw [← f.canonicalize_yields.result f_succeeds, ← g.canonicalize_yields.result g_succeeds]
  · rintro ⟨same_variables, same_values⟩
    exact hf.unique hg same_variables (coefficient_eq_of_value same_values)
      (constant_eq_of_value same_values)

theorem AffineFunction.canonicalize_pruneZeros_eq_iff
    {f g fCanonical gCanonical : AffineFunction (.integer width)}
    (f_succeeds : f.canonicalize = .ok fCanonical) (g_succeeds : g.canonicalize = .ok gCanonical) :
    fCanonical.pruneZeros = gCanonical.pruneZeros ↔ ∀ point, f.value point = g.value point := by
  have hf := canonicalOf_of_canonicalize f_succeeds
  have hg := canonicalOf_of_canonicalize g_succeeds
  constructor
  · intro same point
    rw [← f.canonicalize_yields.result f_succeeds, ← g.canonicalize_yields.result g_succeeds,
      ← fCanonical.value_pruneZeros, same, gCanonical.value_pruneZeros]
  · intro same_values
    exact hf.unique_pruned hg (coefficient_eq_of_value same_values)
      (constant_eq_of_value same_values)

theorem QuadraticFunction.canonicalize_eq_iff
    {f g fCanonical gCanonical : QuadraticFunction (.integer width)}
    (f_succeeds : f.canonicalize = .ok fCanonical) (g_succeeds : g.canonicalize = .ok gCanonical) :
    fCanonical = gCanonical ↔
      f.affine.variables = g.affine.variables ∧ f.pairs = g.pairs ∧
        ∀ point, f.value point = g.value point := by
  have hf := canonicalOf_of_canonicalize f_succeeds
  have hg := canonicalOf_of_canonicalize g_succeeds
  constructor
  · rintro rfl
    refine ⟨?_, (hf.same_keys_iff hg).mp fun _ => Iff.rfl, ?_⟩
    · ext x
      rw [← hf.affine.mem_variables, ← hg.affine.mem_variables]
    · intro point
      rw [← f.canonicalize_yields.result f_succeeds, ← g.canonicalize_yields.result g_succeeds]
  · rintro ⟨same_variables, same_pairs, same_values⟩
    apply hf.unique hg same_pairs (coefficient_eq_of_value same_values)
    exact hf.affine.unique hg.affine same_variables (fun x => (square_eq_of_value same_values x).2)
      (constant_eq_of_value same_values)

theorem QuadraticFunction.canonicalize_pruneZeros_eq_iff
    {f g fCanonical gCanonical : QuadraticFunction (.integer width)}
    (f_succeeds : f.canonicalize = .ok fCanonical) (g_succeeds : g.canonicalize = .ok gCanonical) :
    fCanonical.pruneZeros = gCanonical.pruneZeros ↔ ∀ point, f.value point = g.value point := by
  have hf := canonicalOf_of_canonicalize f_succeeds
  have hg := canonicalOf_of_canonicalize g_succeeds
  constructor
  · intro same point
    rw [← f.canonicalize_yields.result f_succeeds, ← g.canonicalize_yields.result g_succeeds,
      ← fCanonical.value_pruneZeros, same, gCanonical.value_pruneZeros]
  · intro same_values
    apply hf.unique_pruned hg (coefficient_eq_of_value same_values)
    exact hf.affine.unique_pruned hg.affine (fun x => (square_eq_of_value same_values x).2)
      (constant_eq_of_value same_values)

/-- Canonical functions compare equal exactly if the functions that they were made from mention the
same variables and unordered pairs and have the same value at every point; without the terms of
coefficient zero, exactly if the values are the same. -/
theorem canonical_form_complete (width : IntWidth) :
    (∀ f g fCanonical gCanonical : AffineFunction (.integer width),
      f.canonicalize = .ok fCanonical → g.canonicalize = .ok gCanonical →
        ((fCanonical == gCanonical) = true ↔
          f.variables = g.variables ∧ ∀ point, f.value point = g.value point) ∧
        ((fCanonical.pruneZeros == gCanonical.pruneZeros) = true ↔
          ∀ point, f.value point = g.value point)) ∧
    ∀ f g fCanonical gCanonical : QuadraticFunction (.integer width),
      f.canonicalize = .ok fCanonical → g.canonicalize = .ok gCanonical →
        ((fCanonical == gCanonical) = true ↔
          f.affine.variables = g.affine.variables ∧ f.pairs = g.pairs ∧
            ∀ point, f.value point = g.value point) ∧
        ((fCanonical.pruneZeros == gCanonical.pruneZeros) = true ↔
          ∀ point, f.value point = g.value point) := by
  constructor
  · intro f g fCanonical gCanonical f_succeeds g_succeeds
    rw [beq_iff_eq, beq_iff_eq]
    exact ⟨AffineFunction.canonicalize_eq_iff f_succeeds g_succeeds,
      AffineFunction.canonicalize_pruneZeros_eq_iff f_succeeds g_succeeds⟩
  · intro f g fCanonical gCanonical f_succeeds g_succeeds
    rw [beq_iff_eq, beq_iff_eq]
    exact ⟨QuadraticFunction.canonicalize_eq_iff f_succeeds g_succeeds,
      QuadraticFunction.canonicalize_pruneZeros_eq_iff f_succeeds g_succeeds⟩

/-- The sum `x2 + x1 + x1`. -/
def splitSum : AffineFunction (.integer .bits8) :=
  ⟨[⟨.one, ⟨2⟩⟩, ⟨.one, ⟨1⟩⟩, ⟨.one, ⟨1⟩⟩], .zero⟩

/-- The sum `2 * x1 + x2`. -/
def mergedSum : AffineFunction (.integer .bits8) :=
  ⟨[⟨⟨2, by decide, by decide⟩, ⟨1⟩⟩, ⟨.one, ⟨2⟩⟩], .zero⟩

/-- The function `x2 * x1 + x1 * x2` with a split sum as its affine part. -/
def splitProduct : QuadraticFunction (.integer .bits8) :=
  ⟨[⟨.one, ⟨2⟩, ⟨1⟩⟩, ⟨.one, ⟨1⟩, ⟨2⟩⟩], splitSum⟩

/-- The function `2 * x1 * x2` with a merged sum as its affine part. -/
def mergedProduct : QuadraticFunction (.integer .bits8) :=
  ⟨[⟨⟨2, by decide, by decide⟩, ⟨1⟩, ⟨2⟩⟩], mergedSum⟩

theorem splitSum_canonicalize : splitSum.canonicalize = .ok mergedSum := by
  rw [AffineFunction.canonicalize_eq, mergeByKey_eq_filterMapM LinearTerm.addsTotals.preservesKey]
  rfl

theorem mergedSum_canonicalize : mergedSum.canonicalize = .ok mergedSum := by
  rw [AffineFunction.canonicalize_eq, mergeByKey_eq_filterMapM LinearTerm.addsTotals.preservesKey]
  rfl

theorem splitProduct_canonicalize : splitProduct.canonicalize = .ok mergedProduct := by
  rw [QuadraticFunction.canonicalize_eq,
    mergeByKey_eq_filterMapM QuadraticTerm.addsTotals.preservesKey]
  exact bind_eq_ok.mpr ⟨mergedSum, splitSum_canonicalize, rfl⟩

theorem mergedProduct_canonicalize : mergedProduct.canonicalize = .ok mergedProduct := by
  rw [QuadraticFunction.canonicalize_eq,
    mergeByKey_eq_filterMapM QuadraticTerm.addsTotals.preservesKey]
  exact bind_eq_ok.mpr ⟨mergedSum, mergedSum_canonicalize, rfl⟩

theorem canonical_form_complete_split :
    (∀ point, splitSum.value point = mergedSum.value point) ∧
      splitProduct.pairs = mergedProduct.pairs ∧
      ∀ point, splitProduct.value point = mergedProduct.value point := by
  obtain ⟨affine, quadratic⟩ := canonical_form_complete .bits8
  have sums := (affine _ _ _ _ splitSum_canonicalize mergedSum_canonicalize).1.mp
    (beq_self_eq_true mergedSum)
  have products := (quadratic _ _ _ _ splitProduct_canonicalize mergedProduct_canonicalize).1.mp
    (beq_self_eq_true mergedProduct)
  exact ⟨sums.2, products.2⟩

end DegreeTwo
