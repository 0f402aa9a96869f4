import DegreeTwo.Proofs.ExactMerging
import DegreeTwo.Proofs.Sorting.StrictKeys
import DegreeTwo.Proofs.Updates
import DegreeTwo.Proofs.Widening.Functions

/-!
# Canonical functions

A function is canonical if the variables and pairs of its terms ascend strictly and its pairs are
oriented.  This is decided by looking at neighbours and at single terms, and it holds exactly if
canonicalization changes nothing.  It depends on no coefficient, so that every operation keeps it
that drops terms or changes coefficients only; in floating-point types too.
-/

namespace DegreeTwo

variable {S T : ScalarType}

theorem LinearTerm.addLike_preservesKey :
    PreservesKey (var : LinearTerm T → Variable) addLike := by
  intro left right _
  rw [returns_except_iff]
  intro merged adds
  obtain ⟨sum, rfl⟩ := LinearTerm.eq_of_addLike adds
  rfl

theorem QuadraticTerm.addLike_preservesKey :
    PreservesKey (pair : QuadraticTerm T → VariablePair) addLike := by
  intro left right _
  rw [returns_except_iff]
  intro merged adds
  obtain ⟨sum, rfl⟩ := QuadraticTerm.eq_of_addLike adds
  rfl

/-! ## Affine functions -/

namespace AffineFunction

variable {f g : AffineFunction T}

theorem isCanonical_iff_strict :
    f.isCanonical = true ↔ (f.linear.map LinearTerm.var).Pairwise (· < ·) :=
  ascendsStrictly_iff

theorem canonicalize_of_isCanonical (canonical : f.isCanonical = true) :
    f.canonicalize = .ok f := by
  rw [canonicalize_eq, mergeByKey_of_strict (isCanonical_iff_strict.mp canonical)]
  rfl

theorem isCanonical_of_canonicalize (succeeds : f.canonicalize = .ok g) :
    g.isCanonical = true := by
  rw [canonicalize_eq] at succeeds
  obtain ⟨linear, merge, result⟩ := bind_eq_ok.mp succeeds
  cases result
  rw [isCanonical_iff_strict, LinearTerm.addLike_preservesKey.keys_of_merge merge]
  exact distinctKeys_strict

/-- The check tells whether canonicalization changes anything. -/
theorem isCanonical_iff_fixed : f.isCanonical = true ↔ f.canonicalize = .ok f :=
  ⟨canonicalize_of_isCanonical, isCanonical_of_canonicalize⟩

/-- Whoever has no other variables, and these in the old order, is canonical as before. -/
theorem isCanonical_of_sublist (canonical : f.isCanonical = true)
    (vars : (g.linear.map LinearTerm.var).Sublist (f.linear.map LinearTerm.var)) :
    g.isCanonical = true :=
  isCanonical_iff_strict.mpr ((isCanonical_iff_strict.mp canonical).sublist vars)

theorem isCanonical_of_vars (canonical : f.isCanonical = true)
    (vars : g.linear.map LinearTerm.var = f.linear.map LinearTerm.var) : g.isCanonical = true :=
  isCanonical_of_sublist canonical (by rw [vars])

/-- Conversion keeps all variables. -/
theorem isCanonical_widen (h : S ≤ T) (f : AffineFunction S) :
    (f.widen h).isCanonical = f.isCanonical := by
  have vars : (f.widen h).linear.map LinearTerm.var = f.linear.map LinearTerm.var := by
    rw [linear_widen, List.map_map]
    rfl
  rw [isCanonical, vars, isCanonical]

theorem isCanonical_of_overwrite (dest : AffineFunction T) {source : Below AffineFunction T}
    (canonical : source.value.isCanonical = true) : (dest.overwrite source).isCanonical = true := by
  rw [dest.overwrite_eq, ← widen_eq, isCanonical_widen, canonical]

theorem isCanonical_of_addScaledNumber {number : Below Scalar T} {scale : Scalar T}
    (canonical : f.isCanonical = true) (succeeds : f.addScaledNumber number scale = .ok g) :
    g.isCanonical = true := by
  obtain ⟨product, -, adds⟩ := bind_eq_ok.mp succeeds
  obtain ⟨constant, -, result⟩ := bind_eq_ok.mp adds
  cases result
  exact canonical

theorem isCanonical_of_neg (canonical : f.isCanonical = true) (succeeds : f.neg = .ok g) :
    g.isCanonical = true := by
  obtain ⟨linear, mapped, rest⟩ := bind_eq_ok.mp succeeds
  obtain ⟨constant, -, result⟩ := bind_eq_ok.mp rest
  cases result
  exact isCanonical_of_vars canonical
    (map_eq_of_mapM_eq_ok (fun _ _ => LinearTerm.var_of_neg) mapped)

theorem isCanonical_of_scale {number : Scalar T} (canonical : f.isCanonical = true)
    (succeeds : f.scale number = .ok g) : g.isCanonical = true := by
  obtain ⟨linear, mapped, rest⟩ := bind_eq_ok.mp succeeds
  obtain ⟨constant, -, result⟩ := bind_eq_ok.mp rest
  cases result
  exact isCanonical_of_vars canonical
    (map_eq_of_mapM_eq_ok (fun _ _ => LinearTerm.var_of_scale) mapped)

theorem isCanonical_prune (tolerance : Scalar T) (canonical : f.isCanonical = true) :
    (f.prune tolerance).isCanonical = true :=
  isCanonical_of_sublist canonical (List.filter_sublist.map LinearTerm.var)

theorem isCanonical_truncateLinear (len : Nat) (canonical : f.isCanonical = true) :
    (f.truncateLinear len).isCanonical = true :=
  isCanonical_of_sublist canonical ((List.take_sublist len f.linear).map LinearTerm.var)

end AffineFunction

/-- The updates that add no variable and move no term: they drop terms, change coefficients or the
constant, or replace the function by a canonical one, which may have to be converted. -/
inductive AffineUpdate.KeepsCanonical : AffineUpdate T → Prop
  | clear : KeepsCanonical .clear
  | set {value : AffineFunction T} (canonical : value.isCanonical = true) :
      KeepsCanonical (.set value)
  | convert {source : Below AffineFunction T} (canonical : source.value.isCanonical = true) :
      KeepsCanonical (.set (source.value.widen source.source_le))
  | overwrite {source : Below AffineFunction T} (canonical : source.value.isCanonical = true) :
      KeepsCanonical (.overwrite source)
  | addNumber (number : Below Scalar T) : KeepsCanonical (.add (.number number))
  | subNumber (number : Below Scalar T) : KeepsCanonical (.sub (.number number))
  | addScaledNumber (number : Below Scalar T) (scale : Scalar T) :
      KeepsCanonical (.addScaled (.number number) scale)
  | canonicalize : KeepsCanonical .canonicalize
  | prune (tolerance : Scalar T) : KeepsCanonical (.prune tolerance)
  | pruneZeros : KeepsCanonical .pruneZeros
  | setConstant (constant : Scalar T) : KeepsCanonical (.setConstant constant)
  | truncateLinear (len : Nat) : KeepsCanonical (.truncateLinear len)
  | neg : KeepsCanonical .neg
  | scale (number : Scalar T) : KeepsCanonical (.scale number)

/-- One step keeps a function canonical. -/
theorem AffineUpdate.KeepsCanonical.step {update : AffineUpdate T} (keeps : update.KeepsCanonical)
    {before after : AffineFunction T} (canonical : before.isCanonical = true)
    (applies : update.apply before = .ok after) : after.isCanonical = true := by
  rw [AffineUpdate.apply_eq] at applies
  cases keeps with
  | clear => cases applies; rfl
  | set value_canonical => cases applies; exact value_canonical
  | convert source_canonical =>
      cases applies
      rw [AffineFunction.isCanonical_widen, source_canonical]
  | overwrite source_canonical =>
      cases applies
      exact before.isCanonical_of_overwrite source_canonical
  | addNumber number =>
      exact AffineFunction.isCanonical_of_addScaledNumber canonical (lift_eq_ok.mp applies)
  | subNumber number =>
      exact AffineFunction.isCanonical_of_addScaledNumber canonical (lift_eq_ok.mp applies)
  | addScaledNumber number scale =>
      exact AffineFunction.isCanonical_of_addScaledNumber canonical (lift_eq_ok.mp applies)
  | canonicalize => exact AffineFunction.isCanonical_of_canonicalize (lift_eq_ok.mp applies)
  | prune tolerance => cases applies; exact AffineFunction.isCanonical_prune tolerance canonical
  | pruneZeros => cases applies; exact AffineFunction.isCanonical_prune .zero canonical
  | setConstant constant => cases applies; exact canonical
  | truncateLinear len =>
      cases applies
      exact AffineFunction.isCanonical_truncateLinear len canonical
  | neg => exact AffineFunction.isCanonical_of_neg canonical (lift_eq_ok.mp applies)
  | scale number => exact AffineFunction.isCanonical_of_scale canonical (lift_eq_ok.mp applies)

/-! ## Quadratic functions -/

namespace QuadraticTerm

theorem pair_of_scale {term scaled : QuadraticTerm T} {number : Scalar T}
    (scales : term.scale number = .ok scaled) : scaled.pair = term.pair := by
  obtain ⟨coeff, -, result⟩ := bind_eq_ok.mp scales
  cases result
  rfl

theorem pair_of_neg {term opposite : QuadraticTerm T} (negates : term.neg = .ok opposite) :
    opposite.pair = term.pair := by
  obtain ⟨coeff, -, result⟩ := bind_eq_ok.mp negates
  cases result
  rfl

end QuadraticTerm

/-- The pairs are oriented, and they ascend strictly. -/
structure VariablePair.Canonical (pairs : List VariablePair) : Prop where
  /-- No row is greater than its column. -/
  oriented : ∀ pair ∈ pairs, pair.row ≤ pair.col
  /-- The pairs ascend, by their rows first. -/
  strict : pairs.Pairwise (· < ·)

theorem VariablePair.Canonical.sublist {pairs rest : List VariablePair}
    (canonical : Canonical pairs) (part : rest.Sublist pairs) : Canonical rest :=
  ⟨fun pair member => canonical.oriented pair (part.subset member),
    canonical.strict.sublist part⟩

namespace QuadraticFunction

variable {f g : QuadraticFunction T}

theorem oriented_iff : f.quadratic.all QuadraticTerm.isOriented = true ↔
    ∀ pair ∈ f.quadratic.map QuadraticTerm.pair, pair.row ≤ pair.col := by
  rw [List.all_eq_true, List.forall_mem_map]
  exact forall₂_congr fun _ _ => decide_eq_true_iff

/-- The two tests of pairs read them with the lesser variable first; of oriented terms these are
the pairs themselves. -/
theorem isCanonical_iff_pairs : f.isCanonical = true ↔
    f.affine.isCanonical = true ∧
      VariablePair.Canonical (f.quadratic.map QuadraticTerm.pair) := by
  rw [isCanonical, Bool.and_eq_true, Bool.and_eq_true, oriented_iff, ascendsStrictly_iff, and_assoc]
  have same_pairs (oriented : ∀ pair ∈ f.quadratic.map QuadraticTerm.pair, pair.row ≤ pair.col) :
      f.quadratic.map QuadraticTerm.orientedPair = f.quadratic.map QuadraticTerm.pair :=
    List.map_congr_left fun term member => if_pos (oriented _ (List.mem_map_of_mem member))
  constructor
  · rintro ⟨affine, oriented, strict⟩
    rw [same_pairs oriented] at strict
    exact ⟨affine, oriented, strict⟩
  · rintro ⟨affine, oriented, strict⟩
    rw [same_pairs oriented]
    exact ⟨affine, oriented, strict⟩

theorem canonicalize_of_isCanonical (canonical : f.isCanonical = true) :
    f.canonicalize = .ok f := by
  obtain ⟨affine, oriented, strict⟩ := isCanonical_iff_pairs.mp canonical
  have kept : f.quadratic.map QuadraticTerm.orient = f.quadratic :=
    (List.map_congr_left fun term member => QuadraticTerm.orient_of_oriented
      (oriented _ (List.mem_map_of_mem member))).trans (List.map_id _)
  rw [canonicalize_eq, AffineFunction.canonicalize_of_isCanonical affine, ok_bind, kept,
    mergeByKey_of_strict strict]
  rfl

/-- The pairs of a canonical form are those of oriented terms. -/
theorem isCanonical_of_canonicalize (succeeds : f.canonicalize = .ok g) :
    g.isCanonical = true := by
  rw [canonicalize_eq] at succeeds
  obtain ⟨affine, affine_succeeds, rest⟩ := bind_eq_ok.mp succeeds
  obtain ⟨quadratic, merge, result⟩ := bind_eq_ok.mp rest
  cases result
  have pairs := QuadraticTerm.addLike_preservesKey.keys_of_merge merge
  rw [isCanonical_iff_pairs, pairs]
  refine ⟨AffineFunction.isCanonical_of_canonicalize affine_succeeds, ?_, distinctKeys_strict⟩
  intro pair occurs
  rw [mem_distinctKeys, List.map_map] at occurs
  obtain ⟨term, -, rfl⟩ := List.mem_map.mp occurs
  exact term.orient_row_le_col

/-- The check tells whether canonicalization changes anything. -/
theorem isCanonical_iff_fixed : f.isCanonical = true ↔ f.canonicalize = .ok f :=
  ⟨canonicalize_of_isCanonical, isCanonical_of_canonicalize⟩

/-- Whoever has no other pairs, and these in the old order, is canonical as before. -/
theorem isCanonical_of_sublist (canonical : f.isCanonical = true)
    (affine : g.affine.isCanonical = true)
    (pairs : (g.quadratic.map QuadraticTerm.pair).Sublist (f.quadratic.map QuadraticTerm.pair)) :
    g.isCanonical = true :=
  isCanonical_iff_pairs.mpr ⟨affine, (isCanonical_iff_pairs.mp canonical).2.sublist pairs⟩

theorem isCanonical_of_pairs (canonical : f.isCanonical = true)
    (affine : g.affine.isCanonical = true)
    (pairs : g.quadratic.map QuadraticTerm.pair = f.quadratic.map QuadraticTerm.pair) :
    g.isCanonical = true :=
  isCanonical_of_sublist canonical affine (by rw [pairs])

theorem isCanonical_affine (canonical : f.isCanonical = true) : f.affine.isCanonical = true :=
  (isCanonical_iff_pairs.mp canonical).1

/-- Conversion keeps all variables and pairs. -/
theorem isCanonical_widen (h : S ≤ T) (f : QuadraticFunction S) :
    (f.widen h).isCanonical = f.isCanonical := by
  have pairs : (f.widen h).quadratic.map QuadraticTerm.pair =
      f.quadratic.map QuadraticTerm.pair := by
    rw [quadratic_widen, List.map_map]
    rfl
  rw [Bool.eq_iff_iff, isCanonical_iff_pairs, isCanonical_iff_pairs, pairs, affine_widen,
    AffineFunction.isCanonical_widen]

theorem isCanonical_of_overwrite (dest : QuadraticFunction T) {source : Below QuadraticFunction T}
    (canonical : source.value.isCanonical = true) : (dest.overwrite source).isCanonical = true := by
  have copied : dest.overwrite source = source.value.widen source.source_le := by
    rw [dest.overwrite_eq, widen_eq, AffineFunction.widen_eq]
  rw [copied, isCanonical_widen, canonical]

theorem isCanonical_of_neg (canonical : f.isCanonical = true) (succeeds : f.neg = .ok g) :
    g.isCanonical = true := by
  obtain ⟨quadratic, mapped, rest⟩ := bind_eq_ok.mp succeeds
  obtain ⟨affine, affine_succeeds, result⟩ := bind_eq_ok.mp rest
  cases result
  exact isCanonical_of_pairs canonical
    (AffineFunction.isCanonical_of_neg (isCanonical_affine canonical) affine_succeeds)
    (map_eq_of_mapM_eq_ok (fun _ _ => QuadraticTerm.pair_of_neg) mapped)

theorem isCanonical_of_scale {number : Scalar T} (canonical : f.isCanonical = true)
    (succeeds : f.scale number = .ok g) : g.isCanonical = true := by
  obtain ⟨quadratic, mapped, rest⟩ := bind_eq_ok.mp succeeds
  obtain ⟨affine, affine_succeeds, result⟩ := bind_eq_ok.mp rest
  cases result
  exact isCanonical_of_pairs canonical
    (AffineFunction.isCanonical_of_scale (isCanonical_affine canonical) affine_succeeds)
    (map_eq_of_mapM_eq_ok (fun _ _ => QuadraticTerm.pair_of_scale) mapped)

theorem isCanonical_prune (tolerance : Scalar T) (canonical : f.isCanonical = true) :
    (f.prune tolerance).isCanonical = true :=
  isCanonical_of_sublist canonical
    (AffineFunction.isCanonical_prune tolerance (isCanonical_affine canonical))
    (List.filter_sublist.map QuadraticTerm.pair)

theorem isCanonical_truncateQuadratic (len : Nat) (canonical : f.isCanonical = true) :
    (f.truncateQuadratic len).isCanonical = true :=
  have affine : f.affine.isCanonical = true := isCanonical_affine canonical
  isCanonical_of_sublist canonical affine
    ((List.take_sublist len f.quadratic).map QuadraticTerm.pair)

/-- An update of the affine part that keeps it canonical keeps the function canonical. -/
theorem isCanonical_of_affine {update : AffineUpdate T} (keeps : update.KeepsCanonical)
    (canonical : f.isCanonical = true)
    (applies : (QuadraticUpdate.affine update).apply f = .ok g) : g.isCanonical = true := by
  rw [QuadraticUpdate.apply_eq] at applies
  obtain ⟨affine, affine_applies, result⟩ := bind_eq_ok.mp applies
  cases result
  exact isCanonical_of_pairs canonical (keeps.step (isCanonical_affine canonical) affine_applies)
    rfl

end QuadraticFunction

/-- The updates that add no variable or pair and move no term. -/
inductive QuadraticUpdate.KeepsCanonical : QuadraticUpdate T → Prop
  | clear : KeepsCanonical .clear
  | set {value : QuadraticFunction T} (canonical : value.isCanonical = true) :
      KeepsCanonical (.set value)
  | convert {source : Below QuadraticFunction T} (canonical : source.value.isCanonical = true) :
      KeepsCanonical (.set (source.value.widen source.source_le))
  | overwrite {source : Below QuadraticFunction T} (canonical : source.value.isCanonical = true) :
      KeepsCanonical (.overwrite source)
  | addNumber (number : Below Scalar T) : KeepsCanonical (.add (.affine (.number number)))
  | subNumber (number : Below Scalar T) : KeepsCanonical (.sub (.affine (.number number)))
  | addScaledNumber (number : Below Scalar T) (scale : Scalar T) :
      KeepsCanonical (.addScaled (.affine (.number number)) scale)
  | canonicalize : KeepsCanonical .canonicalize
  | prune (tolerance : Scalar T) : KeepsCanonical (.prune tolerance)
  | pruneZeros : KeepsCanonical .pruneZeros
  | truncateQuadratic (len : Nat) : KeepsCanonical (.truncateQuadratic len)
  | neg : KeepsCanonical .neg
  | scale (number : Scalar T) : KeepsCanonical (.scale number)
  | affine {update : AffineUpdate T} (keeps : update.KeepsCanonical) :
      KeepsCanonical (.affine update)

/-- One step keeps a function canonical. -/
theorem QuadraticUpdate.KeepsCanonical.step {update : QuadraticUpdate T}
    (keeps : update.KeepsCanonical) {before after : QuadraticFunction T}
    (canonical : before.isCanonical = true) (applies : update.apply before = .ok after) :
    after.isCanonical = true := by
  -- A number is added through the affine part.
  have adds_number {number : Below Scalar T} {scale : Scalar T}
      (adds : before.addScaled (.affine (.number number)) scale = .ok after) :
      after.isCanonical = true := by
    obtain ⟨affine, affine_adds, result⟩ := bind_eq_ok.mp adds
    cases result
    exact QuadraticFunction.isCanonical_of_pairs canonical
      (AffineFunction.isCanonical_of_addScaledNumber
        (QuadraticFunction.isCanonical_affine canonical) affine_adds) rfl
  rw [QuadraticUpdate.apply_eq] at applies
  cases keeps with
  | clear => cases applies; rfl
  | set value_canonical => cases applies; exact value_canonical
  | convert source_canonical =>
      cases applies
      rw [QuadraticFunction.isCanonical_widen, source_canonical]
  | overwrite source_canonical =>
      cases applies
      exact before.isCanonical_of_overwrite source_canonical
  | addNumber number => exact adds_number (lift_eq_ok.mp applies)
  | subNumber number => exact adds_number (lift_eq_ok.mp applies)
  | addScaledNumber number scale => exact adds_number (lift_eq_ok.mp applies)
  | canonicalize => exact QuadraticFunction.isCanonical_of_canonicalize (lift_eq_ok.mp applies)
  | prune tolerance => cases applies; exact QuadraticFunction.isCanonical_prune tolerance canonical
  | pruneZeros => cases applies; exact QuadraticFunction.isCanonical_prune .zero canonical
  | truncateQuadratic len =>
      cases applies
      exact QuadraticFunction.isCanonical_truncateQuadratic len canonical
  | neg => exact QuadraticFunction.isCanonical_of_neg canonical (lift_eq_ok.mp applies)
  | scale number => exact QuadraticFunction.isCanonical_of_scale canonical (lift_eq_ok.mp applies)
  | affine keeps =>
      exact QuadraticFunction.isCanonical_of_affine keeps canonical
        ((QuadraticUpdate.apply_eq _ before).trans applies)

/-! ## Runs -/

/-- A run that canonicalizes and then only takes steps that keep a function canonical ends with a
canonical function, which another canonicalization leaves as it is. -/
theorem AffineFunction.run_after_canonicalize {front back : List (AffineUpdate T)}
    (keep : ∀ update ∈ back, update.KeepsCanonical) {start final : AffineFunction T}
    (run : start.run (front ++ .canonicalize :: back) = .ok final) :
    final.isCanonical = true ∧ final.canonicalize = .ok final := by
  have canonical : final.isCanonical = true := by
    rw [run_eq] at run
    apply runUpdates_keeps_after (·.isCanonical = true) _ _ run
    · intro before after settles
      rw [AffineUpdate.apply_eq] at settles
      exact isCanonical_of_canonicalize ((settle_lift before _).symm.trans settles)
    · intro update member before after holds applies
      exact (keep update member).step holds applies
  exact ⟨canonical, canonicalize_of_isCanonical canonical⟩

/-- A run that canonicalizes and then only takes steps that keep a function canonical ends with a
canonical function, which another canonicalization leaves as it is. -/
theorem QuadraticFunction.run_after_canonicalize {front back : List (QuadraticUpdate T)}
    (keep : ∀ update ∈ back, update.KeepsCanonical) {start final : QuadraticFunction T}
    (run : start.run (front ++ .canonicalize :: back) = .ok final) :
    final.isCanonical = true ∧ final.canonicalize = .ok final := by
  have canonical : final.isCanonical = true := by
    rw [run_eq] at run
    apply runUpdates_keeps_after (·.isCanonical = true) _ _ run
    · intro before after settles
      rw [QuadraticUpdate.apply_eq] at settles
      exact isCanonical_of_canonicalize ((settle_lift before _).symm.trans settles)
    · intro update member before after holds applies
      exact (keep update member).step holds applies
  exact ⟨canonical, canonicalize_of_isCanonical canonical⟩

/-- In every coefficient type, a function is canonical exactly if canonicalization returns it as it
is; what canonicalization returns is canonical, so that a second one changes nothing; conversion
neither makes a function canonical nor stops it from being so; and after a canonicalization every
state stays canonical that a run reaches by pruning, scaling, negating, adding numbers, truncating,
clearing, and taking over canonical functions. -/
theorem canonicality (T : ScalarType) :
    (∀ f : AffineFunction T,
      (f.isCanonical = true ↔ f.canonicalize = .ok f) ∧
      (∀ g, f.canonicalize = .ok g → g.isCanonical = true ∧ g.canonicalize = .ok g) ∧
      (∀ (U : ScalarType) (h : T ≤ U), (f.widen h).isCanonical = f.isCanonical) ∧
      ∀ front back, (∀ update ∈ back, update.KeepsCanonical) → ∀ state,
        f.run (front ++ .canonicalize :: back) = .ok state →
        state.isCanonical = true ∧ state.canonicalize = .ok state) ∧
    ∀ f : QuadraticFunction T,
      (f.isCanonical = true ↔ f.canonicalize = .ok f) ∧
      (∀ g, f.canonicalize = .ok g → g.isCanonical = true ∧ g.canonicalize = .ok g) ∧
      (∀ (U : ScalarType) (h : T ≤ U), (f.widen h).isCanonical = f.isCanonical) ∧
      ∀ front back, (∀ update ∈ back, update.KeepsCanonical) → ∀ state,
        f.run (front ++ .canonicalize :: back) = .ok state →
        state.isCanonical = true ∧ state.canonicalize = .ok state := by
  constructor
  · intro f
    refine ⟨AffineFunction.isCanonical_iff_fixed, fun g succeeds => ?_,
      fun _ h => AffineFunction.isCanonical_widen h f,
      fun front back keep state run => AffineFunction.run_after_canonicalize keep run⟩
    have canonical := AffineFunction.isCanonical_of_canonicalize succeeds
    exact ⟨canonical, AffineFunction.canonicalize_of_isCanonical canonical⟩
  · intro f
    refine ⟨QuadraticFunction.isCanonical_iff_fixed, fun g succeeds => ?_,
      fun _ h => QuadraticFunction.isCanonical_widen h f,
      fun front back keep state run => QuadraticFunction.run_after_canonicalize keep run⟩
    have canonical := QuadraticFunction.isCanonical_of_canonicalize succeeds
    exact ⟨canonical, QuadraticFunction.canonicalize_of_isCanonical canonical⟩

/-- Change the sign, drop small terms, multiply by seven, add one and keep one linear term. -/
def reducingUpdates : List (QuadraticUpdate (.integer .bits8)) :=
  [.neg, .prune .one, .scale ⟨7, by decide, by decide⟩, .add (.affine (.number (.same .one))),
    .affine (.truncateLinear 1)]

/-- The function `-14 * x1 * x2 - 14 * x1 + 1`. -/
def reducedProduct : QuadraticFunction (.integer .bits8) :=
  ⟨[⟨⟨-14, by decide, by decide⟩, ⟨1⟩, ⟨2⟩⟩], [⟨⟨-14, by decide, by decide⟩, ⟨1⟩⟩], .one⟩

theorem reducingUpdates_keepCanonical : ∀ update ∈ reducingUpdates, update.KeepsCanonical := by
  simp only [reducingUpdates, List.forall_mem_cons, List.not_mem_nil, false_imp_iff, implies_true,
    and_true]
  exact ⟨.neg, .prune _, .scale _, .addNumber _, .affine (.truncateLinear 1)⟩

theorem run_reducingUpdates :
    splitProduct.run (.canonicalize :: reducingUpdates) = .ok reducedProduct := by
  have first : settle splitProduct (QuadraticUpdate.canonicalize.apply splitProduct) =
      .ok mergedProduct := by
    rw [QuadraticUpdate.apply_eq]
    exact (settle_lift splitProduct _).trans splitProduct_canonicalize
  rw [QuadraticFunction.run_eq, runUpdates_cons, first]
  rfl

theorem canonicality_reduced :
    (AffineFunction.canonicalize ⟨[⟨.one, ⟨2⟩⟩, ⟨.minusOne, ⟨3⟩⟩], .one⟩ :
        Except Fault (AffineFunction .double)) =
      .ok ⟨[⟨.one, ⟨2⟩⟩, ⟨.minusOne, ⟨3⟩⟩], .one⟩ ∧
      splitProduct.canonicalize ≠ .ok splitProduct ∧
      mergedProduct.isCanonical = true ∧
      reducedProduct.isCanonical = true ∧ reducedProduct.canonicalize = .ok reducedProduct := by
  obtain ⟨double, -⟩ := canonicality .double
  obtain ⟨-, bits8⟩ := canonicality (.integer .bits8)
  refine ⟨?_, ?_, ?_, ?_⟩
  · exact (double ⟨[⟨.one, ⟨2⟩⟩, ⟨.minusOne, ⟨3⟩⟩], .one⟩).1.mp rfl
  · exact fun fixed => absurd ((bits8 splitProduct).1.mpr fixed) (by decide)
  · exact ((bits8 splitProduct).2.1 mergedProduct splitProduct_canonicalize).1
  · exact (bits8 splitProduct).2.2.2 [] reducingUpdates reducingUpdates_keepCanonical
      reducedProduct run_reducingUpdates

end DegreeTwo
