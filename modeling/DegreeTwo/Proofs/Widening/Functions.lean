import DegreeTwo.Proofs.Widening.Basic

/-!
# Functions with wider coefficients

Widening the coefficients of a function commutes with every operation on a single function: with
negation, scaling, merging, pruning and evaluation.  Sorting takes the same decisions, because they
depend on variables only.
-/

namespace DegreeTwo

variable {R S T : ScalarType}

/-! ## Terms -/

namespace LinearTerm

theorem var_widen (h : S ≤ T) (term : LinearTerm S) : (term.widen h).var = term.var := rfl

theorem widen_widen [T.IsInteger] (first : R ≤ S) (second : S ≤ T) (term : LinearTerm R) :
    (term.widen first).widen second = term.widen (ScalarType.le_trans first second) :=
  congrArg (LinearTerm.mk · term.var) (Scalar.widen_widen first second term.coeff)

theorem neg_simulates [T.IsInteger] (h : S ≤ T) (term : LinearTerm S) :
    Simulates (widen h) term.neg (term.widen h).neg :=
  (Scalar.neg_simulates h term.coeff).bind fun _ => .pure rfl

theorem scale_simulates [T.IsInteger] (h : S ≤ T) (term : LinearTerm S) (number : Scalar S) :
    Simulates (widen h) (term.scale number) ((term.widen h).scale (number.widen h)) :=
  (Scalar.mul_simulates h term.coeff number).bind fun _ => .pure rfl

theorem times_simulates [T.IsInteger] (h : S ≤ T) (left right : LinearTerm S) :
    Simulates (QuadraticTerm.widen h) (left.times right) ((left.widen h).times (right.widen h)) :=
  (Scalar.mul_simulates h left.coeff right.coeff).bind fun _ => .pure rfl

theorem addLike_simulates [T.IsInteger] (h : S ≤ T) (left right : LinearTerm S) :
    Simulates (widen h) (left.addLike right) ((left.widen h).addLike (right.widen h)) :=
  (Scalar.add_simulates h left.coeff right.coeff).bind fun _ => .pure rfl

end LinearTerm

namespace QuadraticTerm

theorem pair_widen (h : S ≤ T) (term : QuadraticTerm S) : (term.widen h).pair = term.pair := rfl

theorem widen_widen [T.IsInteger] (first : R ≤ S) (second : S ≤ T) (term : QuadraticTerm R) :
    (term.widen first).widen second = term.widen (ScalarType.le_trans first second) :=
  congrArg (QuadraticTerm.mk · term.row term.col) (Scalar.widen_widen first second term.coeff)

theorem neg_simulates [T.IsInteger] (h : S ≤ T) (term : QuadraticTerm S) :
    Simulates (widen h) term.neg (term.widen h).neg :=
  (Scalar.neg_simulates h term.coeff).bind fun _ => .pure rfl

theorem scale_simulates [T.IsInteger] (h : S ≤ T) (term : QuadraticTerm S) (number : Scalar S) :
    Simulates (widen h) (term.scale number) ((term.widen h).scale (number.widen h)) :=
  (Scalar.mul_simulates h term.coeff number).bind fun _ => .pure rfl

theorem addLike_simulates [T.IsInteger] (h : S ≤ T) (left right : QuadraticTerm S) :
    Simulates (widen h) (left.addLike right) ((left.widen h).addLike (right.widen h)) :=
  (Scalar.add_simulates h left.coeff right.coeff).bind fun _ => .pure rfl

theorem orient_widen (h : S ≤ T) (term : QuadraticTerm S) :
    (term.widen h).orient = term.orient.widen h := by
  rw [orient, orient, apply_ite (widen h)]
  rfl

end QuadraticTerm

/-! ## Merging -/

section Merging

variable {α β κ : Type} [LinearOrder κ] {key : α → κ} {key' : β → κ} {image : α → β}

theorem distinctKeys_map (same_key : ∀ value, key' (image value) = key value) (values : List α) :
    distinctKeys key' (values.map image) = distinctKeys key values := by
  rw [distinctKeys, distinctKeys, List.map_map]
  exact congrArg (fun keys : List κ => keys.dedup.insertionSort (· ≤ ·))
    (List.map_congr_left fun value _ => same_key value)

theorem withKey_map (same_key : ∀ value, key' (image value) = key value) (values : List α)
    (k : κ) : withKey key' (values.map image) k = (withKey key values k).map image := by
  rw [withKey, withKey, List.filter_map]
  exact congrArg (List.map image) (List.filter_congr fun value _ => by
    rw [Function.comp_apply, same_key])

/-- Merging depends on the keys, and on what combining makes of the values. -/
theorem mergeByKey_simulates {combine : α → α → Except Fault α} {combine' : β → β → Except Fault β}
    (same_key : ∀ value, key' (image value) = key value) (preserves : PreservesKey key combine)
    (preserves' : PreservesKey key' combine')
    (simulates : ∀ left right,
      Simulates image (combine left right) (combine' (image left) (image right)))
    (values : List α) :
    Simulates (List.map image) (mergeByKey key combine values)
      (mergeByKey key' combine' (values.map image)) := by
  rw [mergeByKey_eq_filterMapM preserves, mergeByKey_eq_filterMapM preserves',
    distinctKeys_map same_key]
  apply Simulates.filterMapM
  intro k
  rw [withKey_map same_key]
  cases withKey key values k with
  | nil => exact .pure rfl
  | cons first rest =>
      exact (Simulates.foldlM (fun right _ left => simulates left right) first).map fun _ => rfl

end Merging

/-! ## Affine functions -/

namespace AffineFunction

theorem widen_eq (h : S ≤ T) (f : AffineFunction S) :
    f.widen h = ⟨f.linear.map (LinearTerm.widen h), f.constant.widen h⟩ :=
  zero.overwrite_eq ⟨S, h, f⟩

@[simp]
theorem linear_widen (h : S ≤ T) (f : AffineFunction S) :
    (f.widen h).linear = f.linear.map (LinearTerm.widen h) := by rw [widen_eq]

@[simp]
theorem constant_widen (h : S ≤ T) (f : AffineFunction S) :
    (f.widen h).constant = f.constant.widen h := by rw [widen_eq]

theorem neg_simulates [T.IsInteger] (h : S ≤ T) (f : AffineFunction S) :
    Simulates (widen h) f.neg (f.widen h).neg := by
  rw [neg, neg, linear_widen, constant_widen, List.mapM_map]
  apply (Simulates.mapM f.linear fun term => term.neg_simulates h).bind
  intro linear
  apply (Scalar.neg_simulates h f.constant).bind
  intro constant
  exact .pure (widen_eq h _)

theorem scale_simulates [T.IsInteger] (h : S ≤ T) (f : AffineFunction S) (number : Scalar S) :
    Simulates (widen h) (f.scale number) ((f.widen h).scale (number.widen h)) := by
  rw [scale, scale, linear_widen, constant_widen, List.mapM_map]
  apply (Simulates.mapM f.linear fun term => term.scale_simulates h number).bind
  intro linear
  apply (Scalar.mul_simulates h f.constant number).bind
  intro constant
  exact .pure (widen_eq h _)

variable {narrow wide : IntWidth}

theorem canonicalize_simulates (h : ScalarType.integer narrow ≤ .integer wide)
    (f : AffineFunction (.integer narrow)) :
    Simulates (widen h) f.canonicalize (f.widen h).canonicalize := by
  rw [canonicalize_eq, canonicalize_eq, linear_widen, constant_widen]
  have merges := mergeByKey_simulates (LinearTerm.var_widen h) LinearTerm.addsTotals.preservesKey
    LinearTerm.addsTotals.preservesKey (LinearTerm.addLike_simulates h) f.linear
  exact merges.bind fun linear => .pure (widen_eq h _)

theorem prune_widen (h : ScalarType.integer narrow ≤ .integer wide)
    {tolerance : Scalar (.integer narrow)} (below : tolerance ≠ BoundedInt.greatest)
    (f : AffineFunction (.integer narrow)) :
    (f.widen h).prune (tolerance.widen h) = (f.prune tolerance).widen h := by
  rw [widen_eq, widen_eq, prune, prune, List.filter_map]
  simp only [Function.comp_def, LinearTerm.widen, Scalar.less_magnitude_widen h below]

/-- The value of a function in the common type is met again in the wider common type. -/
theorem evaluate_simulates {V : ScalarType} [T.IsInteger] [V.IsInteger] (h : S ≤ T)
    (f : AffineFunction S) (values : Assignment V) :
    Simulates (Scalar.widen (ScalarType.common_le_common h)) (f.evaluate values)
      ((f.widen h).evaluate values) := by
  rw [evaluate, evaluate, linear_widen, constant_widen, Scalar.widen_left_common]
  refine Simulates.foldlM (fun term _ sum => ?_) _
  apply Simulates.bind_same
  intro value
  rw [LinearTerm.widen, Scalar.widen_left_common, Scalar.widen_right_common h]
  apply (Scalar.mul_simulates _ _ _).lift.bind
  intro product
  exact (Scalar.add_simulates _ _ _).lift

end AffineFunction

/-! ## Quadratic functions -/

namespace QuadraticFunction

theorem widen_eq (h : S ≤ T) (f : QuadraticFunction S) :
    f.widen h = ⟨f.quadratic.map (QuadraticTerm.widen h), f.affine.widen h⟩ := by
  rw [AffineFunction.widen_eq]
  exact zero.overwrite_eq ⟨S, h, f⟩

@[simp]
theorem quadratic_widen (h : S ≤ T) (f : QuadraticFunction S) :
    (f.widen h).quadratic = f.quadratic.map (QuadraticTerm.widen h) := by rw [widen_eq]

@[simp]
theorem affine_widen (h : S ≤ T) (f : QuadraticFunction S) :
    (f.widen h).affine = f.affine.widen h := by rw [widen_eq]

theorem neg_simulates [T.IsInteger] (h : S ≤ T) (f : QuadraticFunction S) :
    Simulates (widen h) f.neg (f.widen h).neg := by
  rw [neg, neg, quadratic_widen, affine_widen, List.mapM_map]
  apply (Simulates.mapM f.quadratic fun term => term.neg_simulates h).bind
  intro quadratic
  apply (f.affine.neg_simulates h).bind
  intro affine
  exact .pure (widen_eq h _)

theorem scale_simulates [T.IsInteger] (h : S ≤ T) (f : QuadraticFunction S) (number : Scalar S) :
    Simulates (widen h) (f.scale number) ((f.widen h).scale (number.widen h)) := by
  rw [scale, scale, quadratic_widen, affine_widen, List.mapM_map]
  apply (Simulates.mapM f.quadratic fun term => term.scale_simulates h number).bind
  intro quadratic
  apply (f.affine.scale_simulates h number).bind
  intro affine
  exact .pure (widen_eq h _)

variable {narrow wide : IntWidth}

theorem canonicalize_simulates (h : ScalarType.integer narrow ≤ .integer wide)
    (f : QuadraticFunction (.integer narrow)) :
    Simulates (widen h) f.canonicalize (f.widen h).canonicalize := by
  have oriented : (f.quadratic.map (QuadraticTerm.widen h)).map QuadraticTerm.orient =
      (f.quadratic.map QuadraticTerm.orient).map (QuadraticTerm.widen h) := by
    rw [List.map_map, List.map_map]
    exact List.map_congr_left fun term _ => term.orient_widen h
  rw [canonicalize_eq, canonicalize_eq, quadratic_widen, affine_widen, oriented]
  apply (f.affine.canonicalize_simulates h).bind
  intro affine
  have merges := mergeByKey_simulates (QuadraticTerm.pair_widen h)
    QuadraticTerm.addsTotals.preservesKey QuadraticTerm.addsTotals.preservesKey
    (QuadraticTerm.addLike_simulates h) (f.quadratic.map QuadraticTerm.orient)
  exact merges.bind fun quadratic => .pure (widen_eq h _)

theorem prune_widen (h : ScalarType.integer narrow ≤ .integer wide)
    {tolerance : Scalar (.integer narrow)} (below : tolerance ≠ BoundedInt.greatest)
    (f : QuadraticFunction (.integer narrow)) :
    (f.widen h).prune (tolerance.widen h) = (f.prune tolerance).widen h := by
  rw [prune, prune, quadratic_widen, affine_widen, AffineFunction.prune_widen h below, widen_eq,
    List.filter_map]
  simp only [Function.comp_def, QuadraticTerm.widen, Scalar.less_magnitude_widen h below]

/-- The value of a function in the common type is met again in the wider common type. -/
theorem evaluate_simulates {V : ScalarType} [T.IsInteger] [V.IsInteger] (h : S ≤ T)
    (f : QuadraticFunction S) (values : Assignment V) :
    Simulates (Scalar.widen (ScalarType.common_le_common h)) (f.evaluate values)
      ((f.widen h).evaluate values) := by
  rw [evaluate, evaluate, quadratic_widen, affine_widen]
  apply (f.affine.evaluate_simulates h values).bind
  intro start
  refine Simulates.foldlM (fun term _ sum => ?_) _
  apply Simulates.bind_same
  intro row
  apply Simulates.bind_same
  intro col
  rw [QuadraticTerm.widen, Scalar.widen_left_common, Scalar.widen_right_common h,
    Scalar.widen_right_common h]
  apply (Scalar.mul_simulates _ _ _).lift.bind
  intro left
  apply (Scalar.mul_simulates _ _ _).lift.bind
  intro product
  exact (Scalar.add_simulates _ _ _).lift

end QuadraticFunction

end DegreeTwo
