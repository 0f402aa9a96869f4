import DegreeTwo.Proofs.Updates
import DegreeTwo.Proofs.Widening.Operands

/-!
# Runs with wider integers

A run of updates over integers that does not break off is simulated by the same run over wider
integers: it starts from the widened function, takes the same operands with widened scales and
tolerances, and ends every step in the widened state.  The one exception is pruning with the
greatest integer of the narrow type, which the magnitude of the least one does not exceed.
-/

namespace DegreeTwo

variable {S T : ScalarType} {narrow wide : IntWidth}

/-! ## The same updates of a wider destination -/

/-- The same update of a wider destination. -/
def AffineUpdate.widen (h : S ≤ T) : AffineUpdate S → AffineUpdate T
  | .clear => .clear
  | .set f => .set (f.widen h)
  | .overwrite f => .overwrite (f.widen h)
  | .add x => .add (x.widen h)
  | .sub x => .sub (x.widen h)
  | .addScaled x number => .addScaled (x.widen h) (number.widen h)
  | .setTo x => .setTo (x.widen h)
  | .setSum x y => .setSum (x.widen h) (y.widen h)
  | .setDifference x y => .setDifference (x.widen h) (y.widen h)
  | .addProduct xy => .addProduct (xy.widen h)
  | .setProduct xy => .setProduct (xy.widen h)
  | .dot xy => .dot (xy.widen h)
  | .dotTerms xy => .dotTerms (xy.widen h)
  | .canonicalize => .canonicalize
  | .prune tolerance => .prune (tolerance.widen h)
  | .pruneZeros => .pruneZeros
  | .setConstant constant => .setConstant (constant.widen h)
  | .pushLinear term => .pushLinear (term.widen h)
  | .truncateLinear len => .truncateLinear len
  | .neg => .neg
  | .scale number => .scale (number.widen h)

/-- The same update of a wider destination. -/
def QuadraticUpdate.widen (h : S ≤ T) : QuadraticUpdate S → QuadraticUpdate T
  | .clear => .clear
  | .set f => .set (f.widen h)
  | .overwrite f => .overwrite (f.widen h)
  | .add x => .add (x.widen h)
  | .sub x => .sub (x.widen h)
  | .addScaled x number => .addScaled (x.widen h) (number.widen h)
  | .setTo x => .setTo (x.widen h)
  | .setSum x y => .setSum (x.widen h) (y.widen h)
  | .setDifference x y => .setDifference (x.widen h) (y.widen h)
  | .addProduct xy => .addProduct (xy.widen h)
  | .setProduct xy => .setProduct (xy.widen h)
  | .dot xy => .dot (xy.widen h)
  | .bilinear matrix x y => .bilinear (matrix.widen h) x y
  | .canonicalize => .canonicalize
  | .prune tolerance => .prune (tolerance.widen h)
  | .pruneZeros => .pruneZeros
  | .pushQuadratic term => .pushQuadratic (term.widen h)
  | .truncateQuadratic len => .truncateQuadratic len
  | .neg => .neg
  | .scale number => .scale (number.widen h)
  | .affine update => .affine (update.widen h)

/-- An update that prunes does so with a tolerance other than the greatest integer. -/
def AffineUpdate.PrunesBelowGreatest : AffineUpdate (.integer narrow) → Prop
  | .prune tolerance => tolerance ≠ BoundedInt.greatest
  | _ => True

/-- An update that prunes does so with a tolerance other than the greatest integer. -/
def QuadraticUpdate.PrunesBelowGreatest : QuadraticUpdate (.integer narrow) → Prop
  | .prune tolerance => tolerance ≠ BoundedInt.greatest
  | .affine update => update.PrunesBelowGreatest
  | _ => True

/-! ## Steps -/

theorem zero_ne_greatest : (Scalar.zero : Scalar (.integer narrow)) ≠ BoundedInt.greatest := by
  intro same
  have one_lt := narrow.one_lt_limit
  have limit_eq : 0 = narrow.limit - 1 := congrArg BoundedInt.val same
  omega

theorem AffineFunction.widen_truncateLinear (h : S ≤ T) (f : AffineFunction S) (len : Nat) :
    (f.widen h).truncateLinear len = (f.truncateLinear len).widen h := by
  rw [widen_eq, widen_eq, truncateLinear, truncateLinear, List.map_take]

theorem QuadraticFunction.widen_truncateQuadratic (h : S ≤ T) (f : QuadraticFunction S)
    (len : Nat) : (f.widen h).truncateQuadratic len = (f.truncateQuadratic len).widen h := by
  rw [widen_eq, widen_eq, truncateQuadratic, truncateQuadratic, List.map_take]

theorem AffineFunction.widen_pruneZeros (h : ScalarType.integer narrow ≤ .integer wide)
    (f : AffineFunction (.integer narrow)) :
    (f.widen h).pruneZeros = f.pruneZeros.widen h := by
  have pruned := f.prune_widen h zero_ne_greatest
  rw [Scalar.widen_zero] at pruned
  exact pruned

theorem QuadraticFunction.widen_pruneZeros (h : ScalarType.integer narrow ≤ .integer wide)
    (f : QuadraticFunction (.integer narrow)) :
    (f.widen h).pruneZeros = f.pruneZeros.widen h := by
  have pruned := f.prune_widen h zero_ne_greatest
  rw [Scalar.widen_zero] at pruned
  exact pruned

/-- An update that cannot be refused. -/
theorem settle_lift_simulates {σ τ : Type} {image : σ → τ} {first : Except Fault σ}
    {second : Except Fault τ} {before : σ} (simulates : Simulates image first second) :
    Simulates image (settle before (liftM first)) (settle (image before) (liftM second)) := by
  rw [settle_lift, settle_lift]
  exact simulates

/-- Every update ends in the widened state. -/
theorem AffineUpdate.step_simulates (h : ScalarType.integer narrow ≤ .integer wide)
    {update : AffineUpdate (.integer narrow)} (below : update.PrunesBelowGreatest)
    (f : AffineFunction (.integer narrow)) :
    Simulates (AffineFunction.widen h) (settle f (update.apply f))
      (settle (f.widen h) ((update.widen h).apply (f.widen h))) := by
  rw [apply_eq, apply_eq]
  cases update with
  | clear => exact .pure (AffineFunction.widen_zero h)
  | set value => exact .pure rfl
  | overwrite source => exact .pure (f.widen_overwrite h source).symm
  | add x => exact settle_lift_simulates (f.add_simulates h x)
  | sub x => exact settle_lift_simulates (f.sub_simulates h x)
  | addScaled x number => exact settle_lift_simulates (f.addScaled_simulates h x number)
  | setTo x => exact settle_lift_simulates (f.setTo_simulates h x)
  | setSum x y => exact settle_lift_simulates (f.setSum_simulates h x y)
  | setDifference x y => exact settle_lift_simulates (f.setDifference_simulates h x y)
  | addProduct xy => exact settle_lift_simulates (f.addProduct_simulates h xy)
  | setProduct xy => exact settle_lift_simulates (f.setProduct_simulates h xy)
  | dot xy => exact f.dot_simulates h xy
  | dotTerms xy => exact f.dotTerms_simulates h xy
  | canonicalize => exact settle_lift_simulates (f.canonicalize_simulates h)
  | prune tolerance => exact .pure (f.prune_widen h below).symm
  | pruneZeros => exact .pure (f.widen_pruneZeros h).symm
  | setConstant constant =>
      refine .pure ?_
      rw [AffineFunction.widen_eq, AffineFunction.widen_eq]
      rfl
  | pushLinear term => exact .pure (f.widen_pushLinear h term).symm
  | truncateLinear len => exact .pure (f.widen_truncateLinear h len).symm
  | neg => exact settle_lift_simulates (f.neg_simulates h)
  | scale number => exact settle_lift_simulates (f.scale_simulates h number)

/-- Every update ends in the widened state. -/
theorem QuadraticUpdate.step_simulates (h : ScalarType.integer narrow ≤ .integer wide)
    {update : QuadraticUpdate (.integer narrow)} (below : update.PrunesBelowGreatest)
    (f : QuadraticFunction (.integer narrow)) :
    Simulates (QuadraticFunction.widen h) (settle f (update.apply f))
      (settle (f.widen h) ((update.widen h).apply (f.widen h))) := by
  rw [apply_eq, apply_eq]
  cases update with
  | clear => exact .pure (QuadraticFunction.widen_zero h)
  | set value => exact .pure rfl
  | overwrite source => exact .pure (f.widen_overwrite h source).symm
  | add x => exact settle_lift_simulates (f.add_simulates h x)
  | sub x => exact settle_lift_simulates (f.sub_simulates h x)
  | addScaled x number => exact settle_lift_simulates (f.addScaled_simulates h x number)
  | setTo x => exact settle_lift_simulates (f.setTo_simulates h x)
  | setSum x y => exact settle_lift_simulates (f.setSum_simulates h x y)
  | setDifference x y => exact settle_lift_simulates (f.setDifference_simulates h x y)
  | addProduct xy => exact settle_lift_simulates (f.addProduct_simulates h xy)
  | setProduct xy => exact settle_lift_simulates (f.setProduct_simulates h xy)
  | dot xy => exact f.dot_simulates h xy
  | bilinear matrix x y => exact f.setBilinear_simulates h matrix x y
  | canonicalize => exact settle_lift_simulates (f.canonicalize_simulates h)
  | prune tolerance => exact .pure (f.prune_widen h below).symm
  | pruneZeros => exact .pure (f.widen_pruneZeros h).symm
  | pushQuadratic term => exact .pure (f.widen_pushQuadratic h term).symm
  | truncateQuadratic len => exact .pure (f.widen_truncateQuadratic h len).symm
  | neg => exact settle_lift_simulates (f.neg_simulates h)
  | scale number => exact settle_lift_simulates (f.scale_simulates h number)
  | affine update =>
      simp only [QuadraticUpdate.widen]
      rw [settle_affine, settle_affine, QuadraticFunction.quadratic_widen,
        QuadraticFunction.affine_widen]
      apply (update.step_simulates h below f.affine).bind
      intro affine
      exact .pure (QuadraticFunction.widen_eq h _)

/-! ## Runs -/

/-- A front of a run that does not break off does not break off either. -/
theorem exists_front_of_run {σ υ : Type} {perform : υ → InPlace σ Unit} {front back : List υ}
    {start final : σ} (run : performAll perform (front ++ back) start = .ok final) :
    ∃ state, performAll perform front start = .ok state := by
  rw [InPlace.performAll_append] at run
  obtain ⟨state, front_run, -⟩ := bind_eq_ok.mp run
  exact ⟨state, front_run⟩

theorem AffineFunction.run_simulates (h : ScalarType.integer narrow ≤ .integer wide)
    {updates : List (AffineUpdate (.integer narrow))}
    (below : ∀ update ∈ updates, update.PrunesBelowGreatest)
    (start : AffineFunction (.integer narrow)) :
    Simulates (widen h) (start.run updates)
      ((start.widen h).run (updates.map (AffineUpdate.widen h))) := by
  rw [run_eq, run_eq]
  exact .foldlM (fun update member f => update.step_simulates h (below update member) f) start

theorem QuadraticFunction.run_simulates (h : ScalarType.integer narrow ≤ .integer wide)
    {updates : List (QuadraticUpdate (.integer narrow))}
    (below : ∀ update ∈ updates, update.PrunesBelowGreatest)
    (start : QuadraticFunction (.integer narrow)) :
    Simulates (widen h) (start.run updates)
      ((start.widen h).run (updates.map (QuadraticUpdate.widen h))) := by
  rw [run_eq, run_eq]
  exact .foldlM (fun update member f => update.step_simulates h (below update member) f) start

/-- A run over integers that does not break off is simulated by the same run over integers that are
not narrower.  Every step ends in the widened state, and where a state has a value at integers, the
widened state has the same value, in the common type of its coefficients and the integers. -/
theorem narrow_run_simulated_by_wide (h : ScalarType.integer narrow ≤ .integer wide) :
    (∀ (start final : AffineFunction (.integer narrow))
      (updates : List (AffineUpdate (.integer narrow))),
      (∀ update ∈ updates, update.PrunesBelowGreatest) → start.run updates = .ok final →
      ∀ front back, updates = front ++ back →
        ∃ state, start.run front = .ok state ∧
          (start.widen h).run (front.map (AffineUpdate.widen h)) = .ok (state.widen h) ∧
          ∀ (width : IntWidth) (values : Assignment (.integer width))
            (n : Scalar (ScalarType.common (.integer narrow) (.integer width))),
            state.evaluate values = .ok n →
            (state.widen h).evaluate values = .ok (n.widen (ScalarType.common_le_common h))) ∧
    ∀ (start final : QuadraticFunction (.integer narrow))
      (updates : List (QuadraticUpdate (.integer narrow))),
      (∀ update ∈ updates, update.PrunesBelowGreatest) → start.run updates = .ok final →
      ∀ front back, updates = front ++ back →
        ∃ state, start.run front = .ok state ∧
          (start.widen h).run (front.map (QuadraticUpdate.widen h)) = .ok (state.widen h) ∧
          ∀ (width : IntWidth) (values : Assignment (.integer width))
            (n : Scalar (ScalarType.common (.integer narrow) (.integer width))),
            state.evaluate values = .ok n →
            (state.widen h).evaluate values = .ok (n.widen (ScalarType.common_le_common h)) := by
  constructor
  · rintro start final _ below run front back rfl
    obtain ⟨state, front_run⟩ := exists_front_of_run run
    have front_below : ∀ update ∈ front, update.PrunesBelowGreatest := fun update member =>
      below update (List.mem_append_left back member)
    refine ⟨state, front_run, ?_, ?_⟩
    · exact AffineFunction.run_simulates h front_below start state front_run
    · exact fun width values => state.evaluate_simulates h values
  · rintro start final _ below run front back rfl
    obtain ⟨state, front_run⟩ := exists_front_of_run run
    have front_below : ∀ update ∈ front, update.PrunesBelowGreatest := fun update member =>
      below update (List.mem_append_left back member)
    refine ⟨state, front_run, ?_, ?_⟩
    · exact QuadraticFunction.run_simulates h front_below start state front_run
    · exact fun width values => state.evaluate_simulates h values

/-- The least integer of eight bits. -/
def leastByte : Scalar (.integer .bits8) := ⟨-128, by decide, by decide⟩

/-- The greatest integer of eight bits but one. -/
def toleratedByte : Scalar (.integer .bits8) := ⟨126, by decide, by decide⟩

/-- The function `-128 * x1`. -/
def leastMultiple : AffineFunction (.integer .bits8) := ⟨[⟨leastByte, ⟨1⟩⟩], .zero⟩

/-- A run that prunes at the boundary and adds a number. -/
def boundaryRun : List (AffineUpdate (.integer .bits8)) :=
  [.prune toleratedByte, .add (.number (.same .one))]

/-- A run that multiplies two variables and prunes at the boundary. -/
def boundaryProductRun : List (QuadraticUpdate (.integer .bits8)) :=
  [.addProduct (.factorTimes (.term (.same ⟨leastByte, ⟨1⟩⟩)) (.factor (.var ⟨2⟩))),
    .prune toleratedByte]

theorem boundaryRun_below : ∀ update ∈ boundaryRun, update.PrunesBelowGreatest := by
  intro update member
  rcases List.mem_cons.mp member with rfl | member
  · exact fun same => absurd (congrArg BoundedInt.val same) (by decide)
  · cases List.mem_singleton.mp member
    trivial

theorem boundaryProductRun_below : ∀ update ∈ boundaryProductRun, update.PrunesBelowGreatest := by
  intro update member
  rcases List.mem_cons.mp member with rfl | member
  · trivial
  · cases List.mem_singleton.mp member
    exact fun same => absurd (congrArg BoundedInt.val same) (by decide)

theorem bits8_le_bits16 : ScalarType.integer .bits8 ≤ .integer .bits16 := by decide

theorem narrow_run_simulated_by_wide_boundary :
    (leastMultiple.widen bits8_le_bits16).run
          (boundaryRun.map (AffineUpdate.widen bits8_le_bits16)) =
        .ok ⟨[⟨⟨-128, by decide, by decide⟩, ⟨1⟩⟩], .one⟩ ∧
      AffineFunction.evaluate (T := .integer .bits16) ⟨[⟨⟨-128, by decide, by decide⟩, ⟨1⟩⟩], .one⟩
          (.dense [.zero, .one] : Assignment (.integer .bits8)) =
        .ok (⟨-127, by decide, by decide⟩ : BoundedInt .bits16) ∧
      (QuadraticFunction.zero.widen bits8_le_bits16).run
          (boundaryProductRun.map (QuadraticUpdate.widen bits8_le_bits16)) =
        .ok ⟨[⟨⟨-128, by decide, by decide⟩, ⟨1⟩, ⟨2⟩⟩], .zero⟩ := by
  obtain ⟨affine, quadratic⟩ := narrow_run_simulated_by_wide bits8_le_bits16
  obtain ⟨state, narrow_run, wide_run, evaluations⟩ := affine leastMultiple _ boundaryRun
    boundaryRun_below rfl boundaryRun [] rfl
  obtain ⟨product, narrow_product_run, wide_product_run, -⟩ := quadratic .zero _ boundaryProductRun
    boundaryProductRun_below rfl boundaryProductRun [] rfl
  cases narrow_run
  cases narrow_product_run
  exact ⟨wide_run, evaluations .bits8 (.dense [.zero, .one]) (⟨-127, by decide, by decide⟩ :
    BoundedInt .bits8) rfl, wide_product_run⟩

end DegreeTwo
