import DegreeTwo.Proofs.Opposites
import Mathlib.Algebra.Order.Ring.Abs

/-!
# Pruning at a threshold

Pruning keeps the terms whose magnitude exceeds a tolerance.  Magnitudes saturate at the greatest
number of the type, so that they decide as exact absolute values do, but for the least number
against the greatest tolerance.  Everything else follows from this threshold: how two prunings
combine, that opposite functions are pruned alike, and how far the value of a function can move.
-/

namespace DegreeTwo

variable {width : IntWidth}

/-! ## The threshold -/

namespace Scalar

/-- The greatest number of its type, at which magnitudes saturate. -/
def IsGreatest (a : Scalar (.integer width)) : Prop := a.toInt = width.limit - 1

instance (a : Scalar (.integer width)) : Decidable a.IsGreatest :=
  inferInstanceAs (Decidable (a.toInt = width.limit - 1))

/-- The exact absolute value is greater than the tolerance, and it is not that of the least number
against the greatest tolerance. -/
def Exceeds (a tolerance : Scalar (.integer width)) : Prop :=
  tolerance.toInt < |a.toInt| ∧ ¬ (a.IsLeast ∧ tolerance.IsGreatest)

instance (a tolerance : Scalar (.integer width)) : Decidable (a.Exceeds tolerance) :=
  inferInstanceAs (Decidable (tolerance.toInt < |a.toInt| ∧ ¬ (a.IsLeast ∧ tolerance.IsGreatest)))

/-- The greater one of two numbers. -/
def greater (a b : Scalar (.integer width)) : Scalar (.integer width) :=
  if a.toInt < b.toInt then b else a

variable {a b tolerance : Scalar (.integer width)}

theorem toInt_greater : (a.greater b).toInt = max a.toInt b.toInt := by
  rw [greater]
  split <;> omega

/-- A saturated magnitude decides as the exact absolute value does, one pair of numbers excepted. -/
theorem less_magnitude_iff : tolerance.less a.magnitude = true ↔ a.Exceeds tolerance := by
  obtain ⟨lower, upper⟩ := a.fits_toInt
  have tolerance_upper := tolerance.fits_toInt.2
  change decide (tolerance.toInt < a.magnitude.toInt) = true ↔ _
  rw [decide_eq_true_iff, toInt_magnitude, lt_min_iff, Exceeds, IsLeast, IsGreatest, abs_eq_max_neg]
  omega

example : @less (.integer .bits8) BoundedInt.greatest
    (@magnitude (.integer .bits8) ⟨-128, by decide, by decide⟩) = false := by
  decide

/-- Below the greatest tolerance the threshold is that of exact absolute values. -/
theorem exceeds_iff (below : ¬ tolerance.IsGreatest) :
    a.Exceeds tolerance ↔ tolerance.toInt < |a.toInt| :=
  and_iff_left fun both => below both.2

theorem exceeds_of_negative (negative : tolerance.toInt < 0) : a.Exceeds tolerance := by
  have one_lt := width.one_lt_limit
  refine ⟨negative.trans_le (abs_nonneg a.toInt), ?_⟩
  rintro ⟨-, greatest⟩
  rw [IsGreatest] at greatest
  omega

theorem exceeds_greater {first second : Scalar (.integer width)} :
    a.Exceeds (first.greater second) ↔ a.Exceeds second ∧ a.Exceeds first := by
  have first_upper := first.fits_toInt.2
  have second_upper := second.fits_toInt.2
  simp only [Exceeds, IsGreatest, toInt_greater, max_lt_iff]
  by_cases least : a.IsLeast
  · simp only [least, true_and]
    omega
  · simp only [least, false_and, not_false_eq_true, and_true]
    exact And.comm

/-- Opposite numbers exceed the same tolerances; neither of them is the least number. -/
theorem IsOpposite.exceeds_iff (opposite : a.IsOpposite b) :
    a.Exceeds tolerance ↔ b.Exceeds tolerance := by
  have same_abs : |b.toInt| = |a.toInt| := by
    rw [show b.toInt = -a.toInt from opposite, abs_neg]
  rw [Exceeds, Exceeds, same_abs]
  apply and_congr_right
  intro _
  exact iff_of_true (fun both => opposite.not_isLeast both.1)
    fun both => opposite.symm.not_isLeast both.1

/-- Only the greatest tolerance drops the least number. -/
theorem IsLeast.exceeds (least : a.IsLeast) (below : ¬ tolerance.IsGreatest) :
    a.Exceeds tolerance := by
  have tolerance_upper := tolerance.fits_toInt.2
  have one_lt := width.one_lt_limit
  rw [IsGreatest] at below
  rw [Scalar.exceeds_iff below, show a.toInt = -width.limit from least, abs_neg,
    abs_of_pos (by omega)]
  omega

end Scalar

/-! ## Dropped terms -/

section Dropped

variable {α : Type} {weight size : α → Int} {terms : List α}

/-- Each term of a sum may be bounded by the same multiple of its size. -/
theorem abs_sum_le_mul_sum {bound : Int}
    (each : ∀ term ∈ terms, |weight term| ≤ bound * size term) :
    |(terms.map weight).sum| ≤ bound * (terms.map size).sum := by
  induction terms with
  | nil => simp
  | cons term terms ih =>
      rw [List.map_cons, List.map_cons, List.sum_cons, List.sum_cons]
      calc
        |weight term + (terms.map weight).sum| ≤ |weight term| + |(terms.map weight).sum| :=
          abs_add_le _ _
        _ ≤ bound * size term + bound * (terms.map size).sum :=
          Int.add_le_add (each term List.mem_cons_self)
            (ih fun other member => each other (List.mem_cons_of_mem term member))
        _ = bound * (size term + (terms.map size).sum) := (Int.mul_add _ _ _).symm

end Dropped

variable {tolerance : Scalar (.integer width)}

/-- The linear terms that do not exceed the tolerance. -/
def AffineFunction.droppedLinear (f : AffineFunction (.integer width))
    (tolerance : Scalar (.integer width)) : List (LinearTerm (.integer width)) :=
  f.linear.filter fun term => ¬ term.coeff.Exceeds tolerance

/-- The quadratic terms that do not exceed the tolerance. -/
def QuadraticFunction.droppedQuadratic (f : QuadraticFunction (.integer width))
    (tolerance : Scalar (.integer width)) : List (QuadraticTerm (.integer width)) :=
  f.quadratic.filter fun term => ¬ term.coeff.Exceeds tolerance

namespace AffineFunction

variable {f g : AffineFunction (.integer width)}

/-- The absolute values of the variables of the dropped terms, added up. -/
def droppedSize (f : AffineFunction (.integer width)) (tolerance : Scalar (.integer width))
    (point : Variable → Int) : Int :=
  ((f.droppedLinear tolerance).map fun term => |point term.var|).sum

theorem linear_prune (f : AffineFunction (.integer width)) (tolerance : Scalar (.integer width)) :
    (f.prune tolerance).linear = f.linear.filter fun term => term.coeff.Exceeds tolerance := by
  simp only [prune, Bool.eq_iff_iff.mpr (Scalar.less_magnitude_iff.trans decide_eq_true_iff.symm)]

theorem prune_eq (f : AffineFunction (.integer width)) (tolerance : Scalar (.integer width)) :
    f.prune tolerance = ⟨f.linear.filter fun term => term.coeff.Exceeds tolerance, f.constant⟩ :=
  congrArg (AffineFunction.mk · f.constant) (f.linear_prune tolerance)

theorem prune_of_negative (f : AffineFunction (.integer width)) (negative : tolerance.toInt < 0) :
    f.prune tolerance = f := by
  rw [prune_eq, List.filter_eq_self.mpr fun term _ =>
    decide_eq_true (Scalar.exceeds_of_negative negative)]

theorem prune_prune (f : AffineFunction (.integer width)) (first second : Scalar (.integer width)) :
    (f.prune first).prune second = f.prune (first.greater second) := by
  simp only [prune_eq, List.filter_filter, Scalar.exceeds_greater, Bool.decide_and]

theorem IsOpposite.prune (opposite : f.IsOpposite g) :
    (f.prune tolerance).IsOpposite (g.prune tolerance) := by
  rw [prune_eq, prune_eq]
  refine ⟨List.rel_filter ?_ opposite.linear, opposite.constant⟩
  intro left right related
  simpa only [decide_eq_true_iff] using related.1.exceeds_iff

theorem HasLeast.prune (least : f.HasLeast) (below : ¬ tolerance.IsGreatest) :
    (f.prune tolerance).HasLeast := by
  obtain ⟨a, member, a_least⟩ := least
  refine ⟨a, ?_, a_least⟩
  rw [numbers, List.mem_append, List.mem_map] at member
  rw [numbers, prune_eq, List.mem_append, List.mem_map]
  rcases member with ⟨term, member, rfl⟩ | member
  · exact .inl ⟨term, List.mem_filter.mpr ⟨member, decide_eq_true (a_least.exceeds below)⟩, rfl⟩
  · exact .inr member

/-- Multiplying by minus one before pruning or after it is the same, with the same overflows, unless
the greatest tolerance drops a number without an opposite. -/
theorem scale_minusOne_prune (f : AffineFunction (.integer width))
    (below : ¬ tolerance.IsGreatest) :
    (f.prune tolerance).scale .minusOne = (fun g => g.prune tolerance) <$> f.scale .minusOne := by
  by_cases least : f.HasLeast
  · rw [least.breaks_off.2, (least.prune below).breaks_off.2]
    rfl
  · obtain ⟨g, opposite, -, scaled, -⟩ := exists_opposite least
    rw [scaled, opposite.prune.scale_minusOne]
    rfl

/-- A dropped term contributes at most the tolerance times the absolute value of its variable. -/
theorem abs_value_sub_value_prune_le (f : AffineFunction (.integer width))
    (below : ¬ tolerance.IsGreatest) (point : Variable → Int) :
    |f.value point - (f.prune tolerance).value point| ≤
      tolerance.toInt * f.droppedSize tolerance point := by
  have difference : f.value point - (f.prune tolerance).value point =
      ((f.droppedLinear tolerance).map (LinearTerm.value point)).sum := by
    rw [value, value, prune_eq, Int.add_sub_add_right, sum_sub_sum_filter, droppedLinear]
    simp only [decide_not]
  rw [difference]
  apply abs_sum_le_mul_sum
  intro term dropped
  have not_exceeds := of_decide_eq_true (List.mem_filter.mp dropped).2
  rw [Scalar.exceeds_iff below, not_lt] at not_exceeds
  rw [LinearTerm.value, abs_mul]
  exact Int.mul_le_mul_of_nonneg_right not_exceeds (abs_nonneg _)

end AffineFunction

namespace QuadraticFunction

variable {f g : QuadraticFunction (.integer width)}

/-- The absolute values of the variables and products of the dropped terms, added up. -/
def droppedSize (f : QuadraticFunction (.integer width)) (tolerance : Scalar (.integer width))
    (point : Variable → Int) : Int :=
  ((f.droppedQuadratic tolerance).map fun term => |point term.row * point term.col|).sum +
    f.affine.droppedSize tolerance point

theorem quadratic_prune (f : QuadraticFunction (.integer width))
    (tolerance : Scalar (.integer width)) :
    (f.prune tolerance).quadratic =
      f.quadratic.filter fun term => term.coeff.Exceeds tolerance := by
  simp only [prune, Bool.eq_iff_iff.mpr (Scalar.less_magnitude_iff.trans decide_eq_true_iff.symm)]

theorem prune_eq (f : QuadraticFunction (.integer width)) (tolerance : Scalar (.integer width)) :
    f.prune tolerance =
      ⟨f.quadratic.filter fun term => term.coeff.Exceeds tolerance, f.affine.prune tolerance⟩ :=
  congrArg (QuadraticFunction.mk · (f.affine.prune tolerance)) (f.quadratic_prune tolerance)

theorem prune_of_negative (f : QuadraticFunction (.integer width))
    (negative : tolerance.toInt < 0) : f.prune tolerance = f := by
  rw [prune_eq, f.affine.prune_of_negative negative, List.filter_eq_self.mpr fun term _ =>
    decide_eq_true (Scalar.exceeds_of_negative negative)]

theorem prune_prune (f : QuadraticFunction (.integer width))
    (first second : Scalar (.integer width)) :
    (f.prune first).prune second = f.prune (first.greater second) := by
  simp only [prune_eq, AffineFunction.prune_prune, List.filter_filter, Scalar.exceeds_greater,
    Bool.decide_and]

theorem IsOpposite.prune (opposite : f.IsOpposite g) :
    (f.prune tolerance).IsOpposite (g.prune tolerance) := by
  rw [prune_eq, prune_eq]
  refine ⟨List.rel_filter ?_ opposite.quadratic, opposite.affine.prune⟩
  intro left right related
  simpa only [decide_eq_true_iff] using related.1.exceeds_iff

theorem HasLeast.prune (least : f.HasLeast) (below : ¬ tolerance.IsGreatest) :
    (f.prune tolerance).HasLeast := by
  obtain ⟨a, member, a_least⟩ := least
  rw [numbers, List.mem_append, List.mem_map] at member
  rcases member with ⟨term, member, rfl⟩ | member
  · refine ⟨term.coeff, ?_, a_least⟩
    rw [numbers, prune_eq, List.mem_append, List.mem_map]
    exact .inl ⟨term, List.mem_filter.mpr ⟨member, decide_eq_true (a_least.exceeds below)⟩, rfl⟩
  · obtain ⟨b, b_member, b_least⟩ := AffineFunction.HasLeast.prune ⟨a, member, a_least⟩ below
    exact ⟨b, List.mem_append_right _ b_member, b_least⟩

/-- Multiplying by minus one before pruning or after it is the same, with the same overflows, unless
the greatest tolerance drops a number without an opposite. -/
theorem scale_minusOne_prune (f : QuadraticFunction (.integer width))
    (below : ¬ tolerance.IsGreatest) :
    (f.prune tolerance).scale .minusOne = (fun g => g.prune tolerance) <$> f.scale .minusOne := by
  by_cases least : f.HasLeast
  · rw [least.breaks_off.2, (least.prune below).breaks_off.2]
    rfl
  · obtain ⟨g, opposite, -, scaled, -⟩ := exists_opposite least
    rw [scaled, opposite.prune.scale_minusOne]
    rfl

/-- A dropped term contributes at most the tolerance times the absolute value of its product. -/
theorem abs_value_sub_value_prune_le (f : QuadraticFunction (.integer width))
    (below : ¬ tolerance.IsGreatest) (point : Variable → Int) :
    |f.value point - (f.prune tolerance).value point| ≤
      tolerance.toInt * f.droppedSize tolerance point := by
  have difference : f.value point - (f.prune tolerance).value point =
      ((f.droppedQuadratic tolerance).map (QuadraticTerm.value point)).sum +
        (f.affine.value point - (f.affine.prune tolerance).value point) := by
    have quadratic_difference := sum_sub_sum_filter (QuadraticTerm.value point)
      (fun term => decide (term.coeff.Exceeds tolerance)) f.quadratic
    rw [value, value, prune_eq, droppedQuadratic]
    simp only [decide_not, ← quadratic_difference]
    omega
  have quadratic_bound : |((f.droppedQuadratic tolerance).map (QuadraticTerm.value point)).sum| ≤
      tolerance.toInt *
        ((f.droppedQuadratic tolerance).map fun term => |point term.row * point term.col|).sum := by
    apply abs_sum_le_mul_sum
    intro term dropped
    have not_exceeds := of_decide_eq_true (List.mem_filter.mp dropped).2
    rw [Scalar.exceeds_iff below, not_lt] at not_exceeds
    rw [QuadraticTerm.value, Int.mul_assoc, abs_mul]
    exact Int.mul_le_mul_of_nonneg_right not_exceeds (abs_nonneg _)
  rw [difference, droppedSize, Int.mul_add]
  exact (abs_add_le _ _).trans (Int.add_le_add quadratic_bound
    (f.affine.abs_value_sub_value_prune_le below point))

end QuadraticFunction

/-! ## The main result -/

/-- Pruning keeps exactly the terms that exceed the tolerance, in their order, and the constant.  A
negative tolerance removes nothing, and two tolerances remove what the greater one does.  Pruning
commutes with multiplication by minus one where this does not overflow, and up to overflows for
every tolerance but the greatest.  For these tolerances it moves the value of the function at a
point by at most the tolerance times the size of what it drops. -/
theorem pruning_is_threshold (width : IntWidth) (t s : Scalar (.integer width)) :
    (∀ f : AffineFunction (.integer width),
      f.prune t = ⟨f.linear.filter fun term => term.coeff.Exceeds t, f.constant⟩ ∧
      (t.toInt < 0 → f.prune t = f) ∧
      (f.prune t).prune s = f.prune (t.greater s) ∧
      (∀ g, f.scale .minusOne = .ok g → (f.prune t).scale .minusOne = .ok (g.prune t)) ∧
      (¬ t.IsGreatest →
        (f.prune t).scale .minusOne = (fun g => g.prune t) <$> f.scale .minusOne ∧
        ∀ point, |f.value point - (f.prune t).value point| ≤ t.toInt * f.droppedSize t point)) ∧
    ∀ f : QuadraticFunction (.integer width),
      f.prune t = ⟨f.quadratic.filter fun term => term.coeff.Exceeds t,
        f.affine.linear.filter fun term => term.coeff.Exceeds t, f.affine.constant⟩ ∧
      (t.toInt < 0 → f.prune t = f) ∧
      (f.prune t).prune s = f.prune (t.greater s) ∧
      (∀ g, f.scale .minusOne = .ok g → (f.prune t).scale .minusOne = .ok (g.prune t)) ∧
      (¬ t.IsGreatest →
        (f.prune t).scale .minusOne = (fun g => g.prune t) <$> f.scale .minusOne ∧
        ∀ point, |f.value point - (f.prune t).value point| ≤ t.toInt * f.droppedSize t point) := by
  refine ⟨fun f => ⟨f.prune_eq t, f.prune_of_negative, f.prune_prune t s, ?_, ?_⟩,
    fun f => ⟨?_, f.prune_of_negative, f.prune_prune t s, ?_, ?_⟩⟩
  · intro g scaled
    exact (f.scale_minusOne_yieldsIff.of_ok scaled).2.prune.scale_minusOne
  · exact fun below => ⟨f.scale_minusOne_prune below, f.abs_value_sub_value_prune_le below⟩
  · rw [f.prune_eq, f.affine.prune_eq]
  · intro g scaled
    exact (f.scale_minusOne_yieldsIff.of_ok scaled).2.prune.scale_minusOne
  · exact fun below => ⟨f.scale_minusOne_prune below, f.abs_value_sub_value_prune_le below⟩

/-- The function `-90 * x0 * x1 + 8 * x1 * x1 + -8 * x0 + 9 * x1`. -/
def smallAndLarge : QuadraticFunction (.integer .bits8) :=
  ⟨[⟨⟨-90, by decide, by decide⟩, ⟨0⟩, ⟨1⟩⟩, ⟨⟨8, by decide, by decide⟩, ⟨1⟩, ⟨1⟩⟩],
    [⟨⟨-8, by decide, by decide⟩, ⟨0⟩⟩, ⟨⟨9, by decide, by decide⟩, ⟨1⟩⟩], .zero⟩

/-- A tolerance that drops the inner terms of the function. -/
def toleranceEight : Scalar (.integer .bits8) := (⟨8, by decide, by decide⟩ : BoundedInt .bits8)

theorem pruning_is_threshold_small :
    smallAndLarge.prune .minusOne = smallAndLarge ∧
      (smallAndLarge.prune toleranceEight).scale .minusOne =
        .ok ⟨[⟨⟨90, by decide, by decide⟩, ⟨0⟩, ⟨1⟩⟩], [⟨⟨-9, by decide, by decide⟩, ⟨1⟩⟩], .zero⟩ ∧
      |smallAndLarge.value (fun x => x.index + 2) -
          (smallAndLarge.prune toleranceEight).value (fun x => x.index + 2)| ≤ 88 := by
  obtain ⟨-, atMinusOne⟩ := pruning_is_threshold .bits8 .minusOne toleranceEight
  obtain ⟨-, atEight⟩ := pruning_is_threshold .bits8 toleranceEight .minusOne
  refine ⟨(atMinusOne smallAndLarge).2.1 (by decide), ?_, ?_⟩
  · exact (atEight smallAndLarge).2.2.2.1 _ rfl
  · exact ((atEight smallAndLarge).2.2.2.2 (by decide)).2 fun x => x.index + 2

end DegreeTwo
