import DegreeTwo.Proofs.Buffers
import DegreeTwo.Proofs.NormalForm
import DegreeTwo.Proofs.Sorting.GroupByKey

/-!
# Computing with wider integers

A computation on integers that does not break off takes the same steps if all of its integers are
widened: every intermediate result fits the wider type, being the same integer, and is met at the
same place.  This is proved for the arithmetic of coefficients first, and passed on by the ways in
which computations are put together.
-/

namespace DegreeTwo

/-! ## Simulation -/

section Simulates

variable {ε α α' β β' γ δ : Type}

/-- Where the first computation returns a result, the second one returns the image of it. -/
def Simulates (image : α → β) (first : Except ε α) (second : Except ε β) : Prop :=
  ∀ result, first = .ok result → second = .ok (image result)

namespace Simulates

variable {image : α → β} {first : Except ε α} {second : Except ε β}

theorem pure {value : α} {expected : β} (same : image value = expected) :
    Simulates image (Pure.pure value : Except ε α) (Pure.pure expected) := by
  rintro _ ⟨⟩
  rw [same]
  rfl

theorem bind {final : γ → δ} {next : α → Except ε γ} {next' : β → Except ε δ}
    (start : Simulates image first second)
    (rest : ∀ value, Simulates final (next value) (next' (image value))) :
    Simulates final (first >>= next) (second >>= next') := by
  intro result succeeds
  obtain ⟨value, first_succeeds, next_succeeds⟩ := bind_eq_ok.mp succeeds
  exact bind_eq_ok.mpr ⟨image value, start value first_succeeds, rest value result next_succeeds⟩

theorem map {final : γ → δ} {f : α → γ} {g : β → δ} (start : Simulates image first second)
    (same : ∀ value, final (f value) = g (image value)) :
    Simulates final (f <$> first) (g <$> second) := by
  rw [map_eq_pure_bind, map_eq_pure_bind]
  exact start.bind fun value => pure (same value)

/-- Both computations may begin with the same step. -/
theorem bind_same {step : Except ε γ} {next : γ → Except ε α} {next' : γ → Except ε β}
    (rest : ∀ value, Simulates image (next value) (next' value)) :
    Simulates image (step >>= next) (step >>= next') := by
  have same_step : Simulates id step step := fun _ succeeds => succeeds
  exact same_step.bind rest

theorem mapM {f : γ → Except ε α} {g : γ → Except ε β} (inputs : List γ)
    (each : ∀ input, Simulates image (f input) (g input)) :
    Simulates (List.map image) (inputs.mapM f) (inputs.mapM g) := by
  induction inputs with
  | nil => exact pure rfl
  | cons input inputs ih =>
      rw [List.mapM_cons, List.mapM_cons]
      exact (each input).bind fun output => ih.bind fun outputs => pure rfl

theorem filterMapM {f : γ → Except ε (Option α)} {g : γ → Except ε (Option β)} (inputs : List γ)
    (each : ∀ input, Simulates (Option.map image) (f input) (g input)) :
    Simulates (List.map image) (inputs.filterMapM f) (inputs.filterMapM g) := by
  induction inputs with
  | nil => exact pure rfl
  | cons input inputs ih =>
      rw [List.filterMapM_cons, List.filterMapM_cons]
      apply (each input).bind
      intro output
      cases output with
      | none => exact ih
      | some output => exact ih.bind fun outputs => pure rfl

theorem foldlM {step : α → γ → Except ε α} {step' : β → δ → Except ε β} {embed : γ → δ}
    {inputs : List γ} (each : ∀ input ∈ inputs, ∀ state,
      Simulates image (step state input) (step' (image state) (embed input))) (start : α) :
    Simulates image (inputs.foldlM step start) ((inputs.map embed).foldlM step' (image start)) := by
  induction inputs generalizing start with
  | nil => exact pure rfl
  | cons input inputs ih =>
      rw [List.foldlM_cons, List.map_cons, List.foldlM_cons]
      apply (each input List.mem_cons_self start).bind
      exact ih fun other member => each other (List.mem_cons_of_mem input member)

theorem ite {condition : Prop} [Decidable condition] {other : Except ε α} {other' : Except ε β}
    (yes : Simulates image first second) (no : Simulates image other other') :
    Simulates image (if condition then first else other)
      (if condition then second else other') := by
  split
  · exact yes
  · exact no

theorem lift {first : Except Fault α} {second : Except Fault β}
    (simulates : Simulates image first second) :
    Simulates image (liftM first : Except Failure α) (liftM second) := by
  intro result succeeds
  exact lift_eq_ok.mpr (simulates result (lift_eq_ok.mp succeeds))

end Simulates

end Simulates

/-! ## Coefficients -/

/-- The integer types among the coefficient types. -/
class ScalarType.IsInteger (T : ScalarType) : Prop where
  /-- The type is that of the integers of some width. -/
  exists_width : ∃ width, T = .integer width

namespace ScalarType

variable {S T V : ScalarType}

instance (width : IntWidth) : IsInteger (.integer width) := ⟨width, rfl⟩

instance [IsInteger S] [IsInteger V] : IsInteger (S.common V) := by
  unfold common
  split <;> infer_instance

/-- The common type is the least one above both types. -/
theorem common_le (left : S ≤ T) (right : V ≤ T) : S.common V ≤ T := by
  unfold common
  split <;> assumption

/-- A greater type has a greater type in common with a third one. -/
theorem common_le_common (h : S ≤ T) : S.common V ≤ T.common V :=
  common_le (ScalarType.le_trans h (left_le_common T V)) (right_le_common T V)

end ScalarType

namespace BoundedInt

variable {narrow wide : IntWidth}

/-- An exact result that fits a width fits every width that is not narrower. -/
theorem fit_simulates (h : narrow.rank ≤ wide.rank) (operation : Operation) (n : Int) :
    Simulates (widen h) (fit operation n) (fit operation n) := by
  intro result fits
  have exact_result : result.val = n := fit_eq_ok.mp fits
  exact fit_eq_ok.mpr exact_result

/-- The magnitude of the least integer is its absolute value in a wider type only.  The two differ
by one, so that only the greatest integer as a tolerance can tell them apart. -/
theorem lt_magnitude_widen (h : narrow.rank ≤ wide.rank) {tolerance : BoundedInt narrow}
    (below : tolerance ≠ greatest) (a : BoundedInt narrow) :
    tolerance.val < (a.widen h).magnitude.val ↔ tolerance.val < a.magnitude.val := by
  have limit_le := IntWidth.limit_le_of_rank_le h
  have tolerance_lt : tolerance.val < narrow.limit - 1 := by
    have upper := tolerance.upper
    have differs : tolerance.val ≠ narrow.limit - 1 := fun same => below (BoundedInt.ext same)
    omega
  have tolerance_lt_wide : tolerance.val < wide.limit - 1 := by omega
  rw [val_magnitude, val_magnitude, lt_min_iff, lt_min_iff]
  exact and_congr Iff.rfl (iff_of_true tolerance_lt_wide tolerance_lt)

end BoundedInt

namespace Scalar

variable {R S T : ScalarType}

theorem widen_zero [T.IsInteger] (h : S ≤ T) : (zero : Scalar S).widen h = zero := by
  obtain ⟨wide, rfl⟩ := ScalarType.IsInteger.exists_width (T := T)
  obtain ⟨narrow, rfl⟩ := ScalarType.exists_integer h
  rfl

theorem widen_one [T.IsInteger] (h : S ≤ T) : (one : Scalar S).widen h = one := by
  obtain ⟨wide, rfl⟩ := ScalarType.IsInteger.exists_width (T := T)
  obtain ⟨narrow, rfl⟩ := ScalarType.exists_integer h
  rfl

theorem widen_minusOne [T.IsInteger] (h : S ≤ T) : (minusOne : Scalar S).widen h = minusOne := by
  obtain ⟨wide, rfl⟩ := ScalarType.IsInteger.exists_width (T := T)
  obtain ⟨narrow, rfl⟩ := ScalarType.exists_integer h
  rfl

/-- Widening twice is widening once. -/
theorem widen_widen [T.IsInteger] (first : R ≤ S) (second : S ≤ T) (a : Scalar R) :
    (a.widen first).widen second = a.widen (ScalarType.le_trans first second) := by
  obtain ⟨wide, rfl⟩ := ScalarType.IsInteger.exists_width (T := T)
  obtain ⟨narrow, rfl⟩ := ScalarType.exists_integer second
  obtain ⟨least, rfl⟩ := ScalarType.exists_integer first
  rfl

section Common

variable {V : ScalarType} [T.IsInteger] [V.IsInteger]

/-- A coefficient reaches the wider common type through its own common type. -/
theorem widen_left_common (h : S ≤ T) (a : Scalar S) :
    (a.widen h).widen (T.left_le_common V) =
      (a.widen (S.left_le_common V)).widen (ScalarType.common_le_common h) := by
  rw [widen_widen, widen_widen]

/-- A value reaches the wider common type through the narrower one. -/
theorem widen_right_common (h : S ≤ T) (a : Scalar V) :
    a.widen (T.right_le_common V) =
      (a.widen (S.right_le_common V)).widen (ScalarType.common_le_common h) := by
  rw [widen_widen]

end Common

theorem add_simulates [T.IsInteger] (h : S ≤ T) (a b : Scalar S) :
    Simulates (widen h) (a.add b) ((a.widen h).add (b.widen h)) := by
  obtain ⟨wide, rfl⟩ := ScalarType.IsInteger.exists_width (T := T)
  obtain ⟨narrow, rfl⟩ := ScalarType.exists_integer h
  exact BoundedInt.fit_simulates h .add _

theorem mul_simulates [T.IsInteger] (h : S ≤ T) (a b : Scalar S) :
    Simulates (widen h) (a.mul b) ((a.widen h).mul (b.widen h)) := by
  obtain ⟨wide, rfl⟩ := ScalarType.IsInteger.exists_width (T := T)
  obtain ⟨narrow, rfl⟩ := ScalarType.exists_integer h
  exact BoundedInt.fit_simulates h .multiply _

theorem neg_simulates [T.IsInteger] (h : S ≤ T) (a : Scalar S) :
    Simulates (widen h) a.neg (a.widen h).neg := by
  obtain ⟨wide, rfl⟩ := ScalarType.IsInteger.exists_width (T := T)
  obtain ⟨narrow, rfl⟩ := ScalarType.exists_integer h
  exact BoundedInt.fit_simulates h .negate _

/-- Pruning with a tolerance below the greatest integer decides alike in both types. -/
theorem less_magnitude_widen {narrow wide : IntWidth}
    (h : ScalarType.integer narrow ≤ .integer wide) {tolerance : Scalar (.integer narrow)}
    (below : tolerance ≠ BoundedInt.greatest) (a : Scalar (.integer narrow)) :
    (tolerance.widen h).less (a.widen h).magnitude = tolerance.less a.magnitude :=
  decide_eq_decide.mpr (BoundedInt.lt_magnitude_widen h below a)

end Scalar

end DegreeTwo
