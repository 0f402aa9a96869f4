import DegreeTwo.Proofs.NumberProducts
import DegreeTwo.Proofs.Updates
import Mathlib.Algebra.GroupWithZero.Nat

/-!
# Affine functions as quadratic ones

An affine function is a quadratic one without quadratic terms.  A quadratic destination computes
some products in a way of its own: it writes them as products of two factors, where an affine one
adds a multiple.  Still every update of an affine function has its counterpart for quadratic ones,
and a run of the counterparts keeps the quadratic part empty and the affine part what it would be.
-/

namespace DegreeTwo

variable {T : ScalarType} {width : IntWidth}

/-! ## Counterparts -/

/-- An affine function of a type below as a quadratic one. -/
def Below.ofAffine (f : Below AffineFunction T) : Below QuadraticFunction T :=
  ⟨f.source, f.source_le, .ofAffine f.value⟩

/-- The same product for a quadratic destination. -/
def AffineProduct.toQuadratic : AffineProduct T → QuadraticProduct T
  | .numberTimes number operand => .numberTimes number (.affine operand)
  | .factorTimes factor number => .factorTimes factor (.number number)

/-- The same lists for a quadratic destination. -/
def AffineFactors.toQuadratic : AffineFactors T → QuadraticFactors T
  | .numberTimes x y => .numberTimes x (y.map .affine)
  | .factorTimes x y => .factorTimes x (y.map .number)

/-- The counterpart of an update for quadratic functions.  Updates that only affine functions have
are applied to the affine part. -/
def AffineUpdate.toQuadratic : AffineUpdate T → QuadraticUpdate T
  | .clear => .clear
  | .set value => .set (.ofAffine value)
  | .overwrite source => .overwrite source.ofAffine
  | .add operand => .add (.affine operand)
  | .sub operand => .sub (.affine operand)
  | .addScaled operand number => .addScaled (.affine operand) number
  | .setTo operand => .setTo (.affine operand)
  | .setSum x y => .setSum (.affine x) (.affine y)
  | .setDifference x y => .setDifference (.affine x) (.affine y)
  | .addProduct product => .addProduct product.toQuadratic
  | .setProduct product => .setProduct product.toQuadratic
  | .dot factors => .dot factors.toQuadratic
  | .canonicalize => .canonicalize
  | .prune tolerance => .prune tolerance
  | .pruneZeros => .pruneZeros
  | .neg => .neg
  | .scale number => .scale number
  | .dotTerms factors => .affine (.dotTerms factors)
  | .setConstant constant => .affine (.setConstant constant)
  | .pushLinear term => .affine (.pushLinear term)
  | .truncateLinear len => .affine (.truncateLinear len)

/-! ## Lengths of the term list -/

/-- Number of terms that a product appends. -/
def AffineProduct.termCount : AffineProduct T → Nat
  | .numberTimes _ operand => operand.terms.length
  | .factorTimes factor _ => factor.terms.length

/-- The greatest length that the term list has during an update, if it has a length before. -/
def AffineUpdate.peakLength (update : AffineUpdate T) (len : Nat) : Nat :=
  match update with
  | .clear => 0
  | .set value => value.linear.length
  | .overwrite source => source.value.linear.length
  | .add operand | .sub operand | .addScaled operand _ => len + operand.terms.length
  | .setTo operand => operand.terms.length
  | .setSum x y | .setDifference x y => x.terms.length + y.terms.length
  | .addProduct product => len + product.termCount
  | .setProduct product => product.termCount
  | .dot factors => (factors.products.map AffineProduct.termCount).sum
  | .dotTerms factors => factors.length
  | .pushLinear _ => len + 1
  | .canonicalize | .prune _ | .pruneZeros | .neg | .scale _ | .setConstant _ | .truncateLinear _ =>
      len

/-- At every step of a run the term list has a length that is a machine word. -/
def AffineFunction.LengthsFit : List (AffineUpdate T) → AffineFunction T → Prop
  | [], _ => True
  | update :: updates, f => update.peakLength f.linear.length < Index.limit ∧
      ∀ after, update.perform.leaves f = .ok after → after.LengthsFit updates

theorem AffineFunction.length_of_addScaledFactor {f after : AffineFunction T} {number : Scalar T}
    {factor : Factor T} (succeeds : f.addScaledFactor number factor = .ok after) :
    after.linear.length = f.linear.length + factor.terms.length := by
  cases factor with
  | var x =>
      cases succeeds
      exact List.length_append
  | term x =>
      obtain ⟨scaled, -, result⟩ := bind_eq_ok.mp succeeds
      cases result
      exact List.length_append
  | function x =>
      rw [addScaledFactor_function] at succeeds
      obtain ⟨_, -, succeeds⟩ := bind_eq_ok.mp succeeds
      obtain ⟨scaled, mapped, succeeds⟩ := bind_eq_ok.mp succeeds
      obtain ⟨product, -, succeeds⟩ := bind_eq_ok.mp succeeds
      obtain ⟨constant, -, result⟩ := bind_eq_ok.mp succeeds
      cases result
      rw [List.length_append, length_of_mapM_eq_ok mapped, Factor.terms, List.length_map]

theorem AffineFunction.length_of_addProduct {f after : AffineFunction T} {product : AffineProduct T}
    (succeeds : f.addProduct product = .ok after) :
    after.linear.length = f.linear.length + product.termCount := by
  cases product with
  | numberTimes number operand =>
      cases operand with
      | number x =>
          obtain ⟨scaled, -, succeeds⟩ := bind_eq_ok.mp succeeds
          obtain ⟨constant, -, result⟩ := bind_eq_ok.mp succeeds
          cases result
          rfl
      | factor x => exact length_of_addScaledFactor succeeds
  | factorTimes factor number => exact length_of_addScaledFactor succeeds

/-! ## Operations -/

/-- Writing a factor times a number as a product of two factors adds a multiple of the factor. -/
theorem AffineFunction.addFactorProduct_ofAffine {f : AffineFunction (.integer width)}
    {x : Factor (.integer width)} (number : Below Scalar (.integer width))
    (fits : f.linear.length + x.terms.length < Index.limit) :
    (QuadraticFunction.ofAffine f).addFactorProduct x (.number number) =
      QuadraticFunction.ofAffine <$> f.addScaledFactor number.scalar x :=
  QuadraticFunction.addFactorProduct_number number (Nat.zero_lt_succ _) fits

namespace AffineFactors

theorem checkLengths_toQuadratic (factors : AffineFactors T) :
    factors.toQuadratic.checkLengths = factors.checkLengths := by
  cases factors with
  | numberTimes x y => exact congrArg (checkLength .y x.length) (List.length_map _)
  | factorTimes x y => exact congrArg (checkLength .y x.length) (List.length_map _)

theorem products_toQuadratic (factors : AffineFactors T) :
    factors.toQuadratic.products = factors.products.map AffineProduct.toQuadratic := by
  cases factors with
  | numberTimes x y =>
      rw [toQuadratic, QuadraticFactors.products, products, List.zipWith_map_right,
        List.map_zipWith]
      rfl
  | factorTimes x y =>
      rw [toQuadratic, QuadraticFactors.products, products, List.zipWith_map_right,
        List.map_zipWith]
      rfl

end AffineFactors

theorem lift_eq_map {α β : Type} {g : α → β} {computation : Except Fault α}
    {mapped : Except Fault β} (same : mapped = g <$> computation) :
    (liftM mapped : Except Failure β) = g <$> liftM computation := by
  rw [same, lift_map]

namespace AffineFunction

open QuadraticFunction (ofAffine)

theorem overwrite_ofAffine (f : AffineFunction T) (source : Below AffineFunction T) :
    (ofAffine f).overwrite source.ofAffine = ofAffine (f.overwrite source) := by
  rw [QuadraticFunction.overwrite_eq, overwrite_eq]
  rfl

theorem addScaled_ofAffine (f : AffineFunction T) (operand : AffineOperand T)
    (number : Scalar T) :
    (ofAffine f).addScaled (.affine operand) number = ofAffine <$> f.addScaled operand number :=
  (map_eq_pure_bind _ _).symm

theorem setTo_ofAffine (f : AffineFunction T) (operand : AffineOperand T) :
    (ofAffine f).setTo (.affine operand) = ofAffine <$> f.setTo operand := by
  cases operand with
  | number x => exact f.clear.addScaled_ofAffine (.number x) .one
  | factor x => exact (map_eq_pure_bind _ _).symm

theorem setSum_ofAffine (f : AffineFunction T) (x y : AffineOperand T) :
    (ofAffine f).setSum (.affine x) (.affine y) = ofAffine <$> f.setSum x y := by
  rw [QuadraticFunction.setSum, setTo_ofAffine, bind_map_left, setSum, map_bind]
  apply bind_congr_ok
  intro assigned _
  exact assigned.addScaled_ofAffine y .one

theorem setDifference_ofAffine (f : AffineFunction T) (x y : AffineOperand T) :
    (ofAffine f).setDifference (.affine x) (.affine y) = ofAffine <$> f.setDifference x y := by
  rw [QuadraticFunction.setDifference, setTo_ofAffine, bind_map_left, setDifference, map_bind]
  apply bind_congr_ok
  intro assigned _
  exact assigned.addScaled_ofAffine y .minusOne

theorem canonicalize_ofAffine (f : AffineFunction T) :
    (ofAffine f).canonicalize = ofAffine <$> f.canonicalize :=
  (map_eq_pure_bind _ _).symm

theorem neg_ofAffine (f : AffineFunction T) : (ofAffine f).neg = ofAffine <$> f.neg := by
  rw [QuadraticFunction.neg, ofAffine, List.mapM_nil, pure_bind]
  exact (map_eq_pure_bind _ _).symm

theorem scale_ofAffine (f : AffineFunction T) (number : Scalar T) :
    (ofAffine f).scale number = ofAffine <$> f.scale number := by
  rw [QuadraticFunction.scale, ofAffine, List.mapM_nil, pure_bind]
  exact (map_eq_pure_bind _ _).symm

theorem addProduct_ofAffine {f : AffineFunction (.integer width)}
    {product : AffineProduct (.integer width)}
    (fits : f.linear.length + product.termCount < Index.limit) :
    (ofAffine f).addProduct product.toQuadratic = ofAffine <$> f.addProduct product := by
  cases product with
  | numberTimes number operand => exact (map_eq_pure_bind _ _).symm
  | factorTimes factor number => exact addFactorProduct_ofAffine number fits

theorem addProducts_ofAffine {f : AffineFunction (.integer width)}
    {products : List (AffineProduct (.integer width))}
    (fits : f.linear.length + (products.map AffineProduct.termCount).sum < Index.limit) :
    (ofAffine f).addProducts (products.map AffineProduct.toQuadratic) =
      ofAffine <$> f.addProducts products := by
  induction products generalizing f with
  | nil => rfl
  | cons product products ih =>
      rw [List.map_cons, List.sum_cons] at fits
      have first_fits : f.linear.length + product.termCount < Index.limit := by omega
      rw [QuadraticFunction.addProducts, addProducts, List.map_cons, List.foldlM_cons,
        List.foldlM_cons, addProduct_ofAffine first_fits, bind_map_left, map_bind]
      apply bind_congr_ok
      intro after added
      apply ih
      rw [length_of_addProduct added]
      omega

theorem setProduct_ofAffine {f : AffineFunction (.integer width)}
    {product : AffineProduct (.integer width)} (fits : product.termCount < Index.limit) :
    (ofAffine f).setProduct product.toQuadratic = ofAffine <$> f.setProduct product := by
  have emptied : f.clear.linear.length + product.termCount < Index.limit := by
    rwa [clear, zero, List.length_nil, Nat.zero_add]
  exact addProduct_ofAffine emptied

theorem dot_ofAffine {f : AffineFunction (.integer width)}
    {factors : AffineFactors (.integer width)}
    (fits : (factors.products.map AffineProduct.termCount).sum < Index.limit) :
    (ofAffine f).dot factors.toQuadratic = ofAffine <$> f.dot factors := by
  have emptied : (zero : AffineFunction (.integer width)).linear.length +
      (factors.products.map AffineProduct.termCount).sum < Index.limit := by
    rwa [zero, List.length_nil, Nat.zero_add]
  have summed := addProducts_ofAffine emptied
  rw [QuadraticFunction.dot_eq_checked, dot_eq_checked, ← QuadraticFactors.checkLengths_eq,
    factors.checkLengths_toQuadratic, factors.checkLengths_eq, factors.products_toQuadratic,
    map_bind, ← lift_map, ← summed]
  rfl

end AffineFunction

/-! ## Steps and runs -/

theorem settle_map {σ τ : Type} (part : τ) (whole : τ → σ) (outcome : Except Failure τ) :
    settle (whole part) (whole <$> outcome) = whole <$> settle part outcome := by
  simpa only [map_eq_pure_bind] using settle_bind part whole outcome

/-- The counterpart of an update ends as the update does: with the same function, the same refusal
or the same fault. -/
theorem AffineUpdate.apply_toQuadratic {update : AffineUpdate (.integer width)}
    {f : AffineFunction (.integer width)}
    (fits : update.peakLength f.linear.length < Index.limit) :
    update.toQuadratic.apply (.ofAffine f) = QuadraticFunction.ofAffine <$> update.apply f := by
  rw [AffineUpdate.apply_eq, QuadraticUpdate.apply_eq]
  cases update with
  | clear => rfl
  | set value => rfl
  | overwrite source => exact congrArg Except.ok (f.overwrite_ofAffine source)
  | add x => exact lift_eq_map (f.addScaled_ofAffine x .one)
  | sub x => exact lift_eq_map (f.addScaled_ofAffine x .minusOne)
  | addScaled x number => exact lift_eq_map (f.addScaled_ofAffine x number)
  | setTo x => exact lift_eq_map (f.setTo_ofAffine x)
  | setSum x y => exact lift_eq_map (f.setSum_ofAffine x y)
  | setDifference x y => exact lift_eq_map (f.setDifference_ofAffine x y)
  | addProduct xy => exact lift_eq_map (AffineFunction.addProduct_ofAffine fits)
  | setProduct xy => exact lift_eq_map (AffineFunction.setProduct_ofAffine fits)
  | dot xy => exact AffineFunction.dot_ofAffine fits
  | canonicalize => exact lift_eq_map f.canonicalize_ofAffine
  | prune tolerance => rfl
  | pruneZeros => rfl
  | neg => exact lift_eq_map f.neg_ofAffine
  | scale number => exact lift_eq_map (f.scale_ofAffine number)
  | dotTerms xy =>
      change (AffineUpdate.dotTerms xy).apply f >>= _ = _
      rw [AffineUpdate.apply_eq]
      exact (map_eq_pure_bind _ _).symm
  | setConstant constant => rfl
  | pushLinear term => rfl
  | truncateLinear len => rfl

/-- The counterparts of a run lead from the embedded start to the embedded end. -/
theorem AffineFunction.run_toQuadratic {updates : List (AffineUpdate (.integer width))}
    {f : AffineFunction (.integer width)} (fits : f.LengthsFit updates) :
    (QuadraticFunction.ofAffine f).run (updates.map AffineUpdate.toQuadratic) =
      QuadraticFunction.ofAffine <$> f.run updates := by
  rw [QuadraticFunction.run_eq, run_eq]
  induction updates generalizing f with
  | nil => rfl
  | cons update updates ih =>
      obtain ⟨update_fits, rest_fit⟩ := fits
      rw [List.map_cons, runUpdates_cons, runUpdates_cons,
        AffineUpdate.apply_toQuadratic update_fits, settle_map, bind_map_left, map_bind]
      apply bind_congr_ok
      intro after settled
      exact ih (rest_fit after ((update.leaves_eq f).trans settled))

/-- The rest of a run fits after its front. -/
theorem AffineFunction.LengthsFit.append {front back : List (AffineUpdate T)}
    {f : AffineFunction T} (fits : f.LengthsFit (front ++ back)) :
    f.LengthsFit front ∧ ∀ state, f.run front = .ok state → state.LengthsFit back := by
  simp only [run]
  induction front generalizing f with
  | nil =>
      refine ⟨trivial, fun state run_front => ?_⟩
      cases run_front
      exact fits
  | cons update front ih =>
      obtain ⟨update_fits, rest_fit⟩ := fits
      refine ⟨⟨update_fits, fun after left => (ih (rest_fit after left)).1⟩, ?_⟩
      intro state run_front
      rw [InPlace.performAll_cons] at run_front
      obtain ⟨after, left, run_rest⟩ := bind_eq_ok.mp run_front
      exact (ih (rest_fit after left)).2 state run_rest

/-! ## Readings -/

namespace QuadraticFunction

theorem evaluate_ofAffine {V : ScalarType} (f : AffineFunction T) (values : Assignment V) :
    (ofAffine f).evaluate values = f.evaluate values := bind_pure _

theorem isCanonical_ofAffine (f : AffineFunction T) :
    (ofAffine f).isCanonical = f.isCanonical := by
  rw [isCanonical, ofAffine, List.all_nil, Bool.and_true]
  exact Bool.and_true _

theorem render_ofAffine (f : AffineFunction T) : (ofAffine f).render = f.render :=
  String.empty_append

end QuadraticFunction

/-- Affine functions are simulated by quadratic ones: after every front of a run, the counterparts
have led to the embedding of the state that the run has reached, or to the same fault; the next
update has the same outcome for both; and both states read the same. -/
theorem affine_run_embeds (f : AffineFunction (.integer width))
    (updates : List (AffineUpdate (.integer width))) (fits : f.LengthsFit updates) :
    ∀ front back, updates = front ++ back →
      (QuadraticFunction.ofAffine f).run (front.map AffineUpdate.toQuadratic) =
          QuadraticFunction.ofAffine <$> f.run front ∧
        ∀ state, f.run front = .ok state →
          (∀ update rest, back = update :: rest →
            update.toQuadratic.apply (.ofAffine state) =
              QuadraticFunction.ofAffine <$> update.apply state) ∧
          (∀ (V : ScalarType) (values : Assignment V),
            (QuadraticFunction.ofAffine state).evaluate values = state.evaluate values) ∧
          (QuadraticFunction.ofAffine state).isCanonical = state.isCanonical ∧
          (QuadraticFunction.ofAffine state).render = state.render := by
  rintro front back rfl
  obtain ⟨front_fits, back_fits⟩ := fits.append
  refine ⟨AffineFunction.run_toQuadratic front_fits, fun state run_front => ⟨?_, ?_, ?_, ?_⟩⟩
  · rintro update rest rfl
    exact AffineUpdate.apply_toQuadratic (back_fits state run_front).1
  · exact fun V values => QuadraticFunction.evaluate_ofAffine state values
  · exact QuadraticFunction.isCanonical_ofAffine state
  · exact QuadraticFunction.render_ofAffine state

/-- The function `x1 + 1`. -/
def shiftedVariable : AffineFunction (.integer .bits8) := ⟨[⟨.one, ⟨1⟩⟩], .one⟩

/-- A run that subtracts a function and a variable as products with minus one.  Between them stands
a sum of products of lists of different lengths, which is refused. -/
def subtractingRun : List (AffineUpdate (.integer .bits8)) :=
  [.addProduct (.factorTimes (.function (.same shiftedVariable)) (.same .minusOne)),
    .dot (.factorTimes [.var ⟨1⟩, .var ⟨2⟩] [.same .one]),
    .addProduct (.factorTimes (.var ⟨2⟩) (.same .minusOne))]

theorem subtractingRun_fits : shiftedVariable.LengthsFit subtractingRun := by
  refine ⟨by decide, fun first left => ?_⟩
  cases left
  refine ⟨by decide, fun second left => ?_⟩
  cases left
  exact ⟨by decide, fun _ _ => trivial⟩

theorem affine_run_embeds_subtracting :
    shiftedVariable.LengthsFit subtractingRun ∧
      (QuadraticFunction.ofAffine shiftedVariable).run
          (subtractingRun.map AffineUpdate.toQuadratic) =
        .ok ⟨[], [⟨.one, ⟨1⟩⟩, ⟨.minusOne, ⟨1⟩⟩, ⟨.minusOne, ⟨2⟩⟩], .zero⟩ ∧
      ∀ state, shiftedVariable.run (subtractingRun.take 1) = .ok state →
        (AffineUpdate.dot (.factorTimes [.var ⟨1⟩, .var ⟨2⟩] [.same .one])).toQuadratic.apply
            (.ofAffine state) = .error (.refused (.wrongLength .y 2 1)) := by
  refine ⟨subtractingRun_fits, ?_, ?_⟩
  · exact (affine_run_embeds shiftedVariable subtractingRun subtractingRun_fits subtractingRun []
      (List.append_nil _).symm).1.trans rfl
  · intro state run_front
    exact ((affine_run_embeds shiftedVariable subtractingRun subtractingRun_fits
      (subtractingRun.take 1) (subtractingRun.drop 1) rfl).2 state run_front).1 _ _ rfl

end DegreeTwo
