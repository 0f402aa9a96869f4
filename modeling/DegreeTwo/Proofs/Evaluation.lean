import DegreeTwo.Proofs.Value.Canonical
import DegreeTwo.Proofs.Widening.Basic

/-!
# Evaluation at partial assignments

An evaluation looks up the variables of the terms one after the other and is refused at the first
one without a value, whatever its coefficient is.  If there is none, the result is the value of the
function as a polynomial.  Merging like terms changes neither the value nor the set of the variables
that are looked up, but it changes their order.
-/

namespace DegreeTwo

variable {T V : ScalarType} {width : IntWidth}

/-! ## Arithmetic in a common integer type -/

namespace Scalar

variable {C : ScalarType} [C.IsInteger]

theorem toInt_widen_integer (h : T ≤ C) (a : Scalar T) : (a.widen h).toInt = a.toInt := by
  obtain ⟨wide, rfl⟩ := ScalarType.IsInteger.exists_width (T := C)
  exact toInt_widen h a

theorem add_yields_integer (a b : Scalar C) :
    Yields (a.add b) fun sum => sum.toInt = a.toInt + b.toInt := by
  obtain ⟨wide, rfl⟩ := ScalarType.IsInteger.exists_width (T := C)
  exact add_yields a b

theorem mul_yields_integer (a b : Scalar C) :
    Yields (a.mul b) fun product => product.toInt = a.toInt * b.toInt := by
  obtain ⟨wide, rfl⟩ := ScalarType.IsInteger.exists_width (T := C)
  exact mul_yields a b

theorem ext_integer {a b : Scalar C} (same : a.toInt = b.toInt) : a = b := by
  obtain ⟨wide, rfl⟩ := ScalarType.IsInteger.exists_width (T := C)
  exact ext_toInt same

end Scalar

/-! ## Missing variables -/

namespace Assignment

/-- The first of the variables that has no value. -/
def firstMissing? (values : Assignment V) (vars : List Variable) : Option Variable :=
  vars.find? fun x => (values.value? x).isNone

/-- The integers that the assignment stands for; variables without a value count as zero. -/
def point (values : Assignment V) (x : Variable) : Int :=
  ((values.value? x).map Scalar.toInt).getD 0

theorem firstMissing?_append (values : Assignment V) (vars more : List Variable) :
    values.firstMissing? (vars ++ more) =
      (values.firstMissing? vars).or (values.firstMissing? more) :=
  List.find?_append

theorem firstMissing?_eq_none {values : Assignment V} {vars : List Variable} :
    values.firstMissing? vars = none ↔ ∀ x ∈ vars, values.value? x ≠ none := by
  simp [firstMissing?, Option.ne_none_iff_isSome]

theorem exists_firstMissing? {values : Assignment V} {vars : List Variable} :
    (∃ x, values.firstMissing? vars = some x) ↔ ∃ x ∈ vars, values.value? x = none := by
  rw [← Option.isSome_iff_exists, ← Option.ne_none_iff_isSome, ne_eq, firstMissing?_eq_none]
  push Not
  rfl

/-- The first missing variable of an ascending list is the least missing one. -/
theorem isLeast_firstMissing? {values : Assignment V} {vars : List Variable} {x : Variable}
    (ascend : vars.Pairwise (· < ·)) (first : values.firstMissing? vars = some x) :
    IsLeast {y | y ∈ vars ∧ values.value? y = none} x := by
  obtain ⟨missing, front, back, rfl, present⟩ := List.find?_eq_some_iff_append.mp first
  refine ⟨⟨by simp, by simpa using missing⟩, ?_⟩
  rintro y ⟨member, y_missing⟩
  rcases List.mem_append.mp member with in_front | in_rest
  · have y_present := present y in_front
    simp [y_missing] at y_present
  · rcases List.mem_cons.mp in_rest with rfl | behind
    · exact le_refl y
    · exact le_of_lt ((List.pairwise_cons.mp (List.pairwise_append.mp ascend).2.1).1 y behind)

end Assignment

/-! ## Computations that look up variables -/

/-- The computation reports the missing variable, if there is one, and returns a result with the
property otherwise, unless it breaks off because an integer does not fit. -/
def YieldsUnlessMissing {α : Type} (missing : Option Variable) (computation : Except Failure α)
    (property : α → Prop) : Prop :=
  match computation with
  | .ok result => missing = none ∧ property result
  | .error (.refused error) => ∃ x, missing = some x ∧ error = .missingValue x
  | .error (.faulted fault) => ∃ operation, fault = .overflow operation

namespace YieldsUnlessMissing

variable {α β : Type} {missing others : Option Variable} {computation : Except Failure α}
variable {property : α → Prop}

theorem bind {next : α → Except Failure β} {result : β → Prop}
    (first : YieldsUnlessMissing missing computation property)
    (second : ∀ value, property value → YieldsUnlessMissing others (next value) result) :
    YieldsUnlessMissing (missing.or others) (computation >>= next) result := by
  cases computation with
  | ok value =>
      obtain ⟨rfl, holds⟩ := first
      exact second value holds
  | error failure =>
      cases failure with
      | refused error =>
          obtain ⟨x, rfl, rfl⟩ := first
          exact ⟨x, rfl, rfl⟩
      | faulted fault => exact first

theorem lift {computation : Except Fault α} (yields : Yields computation property) :
    YieldsUnlessMissing none (liftM computation) property := by
  cases computation with
  | ok value => exact ⟨rfl, yields⟩
  | error fault => exact yields

theorem lookup (values : Assignment V) (x : Variable) :
    YieldsUnlessMissing (values.firstMissing? [x]) (values.lookup x) fun value =>
      value.toInt = values.point x := by
  rw [Assignment.lookup, Assignment.point, Assignment.firstMissing?]
  cases found : values.value? x with
  | none => exact ⟨x, by simp [found], rfl⟩
  | some value => exact ⟨by simp [found], rfl⟩

/-- Steps that each look up some variables and add a weight look up all of them and add the sum of
the weights. -/
theorem foldlM {step : α → β → Except Failure α} {total : α → Int} {weight : β → Int}
    {lookups : β → List Variable} {values : Assignment V}
    (each : ∀ state input, YieldsUnlessMissing (values.firstMissing? (lookups input))
      (step state input) fun after => total after = total state + weight input) (start : α)
    (inputs : List β) :
    YieldsUnlessMissing (values.firstMissing? (inputs.flatMap lookups)) (inputs.foldlM step start)
      fun final => total final = total start + (inputs.map weight).sum := by
  induction inputs generalizing start with
  | nil => exact ⟨rfl, by simp⟩
  | cons input inputs ih =>
      rw [List.foldlM_cons, List.flatMap_cons, values.firstMissing?_append]
      apply (each start input).bind
      intro after added
      rw [List.map_cons, List.sum_cons, ← Int.add_assoc, ← added]
      exact ih after

end YieldsUnlessMissing

/-- The computation does not break off because an integer does not fit. -/
def NoOverflow {α : Type} (computation : Except Failure α) : Prop :=
  ∀ operation, computation ≠ .error (.faulted (.overflow operation))

namespace YieldsUnlessMissing

variable {α : Type} {missing : Option Variable} {computation : Except Failure α}
variable {property : α → Prop}

theorem refused {x : Variable} (yields : YieldsUnlessMissing missing computation property)
    (fits : NoOverflow computation) (is_missing : missing = some x) :
    computation = refuse (.missingValue x) := by
  cases computation with
  | ok value =>
      obtain ⟨rfl, -⟩ := yields
      cases is_missing
  | error failure =>
      cases failure with
      | refused error =>
          obtain ⟨y, rfl, rfl⟩ := yields
          cases is_missing
          rfl
      | faulted fault =>
          obtain ⟨operation, rfl⟩ := yields
          exact absurd rfl (fits operation)

theorem delivered (yields : YieldsUnlessMissing missing computation property)
    (fits : NoOverflow computation) (none_missing : missing = none) :
    ∃ value, computation = .ok value ∧ property value := by
  cases computation with
  | ok value => exact ⟨value, rfl, yields.2⟩
  | error failure =>
      cases failure with
      | refused error =>
          obtain ⟨y, rfl, -⟩ := yields
          cases none_missing
      | faulted fault =>
          obtain ⟨operation, rfl⟩ := yields
          exact absurd rfl (fits operation)

/-- Without an overflow, the computation reports exactly the missing variable. -/
theorem refused_iff (yields : YieldsUnlessMissing missing computation property)
    (fits : NoOverflow computation) (x : Variable) :
    computation = refuse (.missingValue x) ↔ missing = some x := by
  refine ⟨?_, yields.refused fits⟩
  rintro rfl
  obtain ⟨y, is_missing, same⟩ := yields
  rw [is_missing, Error.missingValue.inj same]

/-- Without an overflow, the computation has a result exactly if no variable is missing. -/
theorem delivered_iff (yields : YieldsUnlessMissing missing computation property)
    (fits : NoOverflow computation) : (∃ value, computation = .ok value) ↔ missing = none := by
  constructor
  · rintro ⟨value, rfl⟩
    exact yields.1
  · intro none_missing
    obtain ⟨value, succeeds, -⟩ := yields.delivered fits none_missing
    exact ⟨value, succeeds⟩

end YieldsUnlessMissing

/-! ## Evaluations -/

/-- The variables of a pair in the order in which they are looked up. -/
def VariablePair.lookups (pair : VariablePair) : List Variable := [pair.row, pair.col]

/-- The variables of the terms in the order in which they are looked up. -/
def AffineFunction.lookups (f : AffineFunction T) : List Variable := f.linear.map LinearTerm.var

/-- The variables of the terms in the order in which they are looked up: those of the linear terms
first, then row and column of each quadratic term. -/
def QuadraticFunction.lookups (f : QuadraticFunction T) : List Variable :=
  f.affine.lookups ++ (f.quadratic.map QuadraticTerm.pair).flatMap VariablePair.lookups

theorem Assignment.lookup_congr {values other : Assignment V} {x : Variable}
    (same : values.value? x = other.value? x) : values.lookup x = other.lookup x := by
  rw [lookup, lookup, same]

/-- An evaluation depends on the values of the variables in the function only. -/
theorem AffineFunction.evaluate_congr (f : AffineFunction T) {values other : Assignment V}
    (same : ∀ x ∈ f.lookups, values.value? x = other.value? x) :
    f.evaluate values = f.evaluate other := by
  apply foldlM_eq_of_forall₂ (List.forall₂_same.mpr _)
  intro term member sum
  have same_lookup := Assignment.lookup_congr (same _ (List.mem_map_of_mem member))
  rw [addTermValue, addTermValue, same_lookup]

/-- An evaluation depends on the values of the variables in the function only. -/
theorem QuadraticFunction.evaluate_congr (f : QuadraticFunction T) {values other : Assignment V}
    (same : ∀ x ∈ f.lookups, values.value? x = other.value? x) :
    f.evaluate values = f.evaluate other := by
  have same_affine := f.affine.evaluate_congr fun x member =>
    same x (List.mem_append_left _ member)
  rw [evaluate, evaluate, same_affine]
  apply bind_congr
  intro start
  apply foldlM_eq_of_forall₂ (List.forall₂_same.mpr _)
  intro term member sum
  have same_lookup : ∀ x ∈ term.pair.lookups, values.lookup x = other.lookup x := by
    intro x looked_up
    refine Assignment.lookup_congr (same x (List.mem_append_right _ (List.mem_flatMap.mpr ?_)))
    exact ⟨term.pair, List.mem_map_of_mem member, looked_up⟩
  have same_row := same_lookup term.row (by simp [VariablePair.lookups, QuadraticTerm.pair])
  have same_col := same_lookup term.col (by simp [VariablePair.lookups, QuadraticTerm.pair])
  rw [addTermValue, addTermValue, same_row, same_col]

section Evaluate

variable [T.IsInteger] [V.IsInteger] (values : Assignment V)

namespace AffineFunction

theorem addTermValue_yields (sum : Scalar (T.common V)) (term : LinearTerm T) :
    YieldsUnlessMissing (values.firstMissing? [term.var]) (addTermValue values sum term)
      fun after => after.toInt = sum.toInt + term.value values.point := by
  rw [← Option.or_none (o := values.firstMissing? [term.var])]
  apply (YieldsUnlessMissing.lookup values term.var).bind
  intro value value_eq
  apply (YieldsUnlessMissing.lift (Scalar.mul_yields_integer _ _)).bind
  intro product product_eq
  apply YieldsUnlessMissing.lift
  apply (Scalar.add_yields_integer _ _).imp
  intro after after_eq
  rw [after_eq, product_eq, Scalar.toInt_widen_integer, Scalar.toInt_widen_integer, value_eq]
  rfl

theorem evaluate_yields (f : AffineFunction T) :
    YieldsUnlessMissing (values.firstMissing? f.lookups) (f.evaluate values) fun number =>
      number.toInt = f.value values.point := by
  have looked_up : f.lookups = f.linear.flatMap fun term => [term.var] := List.map_eq_flatMap
  have sums := YieldsUnlessMissing.foldlM (addTermValue_yields values)
    (f.constant.widen (T.left_le_common V)) f.linear
  rw [looked_up, value, Int.add_comm, ← Scalar.toInt_widen_integer (T.left_le_common V)]
  exact sums

end AffineFunction

namespace QuadraticFunction

theorem addTermValue_yields (sum : Scalar (T.common V)) (term : QuadraticTerm T) :
    YieldsUnlessMissing (values.firstMissing? term.pair.lookups) (addTermValue values sum term)
      fun after => after.toInt = sum.toInt + term.value values.point := by
  have looked_up : values.firstMissing? term.pair.lookups =
      (values.firstMissing? [term.row]).or ((values.firstMissing? [term.col]).or none) := by
    rw [Option.or_none, ← values.firstMissing?_append]
    rfl
  rw [looked_up]
  apply (YieldsUnlessMissing.lookup values term.row).bind
  intro row row_eq
  apply (YieldsUnlessMissing.lookup values term.col).bind
  intro col col_eq
  apply (YieldsUnlessMissing.lift (Scalar.mul_yields_integer _ _)).bind
  intro left left_eq
  apply (YieldsUnlessMissing.lift (Scalar.mul_yields_integer _ _)).bind
  intro product product_eq
  apply YieldsUnlessMissing.lift
  apply (Scalar.add_yields_integer _ _).imp
  intro after after_eq
  rw [after_eq, product_eq, left_eq, Scalar.toInt_widen_integer, Scalar.toInt_widen_integer,
    Scalar.toInt_widen_integer, row_eq, col_eq]
  rfl

theorem evaluate_yields (f : QuadraticFunction T) :
    YieldsUnlessMissing (values.firstMissing? f.lookups) (f.evaluate values) fun number =>
      number.toInt = f.value values.point := by
  rw [lookups, values.firstMissing?_append, List.flatMap_map]
  apply (f.affine.evaluate_yields values).bind
  intro start start_eq
  have sums := YieldsUnlessMissing.foldlM (addTermValue_yields values) start f.quadratic
  rw [value, Int.add_comm, ← start_eq]
  exact sums

end QuadraticFunction

end Evaluate

/-! ## Evaluations of canonical forms -/

/-- Evaluations that look up the same variables and compute the same integer both have this number
as their result, or are both refused. -/
theorem evaluations_agree {C : ScalarType} [C.IsInteger] {values : Assignment V}
    {vars others : List Variable} (same : ∀ x, x ∈ vars ↔ x ∈ others)
    {first second : Except Failure (Scalar C)} {n : Int}
    (first_yields : YieldsUnlessMissing (values.firstMissing? vars) first (·.toInt = n))
    (second_yields : YieldsUnlessMissing (values.firstMissing? others) second (·.toInt = n))
    (first_fits : NoOverflow first) (second_fits : NoOverflow second) :
    (∃ number, first = .ok number ∧ second = .ok number) ∨
      ∃ x y, first = refuse (.missingValue x) ∧ second = refuse (.missingValue y) ∧
        values.firstMissing? others = some y := by
  cases missing : values.firstMissing? vars with
  | none =>
      have other_missing : values.firstMissing? others = none := by
        rw [Assignment.firstMissing?_eq_none] at missing ⊢
        exact fun x member => missing x ((same x).mpr member)
      obtain ⟨number, first_succeeds, rfl⟩ := first_yields.delivered first_fits missing
      obtain ⟨other, second_succeeds, same_number⟩ :=
        second_yields.delivered second_fits other_missing
      obtain rfl : other = number := Scalar.ext_integer same_number
      exact .inl ⟨other, first_succeeds, second_succeeds⟩
  | some x =>
      obtain ⟨z, member, no_value⟩ := Assignment.exists_firstMissing?.mp ⟨x, missing⟩
      -- The other order may have another missing variable in front.
      obtain ⟨y, other_missing⟩ :=
        Assignment.exists_firstMissing?.mpr ⟨z, (same z).mp member, no_value⟩
      exact .inr ⟨x, y, first_yields.refused first_fits missing,
        second_yields.refused second_fits other_missing, other_missing⟩

theorem AffineFunction.CanonicalOf.mem_lookups {f canonical : AffineFunction (.integer width)}
    (canonicalOf : f.CanonicalOf canonical) (x : Variable) :
    x ∈ f.lookups ↔ x ∈ canonical.lookups :=
  (canonicalOf.mem_variables x).symm

theorem QuadraticTerm.mem_lookups_orient (term : QuadraticTerm T) (x : Variable) :
    x ∈ term.orient.pair.lookups ↔ x ∈ term.pair.lookups := by
  rw [orient]
  split
  · simp [pair, VariablePair.lookups, or_comm]
  · rfl

theorem QuadraticFunction.CanonicalOf.lookups_eq
    {f canonical : QuadraticFunction (.integer width)} (canonicalOf : f.CanonicalOf canonical) :
    canonical.lookups = canonical.affine.lookups ++
      (distinctKeys QuadraticTerm.pair (f.quadratic.map QuadraticTerm.orient)).flatMap
        VariablePair.lookups := by
  rw [lookups, canonicalOf.keys]

theorem QuadraticFunction.CanonicalOf.mem_lookups
    {f canonical : QuadraticFunction (.integer width)} (canonicalOf : f.CanonicalOf canonical)
    (x : Variable) : x ∈ f.lookups ↔ x ∈ canonical.lookups := by
  rw [canonicalOf.lookups_eq, lookups, List.mem_append, List.mem_append,
    canonicalOf.affine.mem_lookups]
  simp only [List.mem_flatMap, mem_distinctKeys, List.map_map, List.mem_map,
    exists_exists_and_eq_and, Function.comp_apply, QuadraticTerm.mem_lookups_orient]

section Canonical

variable {valueWidth : IntWidth} (values : Assignment (.integer valueWidth))

theorem AffineFunction.evaluate_canonical {f canonical : AffineFunction (.integer width)}
    (succeeds : f.canonicalize = .ok canonical) (fits : NoOverflow (f.evaluate values))
    (canonical_fits : NoOverflow (canonical.evaluate values)) :
    (∃ number, f.evaluate values = .ok number ∧ canonical.evaluate values = .ok number) ∨
      ∃ x y, f.evaluate values = refuse (.missingValue x) ∧
        canonical.evaluate values = refuse (.missingValue y) ∧
        IsLeast {z | z ∈ f.variables ∧ values.value? z = none} y := by
  have canonicalOf := canonicalOf_of_canonicalize succeeds
  have same_value := f.canonicalize_yields.result succeeds values.point
  have canonical_yields := canonical.evaluate_yields values
  rw [same_value] at canonical_yields
  refine (evaluations_agree canonicalOf.mem_lookups (f.evaluate_yields values) canonical_yields fits
    canonical_fits).imp_right ?_
  rintro ⟨x, y, f_refused, canonical_refused, first⟩
  refine ⟨x, y, f_refused, canonical_refused, ?_⟩
  have least := Assignment.isLeast_firstMissing? canonicalOf.strict first
  simpa only [canonicalOf.mem_variables] using least

theorem QuadraticFunction.evaluate_canonical {f canonical : QuadraticFunction (.integer width)}
    (succeeds : f.canonicalize = .ok canonical) (fits : NoOverflow (f.evaluate values))
    (canonical_fits : NoOverflow (canonical.evaluate values)) :
    (∃ number, f.evaluate values = .ok number ∧ canonical.evaluate values = .ok number) ∨
      ∃ x y, f.evaluate values = refuse (.missingValue x) ∧
        canonical.evaluate values = refuse (.missingValue y) ∧
        (IsLeast {z | z ∈ f.affine.variables ∧ values.value? z = none} y ∨
          (∀ z ∈ f.affine.variables, values.value? z ≠ none) ∧
            values.firstMissing? ((distinctKeys QuadraticTerm.pair
              (f.quadratic.map QuadraticTerm.orient)).flatMap VariablePair.lookups) = some y) := by
  have canonicalOf := canonicalOf_of_canonicalize succeeds
  have same_value := f.canonicalize_yields.result succeeds values.point
  have canonical_yields := canonical.evaluate_yields values
  rw [same_value] at canonical_yields
  refine (evaluations_agree canonicalOf.mem_lookups (f.evaluate_yields values) canonical_yields fits
    canonical_fits).imp_right ?_
  rintro ⟨x, y, f_refused, canonical_refused, first⟩
  refine ⟨x, y, f_refused, canonical_refused, ?_⟩
  rw [canonicalOf.lookups_eq, values.firstMissing?_append] at first
  cases linear_missing : values.firstMissing? canonical.affine.lookups with
  | some z =>
      obtain rfl : z = y := by simpa [linear_missing] using first
      have least := Assignment.isLeast_firstMissing? canonicalOf.affine.strict linear_missing
      exact .inl (by simpa only [canonicalOf.affine.mem_variables] using least)
  | none =>
      -- All linear terms have values, so the first missing variable is one of the pairs.
      refine .inr ⟨fun z member => ?_, by simpa [linear_missing] using first⟩
      exact Assignment.firstMissing?_eq_none.mp linear_missing z
        ((canonicalOf.affine.mem_variables z).mpr member)

end Canonical

/-- The computation is refused exactly if one of the variables has no value, reports the first one
without a value then, and has a result otherwise. -/
structure ReportsFirstMissing {α : Type} (values : Assignment V) (vars : List Variable)
    (computation : Except Failure α) : Prop where
  /-- It is refused exactly if some variable has no value. -/
  refused : (∃ x, computation = refuse (.missingValue x)) ↔ ∃ x ∈ vars, values.value? x = none
  /-- The variable that is reported is the first one without a value. -/
  first : ∀ x, computation = refuse (.missingValue x) ↔ values.firstMissing? vars = some x
  /-- It has a result if all variables have values. -/
  delivered : (∃ result, computation = .ok result) ↔ ∀ x ∈ vars, values.value? x ≠ none

theorem YieldsUnlessMissing.reportsFirstMissing {α : Type} {values : Assignment V}
    {vars : List Variable} {computation : Except Failure α} {property : α → Prop}
    (yields : YieldsUnlessMissing (values.firstMissing? vars) computation property)
    (fits : NoOverflow computation) : ReportsFirstMissing values vars computation where
  refused := by
    simp only [yields.refused_iff fits]
    exact Assignment.exists_firstMissing?
  first := yields.refused_iff fits
  delivered := (yields.delivered_iff fits).trans Assignment.firstMissing?_eq_none

/-- What an evaluation reports depends on the values of the variables in the function only.  Without
an overflow, it is refused exactly if one of them has no value, and reports the first one in the
order of the terms.  The canonical form has the same value, or is refused too: it reports the least
missing variable of the linear terms, and where there is none the first missing one of the pairs in
ascending order. -/
theorem evaluation_outcomes :
    (∀ (T V : ScalarType) (values other : Assignment V),
      (∀ f : AffineFunction T, (∀ x ∈ f.lookups, values.value? x = other.value? x) →
        f.evaluate values = f.evaluate other) ∧
      ∀ f : QuadraticFunction T, (∀ x ∈ f.lookups, values.value? x = other.value? x) →
        f.evaluate values = f.evaluate other) ∧
    ∀ (width valueWidth : IntWidth) (values : Assignment (.integer valueWidth)),
      (∀ f : AffineFunction (.integer width), NoOverflow (f.evaluate values) →
        ReportsFirstMissing values f.lookups (f.evaluate values)) ∧
      (∀ f : QuadraticFunction (.integer width), NoOverflow (f.evaluate values) →
        ReportsFirstMissing values f.lookups (f.evaluate values)) ∧
      (∀ f canonical : AffineFunction (.integer width), f.canonicalize = .ok canonical →
        NoOverflow (f.evaluate values) → NoOverflow (canonical.evaluate values) →
        (∃ number, f.evaluate values = .ok number ∧ canonical.evaluate values = .ok number) ∨
          ∃ x y, f.evaluate values = refuse (.missingValue x) ∧
            canonical.evaluate values = refuse (.missingValue y) ∧
            IsLeast {z | z ∈ f.variables ∧ values.value? z = none} y) ∧
      ∀ f canonical : QuadraticFunction (.integer width), f.canonicalize = .ok canonical →
        NoOverflow (f.evaluate values) → NoOverflow (canonical.evaluate values) →
        (∃ number, f.evaluate values = .ok number ∧ canonical.evaluate values = .ok number) ∨
          ∃ x y, f.evaluate values = refuse (.missingValue x) ∧
            canonical.evaluate values = refuse (.missingValue y) ∧
            (IsLeast {z | z ∈ f.affine.variables ∧ values.value? z = none} y ∨
              (∀ z ∈ f.affine.variables, values.value? z ≠ none) ∧
                values.firstMissing? ((distinctKeys QuadraticTerm.pair
                  (f.quadratic.map QuadraticTerm.orient)).flatMap VariablePair.lookups) =
                    some y) := by
  refine ⟨fun T V values other => ⟨fun f => f.evaluate_congr, fun f => f.evaluate_congr⟩, ?_⟩
  intro width valueWidth values
  exact ⟨fun f fits => (f.evaluate_yields values).reportsFirstMissing fits,
    fun f fits => (f.evaluate_yields values).reportsFirstMissing fits,
    fun f canonical succeeds => AffineFunction.evaluate_canonical values succeeds,
    fun f canonical succeeds => QuadraticFunction.evaluate_canonical values succeeds⟩

/-- The function `x4 * x2 + x1 * x3`. -/
def crossedProducts : QuadraticFunction (.integer .bits8) :=
  ⟨[⟨.one, ⟨4⟩, ⟨2⟩⟩, ⟨.one, ⟨1⟩, ⟨3⟩⟩], .zero⟩

/-- The function `x1 * x3 + x2 * x4`. -/
def sortedProducts : QuadraticFunction (.integer .bits8) :=
  ⟨[⟨.one, ⟨1⟩, ⟨3⟩⟩, ⟨.one, ⟨2⟩, ⟨4⟩⟩], .zero⟩

/-- The variables `x0` and `x1` have the value one. -/
def denseOnes : Assignment (.integer .bits16) := .dense [.one, .one]

/-- The variable `x1` has the value one. -/
def sparseOne : Assignment (.integer .bits16) := .sparse [(⟨1⟩, .one)]

theorem crossedProducts_canonicalize : crossedProducts.canonicalize = .ok sortedProducts := by
  rw [QuadraticFunction.canonicalize_eq, AffineFunction.canonicalize_eq,
    mergeByKey_eq_filterMapM LinearTerm.addsTotals.preservesKey,
    mergeByKey_eq_filterMapM QuadraticTerm.addsTotals.preservesKey]
  rfl

/-- The least missing variable `x2` is reported by neither of the two functions. -/
theorem evaluation_outcomes_crossed :
    crossedProducts.evaluate sparseOne = crossedProducts.evaluate denseOnes ∧
      crossedProducts.evaluate denseOnes = refuse (.missingValue ⟨4⟩) ∧
      sortedProducts.evaluate denseOnes = refuse (.missingValue ⟨3⟩) := by
  obtain ⟨agree, outcomes⟩ := evaluation_outcomes
  obtain ⟨-, reports, -, canonical⟩ := outcomes .bits8 .bits16 denseOnes
  have same_values : ∀ x ∈ crossedProducts.lookups, sparseOne.value? x = denseOnes.value? x := by
    have looked_up : crossedProducts.lookups = [⟨4⟩, ⟨2⟩, ⟨1⟩, ⟨3⟩] := rfl
    rw [looked_up]
    simp only [List.forall_mem_cons, List.not_mem_nil, false_imp_iff, forall_const, and_true]
    exact ⟨rfl, rfl, rfl, rfl⟩
  have crossed_fits : NoOverflow (crossedProducts.evaluate denseOnes) := fun _ => nofun
  have sorted_fits : NoOverflow (sortedProducts.evaluate denseOnes) := fun _ => nofun
  refine ⟨(agree _ _ sparseOne denseOnes).2 crossedProducts same_values,
    ((reports crossedProducts crossed_fits).first ⟨4⟩).mpr rfl, ?_⟩
  rcases canonical crossedProducts sortedProducts crossedProducts_canonicalize crossed_fits
    sorted_fits with ⟨number, delivered, -⟩ | ⟨x, y, -, refused, least | ⟨-, first⟩⟩
  · cases delivered
  · cases least.1.1
  · obtain rfl : y = ⟨3⟩ := (Option.some.inj (first.symm.trans rfl))
    exact refused

end DegreeTwo
