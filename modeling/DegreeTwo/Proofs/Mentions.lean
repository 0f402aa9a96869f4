import DegreeTwo.Proofs.Buffers
import DegreeTwo.Proofs.NormalForm
import DegreeTwo.Proofs.Updates
import Mathlib.Order.ConditionallyCompleteLattice.Basic

/-!
# What a function mentions

A term mentions its variables whatever its coefficient is.  Which variables and which pairs of
variables a function mentions after an operation depends on those that it and the operands have
mentioned before, and on which operands have a constant, but not on any coefficient.
-/

namespace DegreeTwo

variable {S T : ScalarType}

/-! ## Lists of terms -/

/-- What a list of computations keeps of each input is kept of the list. -/
theorem map_eq_of_mapM_eq_ok {α β κ : Type} {f : α → Except Fault β}
    {before : α → κ} {after : β → κ}
    (keeps : ∀ input output, f input = .ok output → after output = before input)
    {inputs : List α} {outputs : List β} (mapped : inputs.mapM f = .ok outputs) :
    outputs.map after = inputs.map before := by
  induction mapM_eq_ok.mp mapped with
  | nil => rfl
  | cons succeeds rest ih =>
      rw [List.map_cons, List.map_cons, keeps _ _ succeeds, ih (mapM_eq_ok.mpr rest)]

namespace LinearTerm

/-- The variables of linear terms. -/
def varSet (terms : List (LinearTerm T)) : Set Variable := {x | x ∈ terms.map var}

@[simp]
theorem varSet_nil : varSet ([] : List (LinearTerm T)) = ∅ :=
  Set.eq_empty_of_forall_notMem fun _ member => nomatch member

@[simp]
theorem varSet_singleton (term : LinearTerm T) : varSet [term] = {term.var} :=
  Set.ext fun _ => List.mem_singleton

theorem varSet_append (terms more : List (LinearTerm T)) :
    varSet (terms ++ more) = varSet terms ∪ varSet more := by
  rw [varSet, List.map_append]
  exact Set.ext fun x => List.mem_append

theorem varSet_eq_of_map {terms : List (LinearTerm S)} {others : List (LinearTerm T)}
    (same : others.map var = terms.map var) : varSet others = varSet terms := by
  rw [varSet, same, varSet]

theorem varSet_map_widen (h : S ≤ T) (terms : List (LinearTerm S)) :
    varSet (terms.map (widen h)) = varSet terms :=
  varSet_eq_of_map (List.map_map ..)

theorem var_of_scale {term scaled : LinearTerm T} {number : Scalar T}
    (scales : term.scale number = .ok scaled) : scaled.var = term.var := by
  obtain ⟨coeff, -, result⟩ := bind_eq_ok.mp scales
  cases result
  rfl

theorem var_of_neg {term opposite : LinearTerm T} (negates : term.neg = .ok opposite) :
    opposite.var = term.var := by
  obtain ⟨coeff, -, result⟩ := bind_eq_ok.mp negates
  cases result
  rfl

theorem unordered_of_times {left right : LinearTerm T} {product : QuadraticTerm T}
    (multiplies : left.times right = .ok product) : product.unordered = s(left.var, right.var) := by
  obtain ⟨coeff, -, result⟩ := bind_eq_ok.mp multiplies
  cases result
  rfl

end LinearTerm

/-- The two variables of a pair without their order. -/
def VariablePair.unordered (pair : VariablePair) : Sym2 Variable := s(pair.row, pair.col)

namespace QuadraticTerm

theorem map_unordered (terms : List (QuadraticTerm T)) :
    terms.map unordered = (terms.map pair).map VariablePair.unordered := by
  rw [List.map_map]
  rfl

/-- The unordered pairs of variables of quadratic terms. -/
def pairSet (terms : List (QuadraticTerm T)) : Set (Sym2 Variable) :=
  {pair | pair ∈ terms.map unordered}

@[simp]
theorem pairSet_nil : pairSet ([] : List (QuadraticTerm T)) = ∅ :=
  Set.eq_empty_of_forall_notMem fun _ member => nomatch member

@[simp]
theorem pairSet_singleton (term : QuadraticTerm T) : pairSet [term] = {term.unordered} :=
  Set.ext fun _ => List.mem_singleton

theorem pairSet_append (terms more : List (QuadraticTerm T)) :
    pairSet (terms ++ more) = pairSet terms ∪ pairSet more := by
  rw [pairSet, List.map_append]
  exact Set.ext fun pair => List.mem_append

theorem pairSet_eq_of_map {terms : List (QuadraticTerm S)} {others : List (QuadraticTerm T)}
    (same : others.map unordered = terms.map unordered) : pairSet others = pairSet terms := by
  rw [pairSet, same, pairSet]

theorem pairSet_map_widen (h : S ≤ T) (terms : List (QuadraticTerm S)) :
    pairSet (terms.map (widen h)) = pairSet terms :=
  pairSet_eq_of_map (List.map_map ..)

theorem unordered_of_scale {term scaled : QuadraticTerm T} {number : Scalar T}
    (scales : term.scale number = .ok scaled) : scaled.unordered = term.unordered := by
  obtain ⟨coeff, -, result⟩ := bind_eq_ok.mp scales
  cases result
  rfl

theorem unordered_of_neg {term opposite : QuadraticTerm T} (negates : term.neg = .ok opposite) :
    opposite.unordered = term.unordered := by
  obtain ⟨coeff, -, result⟩ := bind_eq_ok.mp negates
  cases result
  rfl

end QuadraticTerm

/-- Steps that each join something to a total join all of it. -/
theorem foldlM_sup {σ α L : Type} [SemilatticeSup L] [OrderBot L] {step : σ → α → Except Fault σ}
    (total : σ → L) (part : α → L)
    (each : ∀ {state input after}, step state input = .ok after →
      total after = total state ⊔ part input)
    {start final : σ} {inputs : List α} (succeeds : inputs.foldlM step start = .ok final) :
    total final = total start ⊔ (inputs.map part).foldr (· ⊔ ·) ⊥ := by
  induction inputs generalizing start with
  | nil =>
      cases succeeds
      exact (sup_bot_eq _).symm
  | cons input inputs ih =>
      rw [List.foldlM_cons] at succeeds
      obtain ⟨after, first, rest⟩ := bind_eq_ok.mp succeeds
      rw [ih rest, each first, sup_assoc]
      rfl

/-! ## Operands and products of degree at most one -/

/-- The variables of the terms of a factor. -/
def Factor.variables (x : Factor T) : Set Variable := LinearTerm.varSet x.terms

/-- The variables of the terms of an operand. -/
def AffineOperand.variables (x : AffineOperand T) : Set Variable := LinearTerm.varSet x.terms

/-- The variables of the terms of a product. -/
def AffineProduct.variables : AffineProduct T → Set Variable
  | .numberTimes _ y => y.variables
  | .factorTimes x _ => x.variables

/-- The variables of the terms of all products of the pairs. -/
def AffineFactors.variables (factors : AffineFactors T) : Set Variable :=
  (factors.products.map AffineProduct.variables).foldr (· ∪ ·) ∅

/-- The variables of the terms that the pairs multiply to. -/
def TermFactors.vars : TermFactors T → List Variable
  | numberVariable x y => (x.zip y).map fun pair => pair.2
  | variableNumber x y => (x.zip y).map fun pair => pair.1
  | numberTerm x y => (x.zip y).map fun pair => pair.2.value.var
  | termNumber x y => (x.zip y).map fun pair => pair.1.value.var

theorem TermFactors.map_var_of_terms {factors : TermFactors T} {terms : List (LinearTerm T)}
    (succeeds : factors.terms = .ok terms) : terms.map LinearTerm.var = factors.vars := by
  cases factors with
  | numberVariable x y =>
      cases succeeds
      rw [vars, List.zip, List.map_zipWith, List.map_zipWith]
  | variableNumber x y =>
      cases succeeds
      rw [vars, List.zip, List.map_zipWith, List.map_zipWith]
  | numberTerm x y =>
      apply map_eq_of_mapM_eq_ok _ succeeds
      intro pair term multiplies
      obtain ⟨coeff, -, result⟩ := bind_eq_ok.mp multiplies
      cases result
      rfl
  | termNumber x y => exact map_eq_of_mapM_eq_ok (fun _ _ => LinearTerm.var_of_scale) succeeds

namespace AffineFunction

variable {dest after : AffineFunction T}

theorem variables_zero : (zero : AffineFunction T).variables = ∅ := LinearTerm.varSet_nil

@[simp]
theorem variables_clear (dest : AffineFunction T) : dest.clear.variables = ∅ := variables_zero

theorem variables_overwrite (dest : AffineFunction T) (source : Below AffineFunction T) :
    (dest.overwrite source).variables = source.value.variables := by
  rw [overwrite_eq]
  exact LinearTerm.varSet_map_widen source.source_le source.value.linear

theorem variables_pushLinear (dest : AffineFunction T) (term : LinearTerm T) :
    (dest.pushLinear term).variables = dest.variables ∪ {term.var} :=
  LinearTerm.varSet_singleton term ▸ LinearTerm.varSet_append dest.linear [term]

theorem variables_of_addScaledNumber {number : Below Scalar T} {scale : Scalar T}
    (added : dest.addScaledNumber number scale = .ok after) : after.variables = dest.variables := by
  obtain ⟨product, -, rest⟩ := bind_eq_ok.mp added
  obtain ⟨constant, -, result⟩ := bind_eq_ok.mp rest
  cases result
  rfl

theorem variables_of_addScaledFactor {scale : Scalar T} {x : Factor T}
    (added : dest.addScaledFactor scale x = .ok after) :
    after.variables = dest.variables ∪ x.variables := by
  cases x with
  | var x =>
      cases added
      rw [variables_pushLinear, Factor.variables, Factor.terms, LinearTerm.varSet_singleton]
      rfl
  | term x =>
      obtain ⟨scaled, scales, result⟩ := bind_eq_ok.mp added
      cases result
      rw [variables_pushLinear, Factor.variables, Factor.terms, LinearTerm.varSet_singleton,
        LinearTerm.var_of_scale scales]
  | function x =>
      rw [addScaledFactor_function] at added
      obtain ⟨len, -, added⟩ := bind_eq_ok.mp added
      obtain ⟨scaled, mapped, added⟩ := bind_eq_ok.mp added
      obtain ⟨product, -, added⟩ := bind_eq_ok.mp added
      obtain ⟨constant, -, result⟩ := bind_eq_ok.mp added
      cases result
      have same : LinearTerm.varSet scaled = Factor.variables (.function x) := by
        rw [Factor.variables, Factor.terms, LinearTerm.varSet_map_widen]
        exact LinearTerm.varSet_eq_of_map
          (map_eq_of_mapM_eq_ok (fun _ _ => LinearTerm.var_of_scale) mapped)
      exact (LinearTerm.varSet_append dest.linear _).trans (congrArg (_ ∪ ·) same)

theorem variables_of_addScaled {x : AffineOperand T} {scale : Scalar T}
    (added : dest.addScaled x scale = .ok after) :
    after.variables = dest.variables ∪ x.variables := by
  cases x with
  | number x =>
      rw [variables_of_addScaledNumber added, AffineOperand.variables, AffineOperand.terms,
        LinearTerm.varSet_nil, Set.union_empty]
  | factor x => exact variables_of_addScaledFactor added

theorem variables_of_setTo {x : AffineOperand T} (assigned : dest.setTo x = .ok after) :
    after.variables = x.variables := by
  have fresh (added : dest.clear.addScaled x .one = .ok after) : after.variables = x.variables := by
    rw [variables_of_addScaled added, variables_clear, Set.empty_union]
  cases x with
  | number x => exact fresh assigned
  | factor x =>
      cases x with
      | var x => exact fresh assigned
      | term x => exact fresh assigned
      | function x =>
          cases assigned
          rw [variables_overwrite]
          exact (LinearTerm.varSet_map_widen x.source_le x.value.linear).symm

theorem variables_of_setSum {x y : AffineOperand T} (assigned : dest.setSum x y = .ok after) :
    after.variables = x.variables ∪ y.variables := by
  obtain ⟨first, first_assigned, added⟩ := bind_eq_ok.mp assigned
  rw [variables_of_addScaled added, variables_of_setTo first_assigned]

theorem variables_of_setDifference {x y : AffineOperand T}
    (assigned : dest.setDifference x y = .ok after) :
    after.variables = x.variables ∪ y.variables := by
  obtain ⟨first, first_assigned, added⟩ := bind_eq_ok.mp assigned
  rw [variables_of_addScaled added, variables_of_setTo first_assigned]

theorem variables_of_addProduct {product : AffineProduct T}
    (added : dest.addProduct product = .ok after) :
    after.variables = dest.variables ∪ product.variables := by
  cases product with
  | numberTimes x y => exact variables_of_addScaled added
  | factorTimes x y => exact variables_of_addScaledFactor added

theorem variables_of_setProduct {product : AffineProduct T}
    (assigned : dest.setProduct product = .ok after) : after.variables = product.variables := by
  rw [variables_of_addProduct assigned, variables_clear, Set.empty_union]

theorem variables_of_neg {f opposite : AffineFunction T} (negates : f.neg = .ok opposite) :
    opposite.variables = f.variables := by
  obtain ⟨linear, mapped, rest⟩ := bind_eq_ok.mp negates
  obtain ⟨constant, -, result⟩ := bind_eq_ok.mp rest
  cases result
  exact LinearTerm.varSet_eq_of_map
    (map_eq_of_mapM_eq_ok (fun _ _ => LinearTerm.var_of_neg) mapped)

theorem variables_of_scale {f scaled : AffineFunction T} {number : Scalar T}
    (scales : f.scale number = .ok scaled) : scaled.variables = f.variables := by
  obtain ⟨linear, mapped, rest⟩ := bind_eq_ok.mp scales
  obtain ⟨constant, -, result⟩ := bind_eq_ok.mp rest
  cases result
  exact LinearTerm.varSet_eq_of_map
    (map_eq_of_mapM_eq_ok (fun _ _ => LinearTerm.var_of_scale) mapped)

theorem variables_of_dot {factors : AffineFactors T}
    (settled : settle dest (dest.dot factors) = .ok after) :
    after.variables =
      if factors.leftLength = factors.rightLength then factors.variables else dest.variables := by
  rw [dot_eq_checked, settle_checkLength] at settled
  by_cases same_length : factors.leftLength = factors.rightLength
  · rw [if_pos same_length, settle_lift] at settled
    have joined := foldlM_sup AffineFunction.variables AffineProduct.variables
      variables_of_addProduct settled
    rw [if_pos same_length, joined, variables_zero]
    exact Set.empty_union _
  · rw [if_neg same_length] at settled ⊢
    cases settled
    rfl

theorem variables_of_dotTerms {factors : TermFactors T}
    (settled : settle dest (dest.dotTerms factors) = .ok after) :
    after.variables =
      if factors.length = factors.rightLength then {x | x ∈ factors.vars} else dest.variables := by
  rw [dotTerms_eq, settle_checkLength] at settled
  by_cases same_length : factors.length = factors.rightLength
  · rw [if_pos same_length, settle_lift_bind] at settled
    obtain ⟨terms, succeeds, result⟩ := bind_eq_ok.mp settled
    cases result
    rw [if_pos same_length, ← TermFactors.map_var_of_terms succeeds]
    rfl
  · rw [if_neg same_length] at settled ⊢
    cases settled
    rfl

theorem variables_of_canonicalize {width : IntWidth}
    {f canonical : AffineFunction (.integer width)} (succeeds : f.canonicalize = .ok canonical) :
    canonical.variables = f.variables :=
  Set.ext (canonicalOf_of_canonicalize succeeds).mem_variables

end AffineFunction

/-! ## Operands and products of degree at most two -/

/-- The variables of the linear terms and the pairs of the quadratic terms. -/
def QuadraticFunction.mentions (f : QuadraticFunction T) : Set Variable × Set (Sym2 Variable) :=
  (f.affine.variables, f.pairs)

/-- What an operand mentions. -/
def QuadraticOperand.mentions : QuadraticOperand T → Set Variable × Set (Sym2 Variable)
  | .affine x => (x.variables, ∅)
  | .term x => (∅, {x.value.unordered})
  | .function x => x.value.mentions

/-- What the product of a factor and an operand mentions: a pair for any two of their variables, and
the variables of each side for which the other side has a constant. -/
def Factor.productMentions (x : Factor T) (y : AffineOperand T) :
    Set Variable × Set (Sym2 Variable) :=
  ((if y.constant?.isSome then x.variables else ∅) ∪
      (if x.constant?.isSome then y.variables else ∅),
    Set.image2 (fun row col => s(row, col)) x.variables y.variables)

/-- What a product mentions. -/
def QuadraticProduct.mentions : QuadraticProduct T → Set Variable × Set (Sym2 Variable)
  | .numberTimes _ y => y.mentions
  | .factorTimes x y => x.productMentions y
  | .termTimes x _ => (∅, {x.value.unordered})
  | .functionTimes x _ => x.value.mentions

/-- What the products of the pairs mention together. -/
def QuadraticFactors.mentions (factors : QuadraticFactors T) :
    Set Variable × Set (Sym2 Variable) :=
  (factors.products.map QuadraticProduct.mentions).foldr (· ⊔ ·) ⊥

namespace QuadraticFunction

variable {dest after : QuadraticFunction T}

@[simp]
theorem mentions_zero : (zero : QuadraticFunction T).mentions = ⊥ :=
  Prod.ext LinearTerm.varSet_nil QuadraticTerm.pairSet_nil

theorem mentions_clear (dest : QuadraticFunction T) : dest.clear.mentions = ⊥ := mentions_zero

theorem mentions_overwrite (dest : QuadraticFunction T) (source : Below QuadraticFunction T) :
    (dest.overwrite source).mentions = source.value.mentions := by
  rw [overwrite_eq]
  exact Prod.ext (LinearTerm.varSet_map_widen source.source_le source.value.affine.linear)
    (QuadraticTerm.pairSet_map_widen source.source_le source.value.quadratic)

theorem mentions_pushQuadratic (dest : QuadraticFunction T) (term : QuadraticTerm T) :
    (dest.pushQuadratic term).mentions = dest.mentions ⊔ (∅, {term.unordered}) := by
  have pairs_eq : (dest.pushQuadratic term).pairs = dest.pairs ∪ {term.unordered} := by
    rw [← QuadraticTerm.pairSet_singleton]
    exact QuadraticTerm.pairSet_append dest.quadratic [term]
  exact Prod.ext (Set.union_empty _).symm pairs_eq

theorem mentions_of_addScaledTerm {term : Below QuadraticTerm T} {scale : Scalar T}
    (added : dest.addScaledTerm term scale = .ok after) :
    after.mentions = dest.mentions ⊔ (∅, {term.value.unordered}) := by
  obtain ⟨scaled, scales, result⟩ := bind_eq_ok.mp added
  cases result
  rw [mentions_pushQuadratic, QuadraticTerm.unordered_of_scale scales]
  rfl

theorem mentions_of_addScaledFunction {source : Below QuadraticFunction T} {scale : Scalar T}
    (added : dest.addScaledFunction source scale = .ok after) :
    after.mentions = dest.mentions ⊔ source.value.mentions := by
  rw [addScaledFunction_eq] at added
  obtain ⟨len, -, added⟩ := bind_eq_ok.mp added
  obtain ⟨scaled, mapped, added⟩ := bind_eq_ok.mp added
  obtain ⟨affine, affine_added, result⟩ := bind_eq_ok.mp added
  cases result
  have same : QuadraticTerm.pairSet scaled = source.value.pairs :=
    QuadraticTerm.pairSet_eq_of_map
      (map_eq_of_mapM_eq_ok (fun _ _ => QuadraticTerm.unordered_of_scale) mapped)
  apply Prod.ext
  · rw [mentions, AffineFunction.variables_of_addScaledFactor affine_added]
    exact congrArg (_ ∪ ·) (LinearTerm.varSet_map_widen source.source_le _)
  · exact (QuadraticTerm.pairSet_append dest.quadratic _).trans (congrArg (_ ∪ ·) same)

theorem mentions_of_addScaled {x : QuadraticOperand T} {scale : Scalar T}
    (added : dest.addScaled x scale = .ok after) :
    after.mentions = dest.mentions ⊔ x.mentions := by
  cases x with
  | affine x =>
      obtain ⟨affine, affine_added, result⟩ := bind_eq_ok.mp added
      cases result
      exact Prod.ext (AffineFunction.variables_of_addScaled affine_added) (Set.union_empty _).symm
  | term x => exact mentions_of_addScaledTerm added
  | function x => exact mentions_of_addScaledFunction added

theorem mentions_of_setTo {x : QuadraticOperand T} (assigned : dest.setTo x = .ok after) :
    after.mentions = x.mentions := by
  have fresh (added : dest.clear.addScaled x .one = .ok after) : after.mentions = x.mentions := by
    rw [mentions_of_addScaled added, mentions_clear, bot_sup_eq]
  cases x with
  | affine x =>
      cases x with
      | number x => exact fresh assigned
      | factor x =>
          obtain ⟨affine, affine_assigned, result⟩ := bind_eq_ok.mp assigned
          cases result
          exact Prod.ext (AffineFunction.variables_of_setTo affine_assigned)
            QuadraticTerm.pairSet_nil
  | term x => exact fresh assigned
  | function x =>
      cases assigned
      exact mentions_overwrite dest x

theorem mentions_of_setSum {x y : QuadraticOperand T} (assigned : dest.setSum x y = .ok after) :
    after.mentions = x.mentions ⊔ y.mentions := by
  obtain ⟨first, first_assigned, added⟩ := bind_eq_ok.mp assigned
  rw [mentions_of_addScaled added, mentions_of_setTo first_assigned]

theorem mentions_of_setDifference {x y : QuadraticOperand T}
    (assigned : dest.setDifference x y = .ok after) :
    after.mentions = x.mentions ⊔ y.mentions := by
  obtain ⟨first, first_assigned, added⟩ := bind_eq_ok.mp assigned
  rw [mentions_of_addScaled added, mentions_of_setTo first_assigned]

theorem pairs_of_appendProducts {buffer quadratic : List (QuadraticTerm T)}
    {x y : List (LinearTerm T)} (appended : appendProducts buffer x y = .ok quadratic) :
    QuadraticTerm.pairSet quadratic = QuadraticTerm.pairSet buffer ∪
      Set.image2 (fun row col => s(row, col)) (LinearTerm.varSet x) (LinearTerm.varSet y) := by
  rw [appendProducts_eq] at appended
  obtain ⟨count, -, appended⟩ := bind_eq_ok.mp appended
  obtain ⟨len, -, appended⟩ := bind_eq_ok.mp appended
  obtain ⟨rows, mapped, result⟩ := bind_eq_ok.mp appended
  cases result
  have row_pairs : rows.map (List.map QuadraticTerm.unordered) =
      x.map fun left => y.map fun right => s(left.var, right.var) :=
    map_eq_of_mapM_eq_ok
      (fun _ _ row => map_eq_of_mapM_eq_ok (fun _ _ => LinearTerm.unordered_of_times) row) mapped
  have new_pairs : QuadraticTerm.pairSet rows.flatten =
      Set.image2 (fun row col => s(row, col)) (LinearTerm.varSet x) (LinearTerm.varSet y) := by
    rw [QuadraticTerm.pairSet, List.map_flatten, row_pairs]
    ext pair
    simp only [LinearTerm.varSet, Set.mem_ofPred_eq, Set.mem_image2, List.mem_flatten, List.mem_map,
      exists_exists_and_eq_and]
  rw [QuadraticTerm.pairSet_append, new_pairs]

theorem variables_of_scaleTerms {terms scaled : List (LinearTerm T)} {constant : Option (Scalar T)}
    (succeeds : scaleTerms terms constant = .ok scaled) :
    LinearTerm.varSet scaled = if constant.isSome then LinearTerm.varSet terms else ∅ := by
  cases constant with
  | none =>
      cases succeeds
      exact LinearTerm.varSet_nil
  | some constant =>
      exact LinearTerm.varSet_eq_of_map
        (map_eq_of_mapM_eq_ok (fun _ _ => LinearTerm.var_of_scale) succeeds)

theorem variables_of_appendScaled {buffer linear x y : List (LinearTerm T)}
    {xConstant yConstant : Option (Scalar T)}
    (appended : appendScaled buffer x y xConstant yConstant = .ok linear) :
    LinearTerm.varSet linear = LinearTerm.varSet buffer ∪
      ((if yConstant.isSome then LinearTerm.varSet x else ∅) ∪
        (if xConstant.isSome then LinearTerm.varSet y else ∅)) := by
  rw [appendScaled_eq] at appended
  obtain ⟨count, -, appended⟩ := bind_eq_ok.mp appended
  obtain ⟨len, -, appended⟩ := bind_eq_ok.mp appended
  obtain ⟨xScaled, x_scales, appended⟩ := bind_eq_ok.mp appended
  obtain ⟨yScaled, y_scales, result⟩ := bind_eq_ok.mp appended
  cases result
  rw [LinearTerm.varSet_append, LinearTerm.varSet_append, variables_of_scaleTerms x_scales,
    variables_of_scaleTerms y_scales]

theorem mentions_of_addFactorProduct {x : Factor T} {y : AffineOperand T}
    (added : dest.addFactorProduct x y = .ok after) :
    after.mentions = dest.mentions ⊔ x.productMentions y := by
  obtain ⟨quadratic, quadratic_appended, added⟩ := bind_eq_ok.mp added
  obtain ⟨linear, linear_appended, added⟩ := bind_eq_ok.mp added
  obtain ⟨constant, -, result⟩ := bind_eq_ok.mp added
  cases result
  exact Prod.ext (variables_of_appendScaled linear_appended)
    (pairs_of_appendProducts quadratic_appended)

/-- The product of two affine functions mentions their variables, and all pairs of a left and a
right one. -/
theorem mentions_of_times {x y : AffineFunction T} {product : QuadraticFunction T}
    (multiplies : x.times y = .ok product) :
    product.mentions =
      (x.variables ∪ y.variables,
        Set.image2 (fun row col => s(row, col)) x.variables y.variables) := by
  have variables_same (f : AffineFunction T) :
      LinearTerm.varSet (Factor.function (.same f)).terms = f.variables :=
    LinearTerm.varSet_map_widen (ScalarType.le_refl T) f.linear
  have added := mentions_of_addFactorProduct multiplies
  rw [Factor.productMentions, Factor.variables, AffineOperand.variables, AffineOperand.terms,
    variables_same, variables_same, mentions_zero, bot_sup_eq] at added
  exact added

theorem mentions_of_addProduct {product : QuadraticProduct T}
    (added : dest.addProduct product = .ok after) :
    after.mentions = dest.mentions ⊔ product.mentions := by
  cases product with
  | numberTimes x y => exact mentions_of_addScaled added
  | factorTimes x y => exact mentions_of_addFactorProduct added
  | termTimes x y => exact mentions_of_addScaledTerm added
  | functionTimes x y => exact mentions_of_addScaledFunction added

theorem mentions_of_setProduct {product : QuadraticProduct T}
    (assigned : dest.setProduct product = .ok after) : after.mentions = product.mentions := by
  rw [mentions_of_addProduct assigned, mentions_clear, bot_sup_eq]

theorem mentions_of_neg {f opposite : QuadraticFunction T} (negates : f.neg = .ok opposite) :
    opposite.mentions = f.mentions := by
  obtain ⟨quadratic, mapped, rest⟩ := bind_eq_ok.mp negates
  obtain ⟨affine, affine_negates, result⟩ := bind_eq_ok.mp rest
  cases result
  exact Prod.ext (AffineFunction.variables_of_neg affine_negates)
    (QuadraticTerm.pairSet_eq_of_map
      (map_eq_of_mapM_eq_ok (fun _ _ => QuadraticTerm.unordered_of_neg) mapped))

theorem mentions_of_scale {f scaled : QuadraticFunction T} {number : Scalar T}
    (scales : f.scale number = .ok scaled) : scaled.mentions = f.mentions := by
  obtain ⟨quadratic, mapped, rest⟩ := bind_eq_ok.mp scales
  obtain ⟨affine, affine_scales, result⟩ := bind_eq_ok.mp rest
  cases result
  exact Prod.ext (AffineFunction.variables_of_scale affine_scales)
    (QuadraticTerm.pairSet_eq_of_map
      (map_eq_of_mapM_eq_ok (fun _ _ => QuadraticTerm.unordered_of_scale) mapped))

theorem mentions_of_dot {factors : QuadraticFactors T}
    (settled : settle dest (dest.dot factors) = .ok after) :
    after.mentions =
      if factors.leftLength = factors.rightLength then factors.mentions else dest.mentions := by
  rw [dot_eq_checked, settle_checkLength] at settled
  by_cases same_length : factors.leftLength = factors.rightLength
  · rw [if_pos same_length, settle_lift] at settled
    have joined := foldlM_sup QuadraticFunction.mentions QuadraticProduct.mentions
      mentions_of_addProduct settled
    rw [if_pos same_length, joined, mentions_zero, bot_sup_eq]
    rfl
  · rw [if_neg same_length] at settled ⊢
    cases settled
    rfl

theorem mentions_of_canonicalize {width : IntWidth}
    {f canonical : QuadraticFunction (.integer width)} (succeeds : f.canonicalize = .ok canonical) :
    canonical.mentions = f.mentions := by
  have canonicalOf := canonicalOf_of_canonicalize succeeds
  have oriented : (f.quadratic.map QuadraticTerm.orient).map QuadraticTerm.unordered =
      f.quadratic.map QuadraticTerm.unordered := by
    rw [List.map_map]
    exact List.map_congr_left fun term _ => term.unordered_orient
  have same_pairs : canonical.pairs = f.pairs := by
    ext pair
    calc
      pair ∈ canonical.quadratic.map QuadraticTerm.unordered
          ↔ pair ∈ (distinctKeys QuadraticTerm.pair
              (f.quadratic.map QuadraticTerm.orient)).map VariablePair.unordered := by
        rw [QuadraticTerm.map_unordered, canonicalOf.keys]
      _ ↔ pair ∈ ((f.quadratic.map QuadraticTerm.orient).map QuadraticTerm.pair).map
              VariablePair.unordered := by
        simp only [List.mem_map (f := VariablePair.unordered), mem_distinctKeys]
      _ ↔ pair ∈ f.quadratic.map QuadraticTerm.unordered := by
        rw [← QuadraticTerm.map_unordered, oriented]
  exact Prod.ext (Set.ext canonicalOf.affine.mem_variables) same_pairs

end QuadraticFunction

/-! ## Updates -/

/-- What an update makes of the variables of a function.  Nothing is said of updates that look at
coefficients or at single terms, and refused updates keep the variables. -/
def AffineUpdate.variables : AffineUpdate T → Option (Set Variable → Set Variable)
  | .clear => some fun _ => ∅
  | .set f => some fun _ => f.variables
  | .overwrite f => some fun _ => f.value.variables
  | .add x => some fun s => s ∪ x.variables
  | .sub x => some fun s => s ∪ x.variables
  | .addScaled x _ => some fun s => s ∪ x.variables
  | .setTo x => some fun _ => x.variables
  | .setSum x y => some fun _ => x.variables ∪ y.variables
  | .setDifference x y => some fun _ => x.variables ∪ y.variables
  | .addProduct xy => some fun s => s ∪ xy.variables
  | .setProduct xy => some fun _ => xy.variables
  | .dot xy => some fun s => if xy.leftLength = xy.rightLength then xy.variables else s
  | .dotTerms xy => some fun s => if xy.length = xy.rightLength then {x | x ∈ xy.vars} else s
  | .canonicalize => some fun s => s
  | .prune _ => none
  | .pruneZeros => none
  | .setConstant _ => some fun s => s
  | .pushLinear term => some fun s => s ∪ {term.var}
  | .truncateLinear _ => none
  | .neg => some fun s => s
  | .scale _ => some fun s => s

/-- What an update makes of the variables and pairs of a function.  Nothing is said of updates that
look at coefficients, at single terms or at the affine part alone, and refused updates keep the
variables and pairs. -/
def QuadraticUpdate.mentions :
    QuadraticUpdate T → Option (Set Variable × Set (Sym2 Variable) →
      Set Variable × Set (Sym2 Variable))
  | .clear => some fun _ => ⊥
  | .set f => some fun _ => f.mentions
  | .overwrite f => some fun _ => f.value.mentions
  | .add x => some fun s => s ⊔ x.mentions
  | .sub x => some fun s => s ⊔ x.mentions
  | .addScaled x _ => some fun s => s ⊔ x.mentions
  | .setTo x => some fun _ => x.mentions
  | .setSum x y => some fun _ => x.mentions ⊔ y.mentions
  | .setDifference x y => some fun _ => x.mentions ⊔ y.mentions
  | .addProduct xy => some fun s => s ⊔ xy.mentions
  | .setProduct xy => some fun _ => xy.mentions
  | .dot xy => some fun s => if xy.leftLength = xy.rightLength then xy.mentions else s
  | .bilinear _ _ _ => none
  | .canonicalize => some fun s => s
  | .prune _ => none
  | .pruneZeros => none
  | .pushQuadratic term => some fun s => s ⊔ (∅, {term.unordered})
  | .truncateQuadratic _ => none
  | .neg => some fun s => s
  | .scale _ => some fun s => s
  | .affine _ => none

/-- Where an update says what it makes of the variables, the function after it has these. -/
theorem AffineUpdate.variables_of_step {width : IntWidth}
    {update : AffineUpdate (.integer width)} {f after : AffineFunction (.integer width)}
    {operation : Set Variable → Set Variable} (known : update.variables = some operation)
    (settled : settle f (update.apply f) = .ok after) :
    after.variables = operation f.variables := by
  have lifted {computation : Except Fault (AffineFunction (.integer width))}
      (settled : settle f (liftM computation) = .ok after) : computation = .ok after := by
    rwa [settle_lift] at settled
  rw [AffineUpdate.apply_eq] at settled
  cases update <;> cases known
  case clear => cases settled; exact f.variables_clear
  case set value => cases settled; rfl
  case overwrite source => cases settled; exact f.variables_overwrite source
  case add x => exact AffineFunction.variables_of_addScaled (lifted settled)
  case sub x => exact AffineFunction.variables_of_addScaled (lifted settled)
  case addScaled x number => exact AffineFunction.variables_of_addScaled (lifted settled)
  case setTo x => exact AffineFunction.variables_of_setTo (lifted settled)
  case setSum x y => exact AffineFunction.variables_of_setSum (lifted settled)
  case setDifference x y => exact AffineFunction.variables_of_setDifference (lifted settled)
  case addProduct xy => exact AffineFunction.variables_of_addProduct (lifted settled)
  case setProduct xy => exact AffineFunction.variables_of_setProduct (lifted settled)
  case dot xy => exact AffineFunction.variables_of_dot settled
  case dotTerms xy => exact AffineFunction.variables_of_dotTerms settled
  case canonicalize => exact AffineFunction.variables_of_canonicalize (lifted settled)
  case setConstant constant => cases settled; rfl
  case pushLinear term => cases settled; exact f.variables_pushLinear term
  case neg => exact AffineFunction.variables_of_neg (lifted settled)
  case scale number => exact AffineFunction.variables_of_scale (lifted settled)

/-- Where an update says what it makes of the variables and pairs, the function after it has
these. -/
theorem QuadraticUpdate.mentions_of_step {width : IntWidth}
    {update : QuadraticUpdate (.integer width)} {f after : QuadraticFunction (.integer width)}
    {operation : Set Variable × Set (Sym2 Variable) → Set Variable × Set (Sym2 Variable)}
    (known : update.mentions = some operation) (settled : settle f (update.apply f) = .ok after) :
    after.mentions = operation f.mentions := by
  have lifted {computation : Except Fault (QuadraticFunction (.integer width))}
      (settled : settle f (liftM computation) = .ok after) : computation = .ok after := by
    rwa [settle_lift] at settled
  rw [QuadraticUpdate.apply_eq] at settled
  cases update <;> cases known
  case clear => cases settled; exact f.mentions_clear
  case set value => cases settled; rfl
  case overwrite source => cases settled; exact f.mentions_overwrite source
  case add x => exact QuadraticFunction.mentions_of_addScaled (lifted settled)
  case sub x => exact QuadraticFunction.mentions_of_addScaled (lifted settled)
  case addScaled x number => exact QuadraticFunction.mentions_of_addScaled (lifted settled)
  case setTo x => exact QuadraticFunction.mentions_of_setTo (lifted settled)
  case setSum x y => exact QuadraticFunction.mentions_of_setSum (lifted settled)
  case setDifference x y => exact QuadraticFunction.mentions_of_setDifference (lifted settled)
  case addProduct xy => exact QuadraticFunction.mentions_of_addProduct (lifted settled)
  case setProduct xy => exact QuadraticFunction.mentions_of_setProduct (lifted settled)
  case dot xy => exact QuadraticFunction.mentions_of_dot settled
  case canonicalize => exact QuadraticFunction.mentions_of_canonicalize (lifted settled)
  case pushQuadratic term => cases settled; exact f.mentions_pushQuadratic term
  case neg => exact QuadraticFunction.mentions_of_neg (lifted settled)
  case scale number => exact QuadraticFunction.mentions_of_scale (lifted settled)

end DegreeTwo
