import DegreeTwo.Expr
import DegreeTwo.Proofs.Value.Canonical
import DegreeTwo.Proofs.Value.Quadratic

/-!
# What expressions denote

The kind of an expression is determined by the kinds of its parts, before anything is computed.  An
expression that has a kind is evaluated to a value of this kind, unless a number does not fit its
type, and the polynomial that this value stands for is the one that the expression spells.
-/

namespace DegreeTwo

variable {T : ScalarType} {width : IntWidth}

/-! ## Kinds -/

/-- The kinds of values. -/
inductive Kind where
  /-- Numbers. -/
  | number
  /-- Variables. -/
  | var
  /-- Linear terms. -/
  | linear
  /-- Quadratic terms. -/
  | quadraticTerm
  /-- Affine functions. -/
  | affine
  /-- Quadratic functions. -/
  | quadratic
  deriving DecidableEq

namespace Kind

/-- The kind of the opposite; a variable has none. -/
def neg? : Kind → Option Kind
  | var => none
  | kind => some kind

/-- The kind of the canonical form; a number, a variable and a linear term have none. -/
def canonical? : Kind → Option Kind
  | quadraticTerm => some quadraticTerm
  | affine => some affine
  | quadratic => some quadratic
  | _ => none

/-- The kind of the sum of a term or function and an operand: a linear term and an affine function
take operands of degree at most one only. -/
def sumOperand? : Kind → Kind → Option Kind
  | linear, quadraticTerm | linear, quadratic | affine, quadraticTerm | affine, quadratic => none
  | linear, _ | affine, _ => some affine
  | quadraticTerm, _ | quadratic, _ => some quadratic
  | number, _ | var, _ => none

/-- The kind of the sum of two values. -/
def sum? : Kind → Kind → Option Kind
  | number, number => some number
  | left, right => left.sumOperand? right

/-- The kind of the product of two values. -/
def product? : Kind → Kind → Option Kind
  | number, number => some number
  | number, var | var, number | number, linear | linear, number => some linear
  | linear, var | linear, linear | number, quadraticTerm | quadraticTerm, number =>
      some quadraticTerm
  | affine, number => some affine
  | quadratic, number | affine, affine => some quadratic
  | _, _ => none

end Kind

/-- The kind of an operand. -/
def QuadraticOperand.kind : QuadraticOperand T → Kind
  | .affine (.number _) => .number
  | .affine (.factor (.var _)) => .var
  | .affine (.factor (.term _)) => .linear
  | .affine (.factor (.function _)) => .affine
  | .term _ => .quadraticTerm
  | .function _ => .quadratic

/-- The kind of a value. -/
def ExprValue.kind : ExprValue T → Kind
  | .number _ => .number
  | .var _ => .var
  | .linear _ => .linear
  | .quadraticTerm _ => .quadraticTerm
  | .affine _ => .affine
  | .quadratic _ => .quadratic

/-- The kind of an expression, if there is an operator for the kinds of the arguments at every
node. -/
def Expr.kind? : Expr T → Option Kind
  | .value x => some x.kind
  | .neg argument => argument.kind? >>= Kind.neg?
  | .canonical argument => argument.kind? >>= Kind.canonical?
  | .sum _ left right => do
      let leftKind ← left.kind?
      let rightKind ← right.kind?
      leftKind.sum? rightKind
  | .sumOperand _ left operand => do
      let leftKind ← left.kind?
      leftKind.sumOperand? operand.kind
  | .product left right => do
      let leftKind ← left.kind?
      let rightKind ← right.kind?
      leftKind.product? rightKind

/-! ## Denotations -/

/-- The value of a value at a point. -/
def ExprValue.value (point : Variable → Int) : ExprValue T → Int
  | .number a => a.toInt
  | .var x => point x
  | .linear term => term.value point
  | .quadraticTerm term => term.value point
  | .affine f => f.value point
  | .quadratic f => f.value point

/-- Sum or difference of integers. -/
def Sign.apply : Sign → Int → Int → Int
  | .plus, a, b => a + b
  | .minus, a, b => a - b

/-- The integer that an expression spells at a point. -/
def Expr.denote (point : Variable → Int) : Expr T → Int
  | .value x => x.value point
  | .neg argument => -argument.denote point
  | .canonical argument => argument.denote point
  | .sum sign left right => sign.apply (left.denote point) (right.denote point)
  | .sumOperand sign left operand => sign.apply (left.denote point) (operand.value point)
  | .product left right => left.denote point * right.denote point

/-- The computation returns a value of the kind with the given integer at every point, or breaks off
because a number does not fit. -/
def Evaluates (computation : Except ExprFailure (ExprValue T)) (kind : Kind)
    (meaning : (Variable → Int) → Int) : Prop :=
  match computation with
  | .ok x => x.kind = kind ∧ ∀ point, x.value point = meaning point
  | .error failure => ∃ operation, failure = .faulted (.overflow operation)

namespace Evaluates

variable {computation : Except ExprFailure (ExprValue T)} {kind : Kind}
variable {meaning : (Variable → Int) → Int}

theorem bind {next : ExprValue T → Except ExprFailure (ExprValue T)} {finalKind : Kind}
    {final : (Variable → Int) → Int} (first : Evaluates computation kind meaning)
    (second : ∀ x : ExprValue T, x.kind = kind → (∀ point, x.value point = meaning point) →
      Evaluates (next x) finalKind final) :
    Evaluates (computation >>= next) finalKind final := by
  cases computation with
  | error failure => exact first
  | ok x => exact second x first.1 first.2

/-- A computation on numbers, terms or functions whose result is made a value. -/
theorem lift {α : Type} {step : Except Fault α} {wrap : α → ExprValue T}
    (kind_eq : ∀ a, (wrap a).kind = kind)
    (yields : Yields step fun a => ∀ point, (wrap a).value point = meaning point) :
    Evaluates (liftM step >>= fun a => pure (wrap a)) kind meaning := by
  cases step with
  | error fault =>
      obtain ⟨operation, rfl⟩ := yields
      exact ⟨operation, rfl⟩
  | ok a => exact ⟨kind_eq a, yields⟩

end Evaluates

/-! ## Operators -/

theorem Kind.linear_sumOperand? (operand : AffineOperand T) :
    linear.sumOperand? (QuadraticOperand.affine operand).kind = some affine := by
  cases operand with
  | number x => rfl
  | factor x => cases x <;> rfl

theorem Kind.affine_sumOperand? (operand : AffineOperand T) :
    affine.sumOperand? (QuadraticOperand.affine operand).kind = some affine := by
  cases operand with
  | number x => rfl
  | factor x => cases x <;> rfl

theorem AffineFunction.value_ofTerm (point : Variable → Int) (term : LinearTerm (.integer width)) :
    (ofTerm term).value point = term.value point := by
  simp [ofTerm, value]

theorem QuadraticFunction.value_ofTerm (point : Variable → Int)
    (term : QuadraticTerm (.integer width)) : (ofTerm term).value point = term.value point := by
  simp [ofTerm, value, AffineFunction.zero, AffineFunction.value]

theorem AffineFunction.times_yields (x y : AffineFunction (.integer width)) :
    Yields (x.times y) fun product =>
      ∀ point, product.value point = x.value point * y.value point := by
  apply (QuadraticFunction.zero.addFactorProduct_yields (.function (.same x))
    (.factor (.function (.same y)))).imp
  intro product product_value point
  rw [product_value]
  exact Int.zero_add _

namespace ExprValue

theorem kind_toOperand (x : ExprValue T) : x.toOperand.kind = x.kind := by
  cases x <;> rfl

theorem value_toOperand (point : Variable → Int) (x : ExprValue T) :
    x.toOperand.value point = x.value point := by
  cases x <;> rfl

theorem neg_evaluates {x : ExprValue (.integer width)} {kind : Kind}
    (kinded : x.kind.neg? = some kind) :
    Evaluates x.neg kind fun point => -x.value point := by
  cases x with
  | number a =>
      cases kinded
      exact .lift (fun _ => rfl) (a.neg_yields.imp fun _ opposite _ => opposite)
  | var x => cases kinded
  | linear term =>
      cases kinded
      exact .lift (fun _ => rfl) term.neg_yields
  | quadraticTerm term =>
      cases kinded
      exact .lift (fun _ => rfl) term.neg_yields
  | affine f =>
      cases kinded
      exact .lift (fun _ => rfl) f.neg_yields
  | quadratic f =>
      cases kinded
      exact .lift (fun _ => rfl) f.neg_yields

theorem canonical_evaluates {x : ExprValue (.integer width)} {kind : Kind}
    (kinded : x.kind.canonical? = some kind) :
    Evaluates x.canonical kind fun point => x.value point := by
  cases x with
  | number a => cases kinded
  | var x => cases kinded
  | linear term => cases kinded
  | quadraticTerm term =>
      cases kinded
      exact ⟨rfl, fun point => term.value_orient point⟩
  | affine f =>
      cases kinded
      exact .lift (fun _ => rfl) f.canonicalize_yields
  | quadratic f =>
      cases kinded
      exact .lift (fun _ => rfl) f.canonicalize_yields

theorem sumAffine_evaluates (sign : Sign) (f : AffineFunction (.integer width))
    (operand : AffineOperand (.integer width)) :
    Evaluates (sumAffine sign f operand) .affine fun point =>
      sign.apply (f.value point) (operand.value point) := by
  cases sign with
  | plus => exact .lift (fun _ => rfl) (f.add_yields operand)
  | minus => exact .lift (fun _ => rfl) (f.sub_yields operand)

theorem sumQuadratic_evaluates (sign : Sign) (f : QuadraticFunction (.integer width))
    (operand : QuadraticOperand (.integer width)) :
    Evaluates (sumQuadratic sign f operand) .quadratic fun point =>
      sign.apply (f.value point) (operand.value point) := by
  cases sign with
  | plus => exact .lift (fun _ => rfl) (f.add_yields operand)
  | minus => exact .lift (fun _ => rfl) (f.sub_yields operand)

theorem sumOperand_evaluates {sign : Sign} {x : ExprValue (.integer width)}
    {operand : QuadraticOperand (.integer width)} {kind : Kind}
    (kinded : x.kind.sumOperand? operand.kind = some kind) :
    Evaluates (x.sumOperand sign operand) kind fun point =>
      sign.apply (x.value point) (operand.value point) := by
  cases x with
  | number a => cases kinded
  | var x => cases kinded
  | linear term =>
      cases operand with
      | affine operand =>
          cases (Kind.linear_sumOperand? operand).symm.trans kinded
          have lifted := sumAffine_evaluates sign (.ofTerm term) operand
          simp only [AffineFunction.value_ofTerm] at lifted
          exact lifted
      | term term => cases kinded
      | function f => cases kinded
  | quadraticTerm term =>
      cases kinded
      have lifted := sumQuadratic_evaluates sign (.ofTerm term) operand
      simp only [QuadraticFunction.value_ofTerm] at lifted
      exact lifted
  | affine f =>
      cases operand with
      | affine operand =>
          cases (Kind.affine_sumOperand? operand).symm.trans kinded
          exact sumAffine_evaluates sign f operand
      | term term => cases kinded
      | function f => cases kinded
  | quadratic f =>
      cases kinded
      exact sumQuadratic_evaluates sign f operand

/-- Two numbers are added as numbers; every other sum adds the right argument as an operand. -/
theorem sum_evaluates {sign : Sign} {x y : ExprValue (.integer width)} {kind : Kind}
    (kinded : x.kind.sum? y.kind = some kind) :
    Evaluates (x.sum sign y) kind fun point => sign.apply (x.value point) (y.value point) := by
  have as_operand : x.kind.sumOperand? y.kind = some kind →
      Evaluates (x.sumOperand sign y.toOperand) kind fun point =>
        sign.apply (x.value point) (y.value point) := by
    intro operand_kinded
    rw [← y.kind_toOperand] at operand_kinded
    have added : Evaluates (x.sumOperand sign y.toOperand) kind fun point =>
        sign.apply (x.value point) (y.toOperand.value point) :=
      sumOperand_evaluates operand_kinded
    simp only [value_toOperand] at added
    exact added
  cases x with
  | number a =>
      cases y with
      | number b =>
          cases kinded
          cases sign with
          | plus => exact .lift (fun _ => rfl) ((a.add_yields b).imp fun _ sum _ => sum)
          | minus =>
              exact .lift (fun _ => rfl) ((a.sub_yields b).imp fun _ difference _ => difference)
      | _ => cases kinded
  | _ => exact as_operand kinded

theorem product_evaluates {x y : ExprValue (.integer width)} {kind : Kind}
    (kinded : x.kind.product? y.kind = some kind) :
    Evaluates (x.product y) kind fun point => x.value point * y.value point := by
  cases x with
  | number a =>
      cases y with
      | number b =>
          cases kinded
          exact .lift (fun _ => rfl) ((a.mul_yields b).imp fun _ product _ => product)
      | var y =>
          cases kinded
          exact ⟨rfl, fun _ => rfl⟩
      | linear term =>
          cases kinded
          exact .lift (fun _ => rfl) ((term.scale_yields a).imp fun _ scaled point =>
            (scaled point).trans (Int.mul_comm _ _))
      | quadraticTerm term =>
          cases kinded
          exact .lift (fun _ => rfl) ((term.scale_yields a).imp fun _ scaled point =>
            (scaled point).trans (Int.mul_comm _ _))
      | _ => cases kinded
  | var x =>
      cases y with
      | number a =>
          cases kinded
          exact ⟨rfl, fun _ => Int.mul_comm _ _⟩
      | _ => cases kinded
  | linear term =>
      cases y with
      | number a =>
          cases kinded
          exact .lift (fun _ => rfl) (term.scale_yields a)
      | var y =>
          cases kinded
          exact ⟨rfl, fun _ => rfl⟩
      | linear right =>
          cases kinded
          exact .lift (fun _ => rfl) (term.times_yields right)
      | _ => cases kinded
  | quadraticTerm term =>
      cases y with
      | number a =>
          cases kinded
          exact .lift (fun _ => rfl) (term.scale_yields a)
      | _ => cases kinded
  | affine f =>
      cases y with
      | number a =>
          cases kinded
          exact .lift (fun _ => rfl) (f.scale_yields a)
      | affine g =>
          cases kinded
          exact .lift (fun _ => rfl) (f.times_yields g)
      | _ => cases kinded
  | quadratic f =>
      cases y with
      | number a =>
          cases kinded
          exact .lift (fun _ => rfl) (f.scale_yields a)
      | _ => cases kinded

end ExprValue

/-! ## Expressions -/

/-- The induction follows the tree: each node applies an operator to the values of its arguments,
whose kinds are those for which the operator is there. -/
theorem Expr.eval_evaluates {e : Expr (.integer width)} {kind : Kind}
    (kinded : e.kind? = some kind) :
    Evaluates e.eval kind fun point => e.denote point := by
  induction e generalizing kind with
  | value x =>
      cases kinded
      exact ⟨rfl, fun _ => rfl⟩
  | neg argument ih =>
      obtain ⟨argumentKind, argument_kinded, kinded⟩ := Option.bind_eq_some_iff.mp kinded
      apply (ih argument_kinded).bind
      rintro x rfl x_value
      simpa only [Expr.denote, ← x_value] using ExprValue.neg_evaluates kinded
  | canonical argument ih =>
      obtain ⟨argumentKind, argument_kinded, kinded⟩ := Option.bind_eq_some_iff.mp kinded
      apply (ih argument_kinded).bind
      rintro x rfl x_value
      simpa only [Expr.denote, ← x_value] using ExprValue.canonical_evaluates kinded
  | sum sign left right left_ih right_ih =>
      obtain ⟨leftKind, left_kinded, kinded⟩ := Option.bind_eq_some_iff.mp kinded
      obtain ⟨rightKind, right_kinded, kinded⟩ := Option.bind_eq_some_iff.mp kinded
      apply (left_ih left_kinded).bind
      rintro x rfl x_value
      apply (right_ih right_kinded).bind
      rintro y rfl y_value
      simpa only [Expr.denote, ← x_value, ← y_value] using ExprValue.sum_evaluates kinded
  | sumOperand sign left operand ih =>
      obtain ⟨leftKind, left_kinded, kinded⟩ := Option.bind_eq_some_iff.mp kinded
      apply (ih left_kinded).bind
      rintro x rfl x_value
      simpa only [Expr.denote, ← x_value] using ExprValue.sumOperand_evaluates kinded
  | product left right left_ih right_ih =>
      obtain ⟨leftKind, left_kinded, kinded⟩ := Option.bind_eq_some_iff.mp kinded
      obtain ⟨rightKind, right_kinded, kinded⟩ := Option.bind_eq_some_iff.mp kinded
      apply (left_ih left_kinded).bind
      rintro x rfl x_value
      apply (right_ih right_kinded).bind
      rintro y rfl y_value
      simpa only [Expr.denote, ← x_value, ← y_value] using ExprValue.product_evaluates kinded

/-- An expression that has a kind and does not overflow has a value of this kind, and at every point
it is the integer that the expression spells. -/
theorem expression_denotes (e : Expr (.integer width)) {kind : Kind}
    (kinded : e.kind? = some kind)
    (no_overflow : ∀ operation, e.eval ≠ .error (.faulted (.overflow operation))) :
    ∃ x, e.eval = .ok x ∧ x.kind = kind ∧ ∀ point, x.value point = e.denote point := by
  have evaluates := Expr.eval_evaluates kinded
  cases outcome : e.eval with
  | error failure =>
      rw [outcome] at evaluates
      obtain ⟨operation, rfl⟩ := evaluates
      exact absurd outcome (no_overflow operation)
  | ok x =>
      rw [outcome] at evaluates
      exact ⟨x, rfl, evaluates⟩

/-- The expression `-((-x1 + 1) * (x1 - x2))` over integers of eight bits.  Its factors are affine
functions only because terms are lifted by the sums. -/
def oppositeProduct : Expr (.integer .bits8) :=
  .neg (.product
    (.sumOperand .plus (.neg (.product (.value (.number .one)) (.value (.var ⟨1⟩))))
      (.affine (.number (.same .one))))
    (.sum .minus (.product (.value (.var ⟨1⟩)) (.value (.number .one))) (.value (.var ⟨2⟩))))

theorem oppositeProduct_denotes :
    ∃ x, oppositeProduct.eval = .ok x ∧ x.kind = .quadratic ∧
      ∀ point, x.value point = -((-(1 * point ⟨1⟩) + 1) * (point ⟨1⟩ * 1 - point ⟨2⟩)) :=
  expression_denotes oppositeProduct rfl (by rintro operation ⟨⟩)

end DegreeTwo
