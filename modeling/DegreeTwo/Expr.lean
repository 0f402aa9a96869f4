import DegreeTwo.Quadratic.Product

/-!
# Expressions

Expressions build functions with operators.  What an operator yields depends on the kinds of its
arguments: products raise the degree, sums lift a term to the function that consists of it, and the
right argument of a sum is added as an operand.  Combinations that no operator covers have no value.
-/

namespace DegreeTwo

/-- The value of an expression. -/
inductive ExprValue (T : ScalarType) where
  /-- A number. -/
  | number (number : Scalar T)
  /-- A variable. -/
  | var (var : Variable)
  /-- A linear term. -/
  | linear (term : LinearTerm T)
  /-- A quadratic term. -/
  | quadraticTerm (term : QuadraticTerm T)
  /-- An affine function. -/
  | affine (function : AffineFunction T)
  /-- A quadratic function. -/
  | quadratic (function : QuadraticFunction T)

/-- Whether the right argument of a sum is added or subtracted. -/
inductive Sign where
  /-- The argument is added. -/
  | plus
  /-- The argument is subtracted. -/
  | minus
  deriving DecidableEq

/-- An expression over numbers of one type.  Only the right argument of a sum may have a type
below. -/
inductive Expr (T : ScalarType) where
  /-- A number, variable, term or function. -/
  | value (value : ExprValue T)
  /-- The opposite of an expression. -/
  | neg (argument : Expr T)
  /-- The canonical form of an expression. -/
  | canonical (argument : Expr T)
  /-- The sum or difference of two expressions. -/
  | sum (sign : Sign) (left right : Expr T)
  /-- The sum or difference of an expression and an operand. -/
  | sumOperand (sign : Sign) (left : Expr T) (right : QuadraticOperand T)
  /-- The product of two expressions. -/
  | product (left right : Expr T)

/-- Why an expression has no value. -/
inductive ExprFailure where
  /-- There is no such operator for arguments of these kinds. -/
  | illKinded
  /-- The computation broke off. -/
  | faulted (fault : Fault)
  deriving DecidableEq

instance : MonadLift (Except Fault) (Except ExprFailure) :=
  ⟨fun computation => computation.mapError ExprFailure.faulted⟩

namespace ExprValue

variable {T : ScalarType}

/-- The value as an operand. -/
def toOperand : ExprValue T → QuadraticOperand T
  | .number a => .affine (.number (.same a))
  | .var x => .affine (.factor (.var x))
  | .linear term => .affine (.factor (.term (.same term)))
  | .quadraticTerm term => .term (.same term)
  | .affine function => .affine (.factor (.function (.same function)))
  | .quadratic function => .function (.same function)

/-- The text of the value. -/
def render : ExprValue T → String
  | .number a => a.render
  | .var x => x.render
  | .linear term => term.render
  | .quadraticTerm term => term.render
  | .affine function => function.render
  | .quadratic function => function.render

/-- The opposite value; a variable has none. -/
def neg : ExprValue T → Except ExprFailure (ExprValue T)
  | .number a => do
      let result ← a.neg
      pure (.number result)
  | .linear term => do
      let result ← term.neg
      pure (.linear result)
  | .quadraticTerm term => do
      let result ← term.neg
      pure (.quadraticTerm result)
  | .affine function => do
      let result ← function.neg
      pure (.affine result)
  | .quadratic function => do
      let result ← function.neg
      pure (.quadratic result)
  | .var _ => .error .illKinded

/-- The canonical form of a value; a number, a variable and a linear term have none. -/
def canonical : ExprValue T → Except ExprFailure (ExprValue T)
  | .quadraticTerm term => pure (.quadraticTerm term.orient)
  | .affine function => do
      let result ← function.canonicalize
      pure (.affine result)
  | .quadratic function => do
      let result ← function.canonicalize
      pure (.quadratic result)
  | _ => .error .illKinded

/-- Add an operand to an affine function, or subtract it. -/
def sumAffine (sign : Sign) (function : AffineFunction T) (operand : AffineOperand T) :
    Except ExprFailure (ExprValue T) := do
  let result ← match sign with
    | .plus => function.add operand
    | .minus => function.sub operand
  pure (.affine result)

/-- Add an operand to a quadratic function, or subtract it. -/
def sumQuadratic (sign : Sign) (function : QuadraticFunction T) (operand : QuadraticOperand T) :
    Except ExprFailure (ExprValue T) := do
  let result ← match sign with
    | .plus => function.add operand
    | .minus => function.sub operand
  pure (.quadratic result)

/-- The sum or difference of a term or function and an operand. -/
def sumOperand (sign : Sign) (left : ExprValue T) (right : QuadraticOperand T) :
    Except ExprFailure (ExprValue T) :=
  match left, right with
  | .linear term, .affine operand => sumAffine sign (.ofTerm term) operand
  | .affine function, .affine operand => sumAffine sign function operand
  | .quadraticTerm term, operand => sumQuadratic sign (.ofTerm term) operand
  | .quadratic function, operand => sumQuadratic sign function operand
  | _, _ => .error .illKinded

/-- The sum or difference of two values. -/
def sum (sign : Sign) (left right : ExprValue T) : Except ExprFailure (ExprValue T) :=
  match left, right with
  | .number a, .number b => do
      let result ← match sign with
        | .plus => a.add b
        | .minus => a.sub b
      pure (.number result)
  | _, _ => sumOperand sign left right.toOperand

/-- The product of two values. -/
def product (left right : ExprValue T) : Except ExprFailure (ExprValue T) :=
  match left, right with
  | .number a, .number b => do
      let result ← a.mul b
      pure (.number result)
  | .number a, .var x => pure (.linear ⟨a, x⟩)
  | .var x, .number a => pure (.linear ⟨a, x⟩)
  | .number a, .linear term | .linear term, .number a => do
      let result ← term.scale a
      pure (.linear result)
  | .linear term, .var x => pure (.quadraticTerm (term.timesVariable x))
  | .linear x, .linear y => do
      let result ← x.times y
      pure (.quadraticTerm result)
  | .number a, .quadraticTerm term | .quadraticTerm term, .number a => do
      let result ← term.scale a
      pure (.quadraticTerm result)
  | .affine function, .number a => do
      let result ← function.scale a
      pure (.affine result)
  | .quadratic function, .number a => do
      let result ← function.scale a
      pure (.quadratic result)
  | .affine x, .affine y => do
      let result ← x.times y
      pure (.quadratic result)
  | _, _ => .error .illKinded

end ExprValue

/-- The value of an expression; the left argument of an operator is evaluated first. -/
def Expr.eval {T : ScalarType} : Expr T → Except ExprFailure (ExprValue T)
  | .value x => pure x
  | .neg argument => do
      let x ← argument.eval
      x.neg
  | .canonical argument => do
      let x ← argument.eval
      x.canonical
  | .sum sign left right => do
      let x ← left.eval
      let y ← right.eval
      x.sum sign y
  | .sumOperand sign left operand => do
      let x ← left.eval
      x.sumOperand sign operand
  | .product left right => do
      let x ← left.eval
      let y ← right.eval
      x.product y

end DegreeTwo
