import DegreeTwo.Variable

/-!
# Faults and refusals

A computation ends in one of two ways other than its result.  A *refusal* is an answer: the
arguments do not fit together, and the caller may go on with the destination as it has been left.  A
*fault* breaks everything off: an integer result does not fit its type, or a position lies outside
its sequence.
-/

namespace DegreeTwo

/-- The operations of arithmetic whose integer result may not fit. -/
inductive Operation where
  /-- Sum of two numbers. -/
  | add
  /-- Difference of two numbers. -/
  | subtract
  /-- Product of two numbers. -/
  | multiply
  /-- Opposite of a number. -/
  | negate
  deriving DecidableEq

/-- The verb that names an operation in a message. -/
def Operation.verb : Operation → String
  | add => "add"
  | subtract => "subtract"
  | multiply => "multiply"
  | negate => "negate"

/-- What breaks a computation off. -/
inductive Fault where
  /-- An integer result does not fit its type. -/
  | overflow (operation : Operation)
  /-- A quotient with divisor zero. -/
  | zeroDivisor
  /-- A row beyond the last one of a matrix. -/
  | rowOutOfRange
  /-- A position beyond the end of a sequence. -/
  | indexOutOfRange (index length : Nat)
  deriving DecidableEq

/-- The text of a fault. -/
def Fault.message : Fault → String
  | overflow operation => "attempt to " ++ operation.verb ++ " with overflow"
  | zeroDivisor => "attempt to divide by zero"
  | rowOutOfRange => "assertion failed: i < self.rows"
  | indexOutOfRange index length =>
      "index out of bounds: the len is " ++ toString length ++ " but the index is " ++
        toString index

/-- The arguments of an array operation whose length is checked. -/
inductive Argument where
  /-- The left operand list. -/
  | x
  /-- The right operand list, or the destination of a product with a matrix. -/
  | y
  /-- The list of sources of a concatenation. -/
  | sources
  deriving DecidableEq

/-- The name of an argument in a message. -/
def Argument.render : Argument → String
  | x => "x"
  | y => "y"
  | sources => "sources"

/-- Why an operation refuses its arguments. -/
inductive Error where
  /-- Two terms on different monomials have no common term. -/
  | unlikeTerms (left right : Monomial)
  /-- An argument does not have the length that the others ask for. -/
  | wrongLength (argument : Argument) (expected actual : Nat)
  /-- The assignment has no value for a variable of the function. -/
  | missingValue (var : Variable)
  deriving DecidableEq

/-- The text of a refusal. -/
def Error.message : Error → String
  | unlikeTerms left right =>
      "cannot combine a term on " ++ left.render ++ " with a term on " ++ right.render
  | wrongLength argument expected actual =>
      "argument " ++ argument.render ++ " has length " ++ toString actual ++ ", expected " ++
        toString expected
  | missingValue var => "no value was given for variable " ++ var.render

/-- Everything that can stand in the place of a result. -/
inductive Failure where
  /-- The operation refused its arguments. -/
  | refused (error : Error)
  /-- The computation broke off. -/
  | faulted (fault : Fault)
  deriving DecidableEq

/-- A computation that can only break off is one that may also refuse. -/
instance : MonadLift (Except Fault) (Except Failure) :=
  ⟨fun computation => computation.mapError Failure.faulted⟩

/-- Refuse with the given error. -/
def refuse {α : Type} (error : Error) : Except Failure α := .error (.refused error)

/-- Refuse unless `argument` has the expected length. -/
def checkLength (argument : Argument) (expected actual : Nat) : Except Failure Unit :=
  if expected = actual then pure () else refuse (.wrongLength argument expected actual)

end DegreeTwo
