import DegreeTwo.Scalar.Basic

/-!
# Assignments

An assignment gives values to some of the variables: either to an initial segment of them, as a
list, or to those that are mentioned in a list of entries.
-/

namespace DegreeTwo

/-- Values of variables. -/
inductive Assignment (V : ScalarType) where
  /-- The value of a variable stands at its index. -/
  | dense (values : List (Scalar V))
  /-- The value of a variable stands beside it; of several entries the last one counts. -/
  | sparse (entries : List (Variable × Scalar V))

namespace Assignment

variable {V : ScalarType}

/-- The value of a variable, if it has one. -/
def value? : Assignment V → Variable → Option (Scalar V)
  | dense values, var => values[var.index]?
  | sparse entries, var => (entries.reverse.find? fun entry => entry.1 == var).map Prod.snd

/-- The value of a variable; a variable without a value is refused. -/
def lookup (values : Assignment V) (var : Variable) : Except Failure (Scalar V) :=
  match values.value? var with
  | some value => .ok value
  | none => refuse (.missingValue var)

end Assignment

end DegreeTwo
