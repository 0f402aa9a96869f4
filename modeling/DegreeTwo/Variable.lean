/-!
# Variables and monomials

A decision variable is known by its index alone.  Functions hold variables by value, and variables
are ordered as their indices.  A monomial is what a term multiplies its coefficient by: one variable
or the product of two.
-/

namespace DegreeTwo

/-- A decision variable. -/
structure Variable where
  /-- Position of the variable in the model. -/
  index : Nat
  deriving DecidableEq, Inhabited

namespace Variable

instance : LT Variable := ⟨fun left right => left.index < right.index⟩

instance : LE Variable := ⟨fun left right => left.index ≤ right.index⟩

instance : DecidableLT Variable := fun left right =>
  inferInstanceAs (Decidable (left.index < right.index))

instance : DecidableLE Variable := fun left right =>
  inferInstanceAs (Decidable (left.index ≤ right.index))

instance : Ord Variable := ⟨fun left right => compare left.index right.index⟩

theorem lt_def {left right : Variable} : left < right ↔ left.index < right.index := Iff.rfl

theorem le_def {left right : Variable} : left ≤ right ↔ left.index ≤ right.index := Iff.rfl

/-- A variable is written as `x` followed by its index. -/
def render (var : Variable) : String := "x" ++ toString var.index

end Variable

/-- The row and column variable of a product. -/
structure VariablePair where
  /-- Left factor of the product. -/
  row : Variable
  /-- Right factor of the product. -/
  col : Variable
  deriving DecidableEq, Inhabited

namespace VariablePair

/-- Pairs are compared by their rows first, then by their columns. -/
instance : LT VariablePair :=
  ⟨fun left right => left.row < right.row ∨ left.row = right.row ∧ left.col < right.col⟩

instance : LE VariablePair :=
  ⟨fun left right => left.row < right.row ∨ left.row = right.row ∧ left.col ≤ right.col⟩

instance : DecidableLT VariablePair := fun left right =>
  inferInstanceAs (Decidable (left.row < right.row ∨ left.row = right.row ∧ left.col < right.col))

instance : DecidableLE VariablePair := fun left right =>
  inferInstanceAs (Decidable (left.row < right.row ∨ left.row = right.row ∧ left.col ≤ right.col))

theorem lt_def {left right : VariablePair} :
    left < right ↔ left.row < right.row ∨ left.row = right.row ∧ left.col < right.col := Iff.rfl

theorem le_def {left right : VariablePair} :
    left ≤ right ↔ left.row < right.row ∨ left.row = right.row ∧ left.col ≤ right.col := Iff.rfl

end VariablePair

/-- The variable part of a term. -/
inductive Monomial where
  /-- A single variable. -/
  | single (var : Variable)
  /-- The product of a row and a column variable. -/
  | product (row col : Variable)
  deriving DecidableEq

/-- The factors of a monomial are joined by ` * ` in their own order. -/
def Monomial.render : Monomial → String
  | single var => var.render
  | product row col => row.render ++ " * " ++ col.render

end DegreeTwo
