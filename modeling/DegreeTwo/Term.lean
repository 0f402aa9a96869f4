import DegreeTwo.Scalar.Text

/-!
# Terms

A term is a coefficient times one variable, or a coefficient times a row and a column variable.  The
product of two variables does not depend on their order, but a quadratic term keeps the order in
which it was built until it is oriented.
-/

namespace DegreeTwo

/-- The term `coeff * var`. -/
structure LinearTerm (T : ScalarType) where
  /-- Coefficient of the term. -/
  coeff : Scalar T
  /-- Variable of the term. -/
  var : Variable

/-- The term `coeff * row * col`. -/
structure QuadraticTerm (T : ScalarType) where
  /-- Coefficient of the term. -/
  coeff : Scalar T
  /-- Row variable of the term. -/
  row : Variable
  /-- Column variable of the term. -/
  col : Variable

namespace QuadraticTerm

variable {S T : ScalarType}

/-- Terms are compared as they are built, coefficients as numbers. -/
instance : BEq (QuadraticTerm T) :=
  ⟨fun left right => left.coeff == right.coeff && left.row == right.row && left.col == right.col⟩

instance : Inhabited (QuadraticTerm T) := ⟨⟨.zero, default, default⟩⟩

/-- The variables of the term in its own order. -/
def pair (term : QuadraticTerm T) : VariablePair := ⟨term.row, term.col⟩

/-- The monomial of the term. -/
def monomial (term : QuadraticTerm T) : Monomial := .product term.row term.col

/-- The same product with the lesser variable as its row. -/
def orient (term : QuadraticTerm T) : QuadraticTerm T :=
  if term.col < term.row then ⟨term.coeff, term.col, term.row⟩ else term

/-- Whether the row variable is not greater than the column variable. -/
def isOriented (term : QuadraticTerm T) : Bool := decide (term.row ≤ term.col)

/-- The variables of the term with the lesser one first. -/
def orientedPair (term : QuadraticTerm T) : VariablePair :=
  if term.row ≤ term.col then ⟨term.row, term.col⟩ else ⟨term.col, term.row⟩

/-- The term with its coefficient in a type above. -/
def widen (h : S ≤ T) (term : QuadraticTerm S) : QuadraticTerm T :=
  ⟨term.coeff.widen h, term.row, term.col⟩

/-- The opposite term. -/
def neg (term : QuadraticTerm T) : Except Fault (QuadraticTerm T) := do
  let coeff ← term.coeff.neg
  pure ⟨coeff, term.row, term.col⟩

/-- The term times a number. -/
def scale (term : QuadraticTerm T) (number : Scalar T) : Except Fault (QuadraticTerm T) := do
  let coeff ← term.coeff.mul number
  pure ⟨coeff, term.row, term.col⟩

/-- The sum of two terms on the same two variables, in the order of the first one. -/
def merge (left right : QuadraticTerm T) : Except Failure (QuadraticTerm T) := do
  if left.orientedPair = right.orientedPair then
    let coeff ← left.coeff.add right.coeff
    pure ⟨coeff, left.row, left.col⟩
  else refuse (.unlikeTerms left.monomial right.monomial)

/-- The text of a quadratic term. -/
def render (term : QuadraticTerm T) : String := term.coeff.render ++ " * " ++ term.monomial.render

@[simp]
theorem widen_self (h : T ≤ T) (term : QuadraticTerm T) : term.widen h = term := by
  simp [widen]

@[simp]
theorem map_widen_self (h : T ≤ T) (terms : List (QuadraticTerm T)) : terms.map (widen h) = terms :=
  (List.map_congr_left fun term _ => term.widen_self h).trans (List.map_id terms)

end QuadraticTerm

namespace LinearTerm

variable {S T : ScalarType}

/-- Terms are compared as they are built, coefficients as numbers. -/
instance : BEq (LinearTerm T) :=
  ⟨fun left right => left.coeff == right.coeff && left.var == right.var⟩

instance : Inhabited (LinearTerm T) := ⟨⟨.zero, default⟩⟩

/-- A variable as a term. -/
def ofVariable (var : Variable) : LinearTerm T := ⟨.one, var⟩

/-- The monomial of the term. -/
def monomial (term : LinearTerm T) : Monomial := .single term.var

/-- The term with its coefficient in a type above. -/
def widen (h : S ≤ T) (term : LinearTerm S) : LinearTerm T := ⟨term.coeff.widen h, term.var⟩

/-- The opposite term. -/
def neg (term : LinearTerm T) : Except Fault (LinearTerm T) := do
  let coeff ← term.coeff.neg
  pure ⟨coeff, term.var⟩

/-- The term times a number. -/
def scale (term : LinearTerm T) (number : Scalar T) : Except Fault (LinearTerm T) := do
  let coeff ← term.coeff.mul number
  pure ⟨coeff, term.var⟩

/-- The term times a variable. -/
def timesVariable (term : LinearTerm T) (var : Variable) : QuadraticTerm T :=
  ⟨term.coeff, term.var, var⟩

/-- The product of two terms. -/
def times (left right : LinearTerm T) : Except Fault (QuadraticTerm T) := do
  let coeff ← left.coeff.mul right.coeff
  pure ⟨coeff, left.var, right.var⟩

/-- The sum of two terms on the same variable. -/
def merge (left right : LinearTerm T) : Except Failure (LinearTerm T) := do
  if left.var = right.var then
    let coeff ← left.coeff.add right.coeff
    pure ⟨coeff, left.var⟩
  else refuse (.unlikeTerms left.monomial right.monomial)

/-- The text of a linear term. -/
def render (term : LinearTerm T) : String := term.coeff.render ++ " * " ++ term.monomial.render

@[simp]
theorem widen_self (h : T ≤ T) (term : LinearTerm T) : term.widen h = term := by
  simp [widen]

@[simp]
theorem map_widen_self (h : T ≤ T) (terms : List (LinearTerm T)) : terms.map (widen h) = terms :=
  (List.map_congr_left fun term _ => term.widen_self h).trans (List.map_id terms)

end LinearTerm

/-- The term with its coefficient in the type `T`. -/
def Below.linearTerm {T : ScalarType} (term : Below LinearTerm T) : LinearTerm T :=
  term.value.widen term.source_le

/-- The term with its coefficient in the type `T`. -/
def Below.quadraticTerm {T : ScalarType} (term : Below QuadraticTerm T) : QuadraticTerm T :=
  term.value.widen term.source_le

end DegreeTwo
