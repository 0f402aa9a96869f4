import DegreeTwo.Affine.Basic

/-!
# Quadratic functions

A quadratic function is a list of quadratic terms and an affine function.  As with affine functions,
terms stay in the order in which they were added until canonicalization orients, sorts and merges
them.
-/

namespace DegreeTwo

/-- The function `quadratic + affine`. -/
structure QuadraticFunction (T : ScalarType) where
  /-- Quadratic terms of the function. -/
  quadratic : List (QuadraticTerm T)
  /-- The part of degree at most one. -/
  affine : AffineFunction T

namespace QuadraticFunction

variable {S T V : ScalarType}

instance : BEq (QuadraticFunction T) :=
  ⟨fun left right => left.quadratic == right.quadratic && left.affine == right.affine⟩

/-- The function without terms and with constant zero. -/
def zero : QuadraticFunction T := ⟨[], .zero⟩

/-- An affine function as a quadratic one. -/
def ofAffine (affine : AffineFunction T) : QuadraticFunction T := ⟨[], affine⟩

/-- A number as a constant function. -/
def ofNumber (number : Scalar T) : QuadraticFunction T := ofAffine (.ofNumber number)

/-- A variable as a function. -/
def ofVariable (var : Variable) : QuadraticFunction T := ofAffine (.ofVariable var)

/-- A linear term as a function. -/
def ofLinearTerm (term : LinearTerm T) : QuadraticFunction T := ofAffine (.ofTerm term)

/-- A quadratic term as a function. -/
def ofTerm (term : QuadraticTerm T) : QuadraticFunction T := ⟨[term], .zero⟩

/-- Reset a destination to the zero function. -/
def clear (_dest : QuadraticFunction T) : QuadraticFunction T := zero

/-- Append a quadratic term. -/
def pushQuadratic (dest : QuadraticFunction T) (term : QuadraticTerm T) : QuadraticFunction T :=
  { dest with quadratic := dest.quadratic ++ [term] }

/-- Keep at most the first `len` quadratic terms. -/
def truncateQuadratic (dest : QuadraticFunction T) (len : Nat) : QuadraticFunction T :=
  { dest with quadratic := dest.quadratic.take len }

/-- Resize the buffer of quadratic terms of the destination to `len` slots, store `terms` over them,
and replace the affine part. -/
def storeQuadratic (dest : QuadraticFunction T) (len : Nat) (terms : List (QuadraticTerm T))
    (affine : AffineFunction T) : QuadraticFunction T :=
  ⟨Buffer.overwrite (Buffer.resize dest.quadratic len default) terms, affine⟩

/-- Where there is a term for every slot, nothing of the old quadratic terms is left. -/
theorem storeQuadratic_eq {dest : QuadraticFunction T} {len : Nat} {terms : List (QuadraticTerm T)}
    {affine : AffineFunction T} (h : terms.length = len) :
    dest.storeQuadratic len terms affine = ⟨terms, affine⟩ := by
  simp [storeQuadratic, Buffer.overwrite_of_length_eq, h]

/-- Overwrite a destination with a function whose type lies below its own. -/
def overwrite (dest : QuadraticFunction T) (source : Below QuadraticFunction T) :
    QuadraticFunction T :=
  dest.storeQuadratic source.value.quadratic.length
    (source.value.quadratic.map (QuadraticTerm.widen source.source_le))
    (dest.affine.overwrite ⟨source.source, source.source_le, source.value.affine⟩)

/-- The function with its coefficients in a type above. -/
def widen (h : S ≤ T) (f : QuadraticFunction S) : QuadraticFunction T :=
  zero.overwrite ⟨S, h, f⟩

/-- The opposite function: first the quadratic terms in order, then the affine part. -/
def neg (f : QuadraticFunction T) : Except Fault (QuadraticFunction T) := do
  let quadratic ← f.quadratic.mapM QuadraticTerm.neg
  let affine ← f.affine.neg
  pure ⟨quadratic, affine⟩

/-- The function times a number: first the quadratic terms in order, then the affine part. -/
def scale (f : QuadraticFunction T) (number : Scalar T) : Except Fault (QuadraticFunction T) := do
  let quadratic ← f.quadratic.mapM fun term => term.scale number
  let affine ← f.affine.scale number
  pure ⟨quadratic, affine⟩

/-- Canonicalize the affine part, then orient the quadratic terms, sort them by their variables and
sum the terms on the same two variables in the order in which they were added. -/
def canonicalize (f : QuadraticFunction T) : Except Fault (QuadraticFunction T) := do
  let affine ← f.affine.canonicalize
  let quadratic ← mergeByKey QuadraticTerm.pair
    (fun left right => do
      let coeff ← left.coeff.add right.coeff
      pure ⟨coeff, left.row, left.col⟩) (f.quadratic.map QuadraticTerm.orient)
  pure { quadratic, affine }

/-- Whether the affine part is canonical, every quadratic term is oriented, and the variables of the
quadratic terms ascend strictly. -/
def isCanonical (f : QuadraticFunction T) : Bool :=
  f.affine.isCanonical && f.quadratic.all QuadraticTerm.isOriented &&
    ascendsStrictly (f.quadratic.map QuadraticTerm.orientedPair)

/-- Keep the quadratic and linear terms whose magnitude exceeds the tolerance. -/
def prune (f : QuadraticFunction T) (tolerance : Scalar T) : QuadraticFunction T :=
  { quadratic := f.quadratic.filter fun term => tolerance.less term.coeff.magnitude
    affine := f.affine.prune tolerance }

/-- Drop the terms whose coefficient is exactly zero. -/
def pruneZeros (f : QuadraticFunction T) : QuadraticFunction T := f.prune .zero

/-- Add the value of a quadratic term to a running sum. -/
def addTermValue (values : Assignment V) (sum : Scalar (T.common V)) (term : QuadraticTerm T) :
    Except Failure (Scalar (T.common V)) := do
  let row ← values.lookup term.row
  let col ← values.lookup term.col
  let left ← (term.coeff.widen (T.left_le_common V)).mul (row.widen (T.right_le_common V))
  let product ← left.mul (col.widen (T.right_le_common V))
  sum.add product

/-- The value of the function in the common type of coefficients and values: the value of the affine
part, plus the quadratic terms in order. -/
def evaluate (f : QuadraticFunction T) (values : Assignment V) :
    Except Failure (Scalar (T.common V)) := do
  let sum ← f.affine.evaluate values
  f.quadratic.foldlM (addTermValue values) sum

/-- The text of the function: its quadratic terms, each followed by a plus sign, and its affine
part. -/
def render (f : QuadraticFunction T) : String :=
  String.join (f.quadratic.map fun term => term.render ++ " + ") ++ f.affine.render

end QuadraticFunction

end DegreeTwo
