import DegreeTwo.Assignment
import DegreeTwo.Buffer
import DegreeTwo.Sorting.Ascending
import DegreeTwo.Sorting.ByKey
import DegreeTwo.Term

/-!
# Affine functions

An affine function is a list of linear terms and a constant.  Terms are kept in the order in which
they were added, and several terms may be on one variable; only canonicalization sorts and merges
them.  Equality is equality of the lists, so it agrees with equality of values for canonical
functions only.
-/

namespace DegreeTwo

/-- The function `linear + constant`. -/
structure AffineFunction (T : ScalarType) where
  /-- Linear terms of the function. -/
  linear : List (LinearTerm T)
  /-- Constant of the function. -/
  constant : Scalar T

namespace AffineFunction

variable {S T V : ScalarType}

instance : BEq (AffineFunction T) :=
  ⟨fun left right => left.linear == right.linear && left.constant == right.constant⟩

/-- The function without terms and with constant zero. -/
def zero : AffineFunction T := ⟨[], .zero⟩

/-- A number as a constant function. -/
def ofNumber (number : Scalar T) : AffineFunction T := ⟨[], number⟩

/-- A variable as a function. -/
def ofVariable (var : Variable) : AffineFunction T := ⟨[.ofVariable var], .zero⟩

/-- A term as a function. -/
def ofTerm (term : LinearTerm T) : AffineFunction T := ⟨[term], .zero⟩

/-- Reset a destination to the zero function. -/
def clear (_dest : AffineFunction T) : AffineFunction T := zero

/-- Replace the constant. -/
def setConstant (dest : AffineFunction T) (constant : Scalar T) : AffineFunction T :=
  { dest with constant }

/-- Append a linear term. -/
def pushLinear (dest : AffineFunction T) (term : LinearTerm T) : AffineFunction T :=
  { dest with linear := dest.linear ++ [term] }

/-- Keep at most the first `len` linear terms. -/
def truncateLinear (dest : AffineFunction T) (len : Nat) : AffineFunction T :=
  { dest with linear := dest.linear.take len }

/-- Resize the term buffer of the destination to `len` slots, store `terms` over them, and replace
the constant. -/
def storeLinear (dest : AffineFunction T) (len : Nat) (terms : List (LinearTerm T))
    (constant : Scalar T) : AffineFunction T :=
  ⟨Buffer.overwrite (Buffer.resize dest.linear len default) terms, constant⟩

/-- Where there is a term for every slot, nothing of the old destination is left. -/
theorem storeLinear_eq {dest : AffineFunction T} {len : Nat} {terms : List (LinearTerm T)}
    {constant : Scalar T} (h : terms.length = len) :
    dest.storeLinear len terms constant = ⟨terms, constant⟩ := by
  simp [storeLinear, Buffer.overwrite_of_length_eq, h]

/-- Overwrite a destination with a function whose type lies below its own. -/
def overwrite (dest : AffineFunction T) (source : Below AffineFunction T) : AffineFunction T :=
  dest.storeLinear source.value.linear.length
    (source.value.linear.map (LinearTerm.widen source.source_le))
    (source.value.constant.widen source.source_le)

/-- The function with its coefficients in a type above. -/
def widen (h : S ≤ T) (f : AffineFunction S) : AffineFunction T := zero.overwrite ⟨S, h, f⟩

/-- The opposite function: first the terms in order, then the constant. -/
def neg (f : AffineFunction T) : Except Fault (AffineFunction T) := do
  let linear ← f.linear.mapM LinearTerm.neg
  let constant ← f.constant.neg
  pure ⟨linear, constant⟩

/-- The function times a number: first the terms in order, then the constant. -/
def scale (f : AffineFunction T) (number : Scalar T) : Except Fault (AffineFunction T) := do
  let linear ← f.linear.mapM fun term => term.scale number
  let constant ← f.constant.mul number
  pure ⟨linear, constant⟩

/-- Sort the terms by their variables and sum the terms on one variable in the order in which they
were added. -/
def canonicalize (f : AffineFunction T) : Except Fault (AffineFunction T) := do
  let linear ← mergeByKey LinearTerm.var
    (fun left right => do
      let coeff ← left.coeff.add right.coeff
      pure ⟨coeff, left.var⟩) f.linear
  pure { f with linear }

/-- Whether the variables of the terms ascend strictly. -/
def isCanonical (f : AffineFunction T) : Bool := ascendsStrictly (f.linear.map LinearTerm.var)

/-- Keep the terms whose magnitude exceeds the tolerance. -/
def prune (f : AffineFunction T) (tolerance : Scalar T) : AffineFunction T :=
  { f with linear := f.linear.filter fun term => tolerance.less term.coeff.magnitude }

/-- Drop the terms whose coefficient is exactly zero. -/
def pruneZeros (f : AffineFunction T) : AffineFunction T := f.prune .zero

/-- Add the value of a term to a running sum. -/
def addTermValue (values : Assignment V) (sum : Scalar (T.common V)) (term : LinearTerm T) :
    Except Failure (Scalar (T.common V)) := do
  let value ← values.lookup term.var
  let product ← (term.coeff.widen (T.left_le_common V)).mul (value.widen (T.right_le_common V))
  sum.add product

/-- The value of the function in the common type of coefficients and values: the constant, plus the
terms in order. -/
def evaluate (f : AffineFunction T) (values : Assignment V) :
    Except Failure (Scalar (T.common V)) :=
  f.linear.foldlM (addTermValue values) (f.constant.widen (T.left_le_common V))

/-- The text of the function: its terms, each followed by a plus sign, and its constant. -/
def render (f : AffineFunction T) : String :=
  String.join (f.linear.map fun term => term.render ++ " + ") ++ f.constant.render

end AffineFunction

end DegreeTwo
