import DegreeTwo.Decimal.Binary

/-!
# Shortest decimals

The decimal of a floating-point number is read off the coarsest decimal grid that has a point in
the interval of reals which round to the number; such a point reads back as the number, and no
decimal with fewer digits does.  If the grid has a point in the interval, one of the two neighbours
of the number is in it.  Of two such neighbours the nearer one is taken, and of two equally near
ones the greater.
-/

namespace DegreeTwo

/-- The number `digits * 10 ^ exponent`. -/
structure Decimal where
  /-- The digits, read as a natural number. -/
  digits : Nat
  /-- The power of ten of the last digit. -/
  exponent : Int
  deriving DecidableEq

namespace BinaryMagnitude

/-- The number of units between neighbours of a decimal grid, as a fraction. -/
def gridStep (x : BinaryMagnitude) : Int → Nat × Nat
  | .ofNat k => (x.unitsOfOne * Nat.pow 10 k, 1)
  | .negSucc k => (x.unitsOfOne, Nat.pow 10 (k + 1))

/-- The point that stands for the number on the grid of a power of ten, if there is one. -/
def onGrid? (x : BinaryMagnitude) (exponent : Int) : Option Nat :=
  let (step, divisor) := x.gridStep exponent
  let middle := x.middle * divisor
  let below := middle / step
  let above := below + 1
  match x.contains (below * step) divisor, x.contains (above * step) divisor with
  | false, false => none
  | true, false => some below
  | false, true => some above
  | true, true => some (if middle - below * step < above * step - middle then below else above)

/-- The coarsest grid with a point for the number, of at most `count` grids from `top` on down. -/
def searchGrids (x : BinaryMagnitude) (top : Int) : Nat → Decimal
  | 0 => ⟨0, 0⟩
  | count + 1 =>
      match x.onGrid? top with
      | some digits => ⟨digits, top⟩
      | none => x.searchGrids (top - 1) count

/-- The shortest decimal that reads back as the number.  The finest place of the format is itself
the last place of a decimal grid, so the search ends there at the latest. -/
def shortest (x : BinaryMagnitude) : Decimal :=
  let top := Nat.log2 (x.upper / x.unitsOfOne + 1) + 1
  x.searchGrids top (top + x.places + 1)

end BinaryMagnitude

/-- The decimal in positional notation, without an exponent and without a point that no digit
follows. -/
def Decimal.positional (decimal : Decimal) : String :=
  match decimal.exponent with
  | .ofNat zeros =>
      toString decimal.digits ++ String.ofList (List.replicate zeros '0')
  | .negSucc places =>
      let digits := (toString decimal.digits).toList
      let padded := List.replicate (places + 2 - digits.length) '0' ++ digits
      let whole := padded.length - (places + 1)
      String.ofList (padded.take whole) ++ "." ++ String.ofList (padded.drop whole)

/-- The text of a number: a sign, then the shortest decimal or the name of the value. -/
def BinaryClass.render : BinaryClass → String
  | nan => "NaN"
  | infinite negative => (if negative then "-" else "") ++ "inf"
  | zero negative => (if negative then "-" else "") ++ "0"
  | finite negative magnitude =>
      (if negative then "-" else "") ++ magnitude.shortest.positional

end DegreeTwo
