/-!
# Binary floating-point numbers

A finite number is a sign and a natural significand times a power of two.  The real numbers that
round to it form an interval around it; in units of a quarter of its last binary place the ends are
whole numbers.
-/

namespace DegreeTwo

/-- The layout of a binary interchange format. -/
structure BinaryFormat where
  /-- Number of bits of the stored fraction. -/
  fractionBits : Nat
  /-- Number of bits of the stored exponent. -/
  exponentBits : Nat

namespace BinaryFormat

/-- Single precision. -/
def binary32 : BinaryFormat := ⟨23, 8⟩

/-- Double precision. -/
def binary64 : BinaryFormat := ⟨52, 11⟩

/-- The exponent field of infinities and NaNs. -/
def topExponent (format : BinaryFormat) : Nat := Nat.pow 2 format.exponentBits - 1

/-- The number of binary places of the finest numbers of the format. -/
def binaryPlaces (format : BinaryFormat) : Nat :=
  Nat.pow 2 (format.exponentBits - 1) - 2 + format.fractionBits

end BinaryFormat

/-- A positive number `significand * 2 ^ shift / 2 ^ places`. -/
structure BinaryMagnitude where
  /-- The significand, an integer. -/
  significand : Nat
  /-- How far the last place of the significand stands above the finest place. -/
  shift : Nat
  /-- How many binary places the finest place of the format has. -/
  places : Nat
  /-- Whether the next smaller number is only half as far away as the next greater one. -/
  narrowBelow : Bool

namespace BinaryMagnitude

/-- The number in units of a quarter of the finest place. -/
def middle (x : BinaryMagnitude) : Nat := 4 * x.significand * Nat.pow 2 x.shift

/-- Lower end of the interval of reals that round to the number, in the same units. -/
def lower (x : BinaryMagnitude) : Nat :=
  (4 * x.significand - if x.narrowBelow then 1 else 2) * Nat.pow 2 x.shift

/-- Upper end of the interval of reals that round to the number, in the same units. -/
def upper (x : BinaryMagnitude) : Nat := (4 * x.significand + 2) * Nat.pow 2 x.shift

/-- The number of the units in one. -/
def unitsOfOne (x : BinaryMagnitude) : Nat := Nat.pow 2 (x.places + 2)

/-- Whether the ends belong to the interval: a tie goes to the even significand. -/
def endsRound (x : BinaryMagnitude) : Bool := x.significand % 2 == 0

/-- Whether the real number of so many units, over `divisor`, rounds to the number. -/
def contains (x : BinaryMagnitude) (units divisor : Nat) : Bool :=
  if x.endsRound then
    decide (x.lower * divisor ≤ units) && decide (units ≤ x.upper * divisor)
  else
    decide (x.lower * divisor < units) && decide (units < x.upper * divisor)

end BinaryMagnitude

/-- What a bit pattern stands for. -/
inductive BinaryClass where
  /-- Not a number. -/
  | nan
  /-- An infinity. -/
  | infinite (negative : Bool)
  /-- A zero. -/
  | zero (negative : Bool)
  /-- Any other number. -/
  | finite (negative : Bool) (magnitude : BinaryMagnitude)

/-- The number that a bit pattern stands for. -/
def BinaryFormat.decode (format : BinaryFormat) (bits : Nat) : BinaryClass :=
  let fractionLimit := Nat.pow 2 format.fractionBits
  let fraction := bits % fractionLimit
  let field := bits / fractionLimit % Nat.pow 2 format.exponentBits
  let negative := bits / fractionLimit / Nat.pow 2 format.exponentBits % 2 == 1
  if field = format.topExponent then
    if fraction = 0 then .infinite negative else .nan
  else if field = 0 then
    if fraction = 0 then .zero negative
    else .finite negative ⟨fraction, 0, format.binaryPlaces, false⟩
  else
    .finite negative
      ⟨fractionLimit + fraction, field - 1, format.binaryPlaces,
        fraction == 0 && decide (1 < field)⟩

end DegreeTwo
