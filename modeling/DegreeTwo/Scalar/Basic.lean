import DegreeTwo.Scalar.BoundedInt

/-!
# Coefficients

A coefficient is a number of one of the coefficient types.  Integer arithmetic is exact or breaks
off; floating-point arithmetic rounds every result to its own precision and never breaks off.  A
number may be widened into any type above its own: into integers without change, and from integers
into floating-point numbers by rounding once.
-/

namespace DegreeTwo

/-- The numbers of a coefficient type. -/
def Scalar : ScalarType → Type
  | .integer width => BoundedInt width
  | .single => Float32
  | .double => Float

namespace Scalar

/-- The additive identity. -/
def zero : {T : ScalarType} → Scalar T
  | .integer _ => BoundedInt.zero
  | .single => (0 : Float32)
  | .double => (0 : Float)

/-- The multiplicative identity. -/
def one : {T : ScalarType} → Scalar T
  | .integer _ => BoundedInt.one
  | .single => (1 : Float32)
  | .double => (1 : Float)

/-- The opposite of the multiplicative identity. -/
def minusOne : {T : ScalarType} → Scalar T
  | .integer _ => BoundedInt.minusOne
  | .single => (-1 : Float32)
  | .double => (-1 : Float)

/-- Sum of two coefficients. -/
def add : {T : ScalarType} → Scalar T → Scalar T → Except Fault (Scalar T)
  | .integer _, a, b => BoundedInt.add a b
  | .single, a, b => .ok (Float32.add a b)
  | .double, a, b => .ok (Float.add a b)

/-- Difference of two coefficients. -/
def sub : {T : ScalarType} → Scalar T → Scalar T → Except Fault (Scalar T)
  | .integer _, a, b => BoundedInt.sub a b
  | .single, a, b => .ok (Float32.sub a b)
  | .double, a, b => .ok (Float.sub a b)

/-- Product of two coefficients. -/
def mul : {T : ScalarType} → Scalar T → Scalar T → Except Fault (Scalar T)
  | .integer _, a, b => BoundedInt.mul a b
  | .single, a, b => .ok (Float32.mul a b)
  | .double, a, b => .ok (Float.mul a b)

/-- Opposite of a coefficient. -/
def neg : {T : ScalarType} → Scalar T → Except Fault (Scalar T)
  | .integer _, a => BoundedInt.neg a
  | .single, a => .ok (Float32.neg a)
  | .double, a => .ok (Float.neg a)

/-- Absolute value, saturating at the greatest integer of an integer type. -/
def magnitude : {T : ScalarType} → Scalar T → Scalar T
  | .integer _, a => BoundedInt.magnitude a
  | .single, a => Float32.abs a
  | .double, a => Float.abs a

/-- Whether the first coefficient is less than the second; nothing is less than a NaN. -/
def less : {T : ScalarType} → Scalar T → Scalar T → Bool
  | .integer _, a, b => decide (a.val < b.val)
  | .single, a, b => Float32.lt a b
  | .double, a, b => Float.lt a b

/-- Equality of numbers: a NaN differs from itself, and the two zeros are equal. -/
def equal : {T : ScalarType} → Scalar T → Scalar T → Bool
  | .integer _, a, b => decide (a.val = b.val)
  | .single, a, b => Float32.beq a b
  | .double, a, b => Float.beq a b

instance {T : ScalarType} : BEq (Scalar T) := ⟨equal⟩

instance {T : ScalarType} : Inhabited (Scalar T) := ⟨zero⟩

/-- Whether a coefficient equals the additive identity. -/
def isZero {T : ScalarType} (a : Scalar T) : Bool := a == zero

/-- The coefficient as a number of a type above its own. -/
def widen : {S T : ScalarType} → S ≤ T → Scalar S → Scalar T
  | .integer _, .integer _, h, a => BoundedInt.widen h a
  | .integer _, .single, _, a => Float32.ofInt a.val
  | .integer _, .double, _, a => Float.ofInt a.val
  | .single, .single, _, a => a
  | .single, .double, _, a => Float32.toFloat a
  | .double, .double, _, a => a
  | .single, .integer width, h, _ => absurd h (by cases width <;> decide)
  | .double, .integer width, h, _ => absurd h (by cases width <;> decide)
  | .double, .single, h, _ => absurd h (by decide)

@[simp]
theorem widen_self {T : ScalarType} (h : T ≤ T) (a : Scalar T) : widen h a = a := by
  cases T <;> rfl

end Scalar

/-- A value over some coefficient type that lies below `T`. -/
structure Below (F : ScalarType → Type) (T : ScalarType) where
  /-- The coefficient type of the value. -/
  source : ScalarType
  /-- It lies below `T`. -/
  source_le : source ≤ T
  /-- The value itself. -/
  value : F source

namespace Below

variable {F : ScalarType → Type} {T : ScalarType}

/-- A value over `T` itself. -/
def same (value : F T) : Below F T := ⟨T, ScalarType.le_refl T, value⟩

end Below

/-- The number as a coefficient of type `T`. -/
def Below.scalar {T : ScalarType} (number : Below Scalar T) : Scalar T :=
  number.value.widen number.source_le

@[simp]
theorem Below.scalar_same {T : ScalarType} (number : Scalar T) :
    (Below.same number).scalar = number :=
  Scalar.widen_self _ number

end DegreeTwo
