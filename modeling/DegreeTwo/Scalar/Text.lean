import DegreeTwo.Decimal.Shortest
import DegreeTwo.Scalar.Basic

/-!
# The text of a coefficient

Integers are written in decimal.  Floating-point numbers are written with the fewest digits that
read back as the same number in their own precision, always in positional notation.
-/

namespace DegreeTwo.Scalar

/-- The text of a coefficient. -/
def render : {T : ScalarType} → Scalar T → String
  | .integer _, a => toString a.val
  | .single, a => (BinaryFormat.binary32.decode (Float32.toBits a).toNat).render
  | .double, a => (BinaryFormat.binary64.decode (Float.toBits a).toNat).render

end DegreeTwo.Scalar
