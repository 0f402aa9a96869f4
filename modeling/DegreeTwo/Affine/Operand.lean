import DegreeTwo.Affine.Basic

/-!
# Operands of degree at most one

Numbers, variables, linear terms and affine functions can be added to an affine function.  An
operand may have coefficients of any type below that of the destination; they are widened before
anything is computed.  Terms are appended and never merged.
-/

namespace DegreeTwo

/-- An operand that has linear terms. -/
inductive Factor (T : ScalarType) where
  /-- A variable. -/
  | var (var : Variable)
  /-- A linear term. -/
  | term (term : Below LinearTerm T)
  /-- An affine function. -/
  | function (function : Below AffineFunction T)

/-- An operand of degree at most one. -/
inductive AffineOperand (T : ScalarType) where
  /-- A number. -/
  | number (number : Below Scalar T)
  /-- A variable, a linear term or an affine function. -/
  | factor (factor : Factor T)

namespace AffineFunction

variable {T : ScalarType}

/-- Add `scale` times a number. -/
def addScaledNumber (dest : AffineFunction T) (number : Below Scalar T) (scale : Scalar T) :
    Except Fault (AffineFunction T) := do
  let product ← number.scalar.mul scale
  let constant ← dest.constant.add product
  pure { dest with constant }

/-- Add `scale` times a variable, a linear term or an affine function. -/
def addScaledFactor (dest : AffineFunction T) (scale : Scalar T) :
    Factor T → Except Fault (AffineFunction T)
  | .var var => pure (dest.pushLinear ⟨scale, var⟩)
  | .term term => do
      let scaled ← term.linearTerm.scale scale
      pure (dest.pushLinear scaled)
  | .function source => do
      let buffer ← Buffer.extend dest.linear source.value.linear.length default
      let scaled ← source.value.linear.mapM fun term => (term.widen source.source_le).scale scale
      let product ← (source.value.constant.widen source.source_le).mul scale
      let constant ← dest.constant.add product
      pure ⟨Buffer.storeAt buffer dest.linear.length scaled, constant⟩

/-- Add `scale` times an operand. -/
def addScaled (dest : AffineFunction T) (operand : AffineOperand T) (scale : Scalar T) :
    Except Fault (AffineFunction T) :=
  match operand with
  | .number number => dest.addScaledNumber number scale
  | .factor factor => dest.addScaledFactor scale factor

/-- Add an operand. -/
def add (dest : AffineFunction T) (operand : AffineOperand T) : Except Fault (AffineFunction T) :=
  dest.addScaled operand .one

/-- Subtract an operand, by adding its multiple with minus one. -/
def sub (dest : AffineFunction T) (operand : AffineOperand T) : Except Fault (AffineFunction T) :=
  dest.addScaled operand .minusOne

/-- Overwrite a destination with an operand. -/
def setTo (dest : AffineFunction T) : AffineOperand T → Except Fault (AffineFunction T)
  | .factor (.function source) => pure (dest.overwrite source)
  | operand => dest.clear.addScaled operand .one

/-- Overwrite a destination with the sum of two operands. -/
def setSum (dest : AffineFunction T) (x y : AffineOperand T) :
    Except Fault (AffineFunction T) := do
  let assigned ← dest.setTo x
  assigned.add y

/-- Overwrite a destination with the difference of two operands. -/
def setDifference (dest : AffineFunction T) (x y : AffineOperand T) :
    Except Fault (AffineFunction T) := do
  let assigned ← dest.setTo x
  assigned.sub y

end AffineFunction

end DegreeTwo
