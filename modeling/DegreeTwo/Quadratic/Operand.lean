import DegreeTwo.Affine.Operand
import DegreeTwo.Quadratic.Basic

/-!
# Operands of degree at most two

Whatever can be added to an affine function can be added to a quadratic one, through its affine
part; quadratic terms and quadratic functions can be added besides.
-/

namespace DegreeTwo

/-- An operand of degree at most two. -/
inductive QuadraticOperand (T : ScalarType) where
  /-- An operand of degree at most one. -/
  | affine (operand : AffineOperand T)
  /-- A quadratic term. -/
  | term (term : Below QuadraticTerm T)
  /-- A quadratic function. -/
  | function (function : Below QuadraticFunction T)

namespace QuadraticFunction

variable {T : ScalarType}

/-- Add `scale` times a quadratic term. -/
def addScaledTerm (dest : QuadraticFunction T) (term : Below QuadraticTerm T) (scale : Scalar T) :
    Except Fault (QuadraticFunction T) := do
  let scaled ← term.quadraticTerm.scale scale
  pure (dest.pushQuadratic scaled)

/-- Add `scale` times a quadratic function. -/
def addScaledFunction (dest : QuadraticFunction T) (source : Below QuadraticFunction T)
    (scale : Scalar T) : Except Fault (QuadraticFunction T) := do
  let buffer ← Buffer.extend dest.quadratic source.value.quadratic.length default
  let scaled ← source.value.quadratic.mapM fun term => (term.widen source.source_le).scale scale
  let affine ← dest.affine.addScaledFactor scale
    (.function ⟨source.source, source.source_le, source.value.affine⟩)
  pure ⟨Buffer.storeAt buffer dest.quadratic.length scaled, affine⟩

/-- Add `scale` times an operand. -/
def addScaled (dest : QuadraticFunction T) (operand : QuadraticOperand T) (scale : Scalar T) :
    Except Fault (QuadraticFunction T) :=
  match operand with
  | .affine operand => do
      let affine ← dest.affine.addScaled operand scale
      pure { dest with affine }
  | .term term => dest.addScaledTerm term scale
  | .function source => dest.addScaledFunction source scale

/-- Add an operand. -/
def add (dest : QuadraticFunction T) (operand : QuadraticOperand T) :
    Except Fault (QuadraticFunction T) :=
  dest.addScaled operand .one

/-- Subtract an operand, by adding its multiple with minus one. -/
def sub (dest : QuadraticFunction T) (operand : QuadraticOperand T) :
    Except Fault (QuadraticFunction T) :=
  dest.addScaled operand .minusOne

/-- Overwrite a destination with an operand. -/
def setTo (dest : QuadraticFunction T) (operand : QuadraticOperand T) :
    Except Fault (QuadraticFunction T) :=
  match operand with
  | .affine (.factor factor) => do
      let affine ← dest.affine.setTo (.factor factor)
      pure ⟨[], affine⟩
  | .function source => pure (dest.overwrite source)
  | operand => dest.clear.addScaled operand .one

/-- Overwrite a destination with the sum of two operands. -/
def setSum (dest : QuadraticFunction T) (x y : QuadraticOperand T) :
    Except Fault (QuadraticFunction T) := do
  let assigned ← dest.setTo x
  assigned.add y

/-- Overwrite a destination with the difference of two operands. -/
def setDifference (dest : QuadraticFunction T) (x y : QuadraticOperand T) :
    Except Fault (QuadraticFunction T) := do
  let assigned ← dest.setTo x
  assigned.sub y

end QuadraticFunction

end DegreeTwo
