import DegreeTwo.InPlace

/-!
# Runs of updates

A sequence of updates is applied to a state one after the other.  Each update works on what the ones
before it have left, the refused ones included; a fault ends the run.
-/

namespace DegreeTwo

variable {σ υ : Type}

/-- The state after a sequence of updates. -/
def performAll (perform : υ → InPlace σ Unit) (updates : List υ) (start : σ) : Except Fault σ :=
  updates.foldlM (fun state update => (perform update).leaves state) start

end DegreeTwo
