/-!
# Ascending sequences

A sequence ascends if no element is greater than the next one, and ascends strictly if none is
greater than or equal to the next one.  For a total order this is the order of all pairs; where two
elements cannot be compared, as a number with a NaN, the pair does no harm.
-/

namespace DegreeTwo

variable {κ : Type}

/-- Whether no element is greater than its right neighbour. -/
def ascends [LT κ] [DecidableLT κ] : List κ → Bool
  | first :: second :: rest =>
      !decide (second < first) && ascends (second :: rest)
  | _ => true

/-- Whether no element is greater than or equal to its right neighbour. -/
def ascendsStrictly [LE κ] [DecidableLE κ] : List κ → Bool
  | first :: second :: rest =>
      !decide (second ≤ first) && ascendsStrictly (second :: rest)
  | _ => true

end DegreeTwo
