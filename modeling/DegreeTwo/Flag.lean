/-!
# Switches

A switch is set by a text that says yes.  The accepted texts are listed; no other spelling counts,
and a switch without a text is not set.
-/

namespace DegreeTwo

/-- The texts that set a switch. -/
def affirmations : List String := ["1", "on", "ON", "true", "TRUE", "yes", "YES"]

/-- Whether a switch with the given text is set. -/
def isFlagSet : Option String → Bool
  | some text => affirmations.contains text
  | none => false

end DegreeTwo
