import DegreeTwo.Failure
import DegreeTwo.Index

/-!
# Working in place

An operation works in the memory of its destination and changes it step by step.  What it has
changed stays changed when it is refused later on, so a refusal leaves the destination as it was
only if no change stands before the check that refuses.  A fault leaves nothing to go on with.
-/

namespace DegreeTwo

variable {σ τ α : Type}

/-- Computations in the memory of a destination. -/
abbrev InPlace (σ : Type) : Type → Type := ExceptT Error (StateT σ (Except Fault))

/-- A part of a destination that can be read and replaced. -/
structure Part (σ τ : Type) where
  /-- The part of a destination; it breaks off where there is none. -/
  read : σ → Except Fault τ
  /-- Replace the part. -/
  write : σ → τ → σ
  /-- Replacing the part by itself changes nothing. -/
  write_read {whole : σ} {part : τ} (reads : read whole = .ok part) : write whole part = whole

namespace InPlace

/-- What an operation answers, together with the destination as it then is. -/
def answer (operation : InPlace σ α) (dest : σ) : Except Fault (Except Error α × σ) :=
  (ExceptT.run operation).run dest

/-- The destination after an operation that is not refused. -/
def outcome (operation : InPlace σ Unit) (dest : σ) : Except Failure σ := do
  let (answer, after) ← operation.answer dest
  match answer with
  | .ok () => pure after
  | .error error => refuse error

/-- The destination as an operation leaves it, be it refused or not. -/
def leaves (operation : InPlace σ Unit) (dest : σ) : Except Fault σ := do
  let (_, after) ← operation.answer dest
  pure after

/-- A test that does not look at the destination. -/
def check : Except Failure Unit → InPlace σ Unit
  | .ok () => pure ()
  | .error (.refused error) => throw error
  | .error (.faulted fault) => throwThe Fault fault

/-- A change of the destination that cannot be refused. -/
def change (step : σ → Except Fault σ) : InPlace σ Unit := do
  let dest ← get
  let after ← step dest
  set after

/-- Work in a part of the destination; the rest of it stays as it is. -/
def within (part : Part σ τ) (operation : InPlace τ α) : InPlace σ α := fun whole => do
  let value ← part.read whole
  let (answer, after) ← operation.answer value
  pure (answer, part.write whole after)

end InPlace

/-- The element of a list at a position; there is none beyond the end. -/
def Part.element (i : Nat) : Part (List α) α where
  read values := entry values i
  write values value := values.set i value
  write_read {values value} reads := by
    rw [entry] at reads
    cases found : values[i]? with
    | none => rw [found] at reads; cases reads
    | some other =>
        rw [found] at reads
        cases reads
        obtain ⟨inside, rfl⟩ := List.getElem?_eq_some_iff.mp found
        exact List.set_getElem_self inside

end DegreeTwo
