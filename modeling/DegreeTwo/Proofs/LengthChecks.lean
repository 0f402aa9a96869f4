import DegreeTwo.Proofs.InPlace

/-!
# Checks before changes

An operation on several arguments compares their lengths first, in a fixed order, and changes its
destination only then.  So it is refused exactly if one of the comparisons fails, its answer names
the first that does, and its destination is as before.
-/

namespace DegreeTwo

variable {σ τ : Type}

/-- The length that an argument should have, and the one that it has. -/
structure LengthCheck where
  /-- The argument that is looked at. -/
  argument : Argument
  /-- The length that it should have. -/
  expected : Nat
  /-- The length that it has. -/
  actual : Nat

namespace LengthCheck

/-- Refuse a wrong length. -/
def run (check : LengthCheck) : Except Failure Unit :=
  checkLength check.argument check.expected check.actual

/-- The answer of the first check that fails, if one does. -/
def firstMismatch? : List LengthCheck → Option Error
  | [] => none
  | check :: checks =>
      if check.expected = check.actual then firstMismatch? checks
      else some (.wrongLength check.argument check.expected check.actual)

end LengthCheck

open LengthCheck

namespace InPlace

variable {operation first second : InPlace σ Unit}

/-! ## Operations without checks -/

/-- The operation cannot be refused. -/
def NeverRefuses (operation : InPlace σ Unit) : Prop :=
  ∀ (dest after : σ) (error : Error), operation.answer dest ≠ .ok (.error error, after)

theorem neverRefuses_modify (update : σ → σ) : NeverRefuses (modify update : InPlace σ Unit) :=
  fun _ _ _ answered => nomatch answered

theorem neverRefuses_change (step : σ → Except Fault σ) : NeverRefuses (change step) := by
  intro dest after error answered
  rw [answer_change] at answered
  obtain ⟨_, -, answered⟩ := bind_eq_ok.mp answered
  cases answered

theorem NeverRefuses.bind (never : NeverRefuses first) (never_after : NeverRefuses second) :
    NeverRefuses (first >>= fun _ => second) := by
  intro dest after error answered
  rw [answer_bind] at answered
  obtain ⟨⟨_ | _, between⟩, first_answered, answered⟩ := bind_eq_ok.mp answered
  · cases answered
    exact never dest after error first_answered
  · exact never_after between after error answered

/-! ## Operations that check first -/

/-- The operation compares lengths before it changes its destination: it is refused exactly if a
comparison fails, its answer names the first that does, and the destination is as before. -/
structure ChecksFirst (checks : List LengthCheck) (operation : InPlace σ Unit) (dest : σ) :
    Prop where
  /-- When the operation is refused, and what it leaves then. -/
  refused_iff {after : σ} {error : Error} :
    operation.answer dest = .ok (.error error, after) ↔
      firstMismatch? checks = some error ∧ after = dest

namespace ChecksFirst

variable {checks : List LengthCheck} {dest : σ}

theorem of_neverRefuses (never : NeverRefuses operation) (dest : σ) :
    ChecksFirst [] operation dest where
  refused_iff :=
    ⟨fun answered => absurd answered (never dest _ _), fun mismatch => nomatch mismatch.1⟩

/-- A check in front of an operation comes before the checks of the operation. -/
theorem check (check : LengthCheck) (checked : ChecksFirst checks operation dest) :
    ChecksFirst (check :: checks) (InPlace.check check.run >>= fun _ => operation) dest where
  refused_iff {after error} := by
    rw [answer_bind, answer_check, LengthCheck.run, checkLength, firstMismatch?]
    by_cases agree : check.expected = check.actual
    · rw [if_pos agree, if_pos agree]
      exact checked.refused_iff
    · rw [if_neg agree, if_neg agree]
      constructor
      · rintro ⟨⟩
        exact ⟨rfl, rfl⟩
      · rintro ⟨⟨⟩, rfl⟩
        rfl

/-- The checks may be on the destination itself. -/
theorem get {next : σ → InPlace σ Unit} (checked : ChecksFirst checks (next dest) dest) :
    ChecksFirst checks (MonadState.get >>= next) dest where
  refused_iff := checked.refused_iff

/-- An operation within a part is refused as it is on the part. -/
theorem within (part : Part σ τ) {operation : InPlace τ Unit} {whole : σ} {value : τ}
    (reads : part.read whole = .ok value) (checked : ChecksFirst checks operation value) :
    ChecksFirst checks (InPlace.within part operation) whole where
  refused_iff {after error} := by
    rw [answer_within, reads, ok_bind, bind_eq_ok]
    constructor
    · rintro ⟨⟨answer, left⟩, answered, written⟩
      cases written
      obtain ⟨mismatch, rfl⟩ := checked.refused_iff.mp answered
      exact ⟨mismatch, part.write_read reads⟩
    · rintro ⟨mismatch, rfl⟩
      refine ⟨(.error error, value), checked.refused_iff.mpr ⟨mismatch, rfl⟩, ?_⟩
      exact congrArg (fun whole => Except.ok (Except.error error, whole)) (part.write_read reads)

/-- Where there is no such part, an operation within it is not refused. -/
theorem within_missing (part : Part σ τ) (operation : InPlace τ Unit) {whole : σ} {fault : Fault}
    (missing : part.read whole = .error fault) :
    ChecksFirst [] (InPlace.within part operation) whole where
  refused_iff := by
    rw [answer_within, missing, error_bind]
    exact ⟨nofun, nofun⟩

end ChecksFirst

/-- An operation that checks first is atomic. -/
theorem atomic_of_checksFirst {checks : σ → List LengthCheck}
    (checked : ∀ dest, ChecksFirst (checks dest) operation dest) : Atomic operation :=
  fun dest _ _ answered => ((checked dest).refused_iff.mp answered).2

end InPlace

end DegreeTwo
