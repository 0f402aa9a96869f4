import DegreeTwo.Affine.VectorUpdate
import DegreeTwo.Proofs.ArrayOperations
import DegreeTwo.Quadratic.Update

/-!
# Updates in place

Each update compares the lengths of its arguments, if there are any to compare, before it changes
its destination.  So a run goes on after a refused update as if the update had not been there.
-/

namespace DegreeTwo

open InPlace

variable {T : ScalarType}

/-! ## Affine functions -/

namespace AffineUpdate

theorem apply_eq (update : AffineUpdate T) (f : AffineFunction T) :
    update.apply f =
      match update with
      | .clear => pure f.clear
      | .set value => pure value
      | .overwrite source => pure (f.overwrite source)
      | .add operand => f.add operand
      | .sub operand => f.sub operand
      | .addScaled operand number => f.addScaled operand number
      | .setTo operand => f.setTo operand
      | .setSum x y => f.setSum x y
      | .setDifference x y => f.setDifference x y
      | .addProduct product => f.addProduct product
      | .setProduct product => f.setProduct product
      | .dot factors => f.dot factors
      | .dotTerms factors => f.dotTerms factors
      | .canonicalize => f.canonicalize
      | .prune tolerance => pure (f.prune tolerance)
      | .pruneZeros => pure f.pruneZeros
      | .setConstant constant => pure (f.setConstant constant)
      | .pushLinear term => pure (f.pushLinear term)
      | .truncateLinear len => pure (f.truncateLinear len)
      | .neg => f.neg
      | .scale number => f.scale number := by
  cases update with
  | clear | set | overwrite | prune | pruneZeros | setConstant | pushLinear | truncateLinear => rfl
  | dot | dotTerms => rfl
  | _ => exact outcome_change _ f

theorem settle_canonicalize (f : AffineFunction T) :
    settle f ((canonicalize : AffineUpdate T).apply f) = f.canonicalize := by
  rw [apply_eq, settle_lift]

/-- The lengths that an update compares, in order. -/
def checks : AffineUpdate T → List LengthCheck
  | .dot factors => [⟨.y, factors.leftLength, factors.rightLength⟩]
  | .dotTerms factors => [⟨.y, factors.length, factors.rightLength⟩]
  | _ => []

theorem checksFirst (update : AffineUpdate T) (f : AffineFunction T) :
    ChecksFirst update.checks update.perform f := by
  cases update with
  | dot factors => exact AffineFunction.writeDot_checksFirst factors f
  | dotTerms factors => exact AffineFunction.writeDotTerms_checksFirst factors f
  | clear | set | overwrite | prune | pruneZeros | setConstant | pushLinear | truncateLinear =>
      exact .of_neverRefuses (neverRefuses_modify _) f
  | _ => exact .of_neverRefuses (neverRefuses_change _) f

theorem leaves_eq (update : AffineUpdate T) (f : AffineFunction T) :
    update.perform.leaves f = settle f (update.apply f) :=
  leaves_eq_settle (atomic_of_checksFirst update.checksFirst) f

end AffineUpdate

theorem AffineFunction.run_eq (updates : List (AffineUpdate T)) (f : AffineFunction T) :
    f.run updates = runUpdates AffineUpdate.apply updates f :=
  performAll_eq_runUpdates (fun update => atomic_of_checksFirst update.checksFirst) updates f

/-! ## Quadratic functions -/

namespace QuadraticUpdate

theorem apply_eq (update : QuadraticUpdate T) (f : QuadraticFunction T) :
    update.apply f =
      match update with
      | .clear => pure f.clear
      | .set value => pure value
      | .overwrite source => pure (f.overwrite source)
      | .add operand => f.add operand
      | .sub operand => f.sub operand
      | .addScaled operand number => f.addScaled operand number
      | .setTo operand => f.setTo operand
      | .setSum x y => f.setSum x y
      | .setDifference x y => f.setDifference x y
      | .addProduct product => f.addProduct product
      | .setProduct product => f.setProduct product
      | .dot factors => f.dot factors
      | .bilinear matrix x y => f.setBilinear matrix x y
      | .canonicalize => f.canonicalize
      | .prune tolerance => pure (f.prune tolerance)
      | .pruneZeros => pure f.pruneZeros
      | .pushQuadratic term => pure (f.pushQuadratic term)
      | .truncateQuadratic len => pure (f.truncateQuadratic len)
      | .neg => f.neg
      | .scale number => f.scale number
      | .affine update => (do
          let affine ← update.apply f.affine
          pure { f with affine }) := by
  cases update with
  | clear | set | overwrite | prune | pruneZeros | pushQuadratic | truncateQuadratic => rfl
  | dot | bilinear => rfl
  | affine update => exact outcome_within QuadraticFunction.affinePart update.perform f
  | _ => exact outcome_change _ f

/-- An update of the affine part settles as it does on its own. -/
theorem settle_affine (update : AffineUpdate T) (f : QuadraticFunction T) :
    settle f (update.apply f.affine >>= fun affine => pure { f with affine }) =
      settle f.affine (update.apply f.affine) >>= fun affine => pure { f with affine } :=
  settle_bind f.affine (QuadraticFunction.mk f.quadratic) (update.apply f.affine)

theorem settle_canonicalize (f : QuadraticFunction T) :
    settle f ((canonicalize : QuadraticUpdate T).apply f) = f.canonicalize := by
  rw [apply_eq, settle_lift]

/-- The lengths that an update compares, in order. -/
def checks : QuadraticUpdate T → List LengthCheck
  | .dot factors => [⟨.y, factors.leftLength, factors.rightLength⟩]
  | .bilinear matrix x y => [⟨.x, matrix.value.rows, x.length⟩, ⟨.y, matrix.value.cols, y.length⟩]
  | .affine update => update.checks
  | _ => []

theorem checksFirst (update : QuadraticUpdate T) (f : QuadraticFunction T) :
    ChecksFirst update.checks update.perform f := by
  cases update with
  | dot factors => exact QuadraticFunction.writeDot_checksFirst factors f
  | bilinear matrix x y => exact QuadraticFunction.writeBilinear_checksFirst matrix x y f
  | affine update => exact .within QuadraticFunction.affinePart rfl (update.checksFirst f.affine)
  | clear | set | overwrite | prune | pruneZeros | pushQuadratic | truncateQuadratic =>
      exact .of_neverRefuses (neverRefuses_modify _) f
  | _ => exact .of_neverRefuses (neverRefuses_change _) f

end QuadraticUpdate

theorem QuadraticFunction.run_eq (updates : List (QuadraticUpdate T)) (f : QuadraticFunction T) :
    f.run updates = runUpdates QuadraticUpdate.apply updates f :=
  performAll_eq_runUpdates (fun update => atomic_of_checksFirst update.checksFirst) updates f

/-! ## Vectors -/

namespace VectorUpdate

theorem apply_eq (update : VectorUpdate T) (dest : AffineVector T) :
    update.apply dest =
      match update with
      | .set value => pure value
      | .zeros len => pure (List.replicate len .zero)
      | .setSum x y => dest.setSum x y
      | .setDifference x y => dest.setDifference x y
      | .matMul matrix column => dest.setMatrixProduct matrix column
      | .scale x number => dest.setMultiples x number
      | .multiplesOf numbers operand => dest.setMultiplesOf numbers operand
      | .concat sources => dest.setConcatenation sources
      | .element i update => (do
          let function ← entry dest i
          let updated ← update.apply function
          pure (dest.set i updated)) := by
  cases update with
  | set | zeros | setSum | setDifference | matMul | concat => rfl
  | scale | multiplesOf => exact outcome_change _ dest
  | element i update => exact outcome_within (.element i) update.perform dest

/-- The lengths that an update compares, in order. -/
def checks (dest : AffineVector T) : VectorUpdate T → List LengthCheck
  | .setSum x y => [⟨.y, x.length, y.length⟩]
  | .setDifference x y => [⟨.y, x.length, y.length⟩]
  | .matMul matrix column =>
      [⟨.y, matrix.value.rows, dest.length⟩, ⟨.x, matrix.value.cols, column.length⟩]
  | .concat sources => [⟨.sources, dest.length, sources.flatten.length⟩]
  | .element i update => if i < dest.length then update.checks else []
  | _ => []

theorem checksFirst (update : VectorUpdate T) (dest : AffineVector T) :
    ChecksFirst (update.checks dest) update.perform dest := by
  cases update with
  | setSum x y => exact AffineVector.writePairs_checksFirst _ x y dest
  | setDifference x y => exact AffineVector.writePairs_checksFirst _ x y dest
  | matMul matrix column => exact AffineVector.writeMatrixProduct_checksFirst matrix column dest
  | concat sources => exact AffineVector.writeConcatenation_checksFirst sources dest
  | element i update =>
      rw [checks]
      split
      · next inside =>
          have reads : (Part.element i).read dest = .ok dest[i] := entry_eq_ok inside
          exact .within (.element i) reads (update.checksFirst dest[i])
      · next outside =>
          have missing : (Part.element i).read dest = .error (.indexOutOfRange i dest.length) :=
            entry_eq_error (Nat.not_lt.mp outside)
          exact .within_missing (.element i) update.perform missing
  | set | zeros => exact .of_neverRefuses (neverRefuses_modify _) dest
  | scale | multiplesOf => exact .of_neverRefuses (neverRefuses_change _) dest

end VectorUpdate

theorem AffineVector.run_eq (updates : List (VectorUpdate T)) (dest : AffineVector T) :
    AffineVector.run updates dest = runUpdates VectorUpdate.apply updates dest :=
  performAll_eq_runUpdates (fun update => atomic_of_checksFirst update.checksFirst) updates dest

end DegreeTwo
