import DegreeTwo.Affine.Vector
import DegreeTwo.Proofs.LengthChecks
import DegreeTwo.Proofs.Shapes
import DegreeTwo.Proofs.Watch
import DegreeTwo.Quadratic.Bilinear

/-!
# Array operations

Every operation on lists and matrices compares the lengths of its arguments before it changes
anything, so that its refusals are exact and leave the destination as it was.  What it computes is
its checks, followed by the new contents of the destination.
-/

namespace DegreeTwo

open InPlace

variable {T : ScalarType}

/-! ## Sums of products -/

namespace AffineFunction

theorem writeDot_checksFirst (factors : AffineFactors T) (dest : AffineFunction T) :
    ChecksFirst [⟨.y, factors.leftLength, factors.rightLength⟩] (writeDot factors) dest := by
  rw [writeDot, factors.checkLengths_eq]
  apply ChecksFirst.check ⟨.y, _, _⟩
  exact .of_neverRefuses ((neverRefuses_modify _).bind (neverRefuses_change _)) dest

theorem dot_eq_checked (dest : AffineFunction T) (factors : AffineFactors T) :
    dest.dot factors = (do
      checkLength .y factors.leftLength factors.rightLength
      zero.addProducts factors.products) := by
  simp [dot, writeDot, factors.checkLengths_eq]
  rfl

theorem writeDotTerms_checksFirst (factors : TermFactors T) (dest : AffineFunction T) :
    ChecksFirst [⟨.y, factors.length, factors.rightLength⟩] (writeDotTerms factors) dest := by
  rw [writeDotTerms, factors.checkLengths_eq]
  apply ChecksFirst.check ⟨.y, _, _⟩
  exact .of_neverRefuses
    ((neverRefuses_modify _).bind ((neverRefuses_change _).bind (neverRefuses_modify _))) dest

theorem dotTerms_eq_checked (dest : AffineFunction T) (factors : TermFactors T) :
    dest.dotTerms factors = (do
      checkLength .y factors.length factors.rightLength
      let terms ← factors.terms
      pure (dest.storeLinear factors.length terms .zero)) := by
  simp [dotTerms, writeDotTerms, factors.checkLengths_eq]
  cases factors.terms <;> rfl

end AffineFunction

namespace QuadraticFunction

theorem writeDot_checksFirst (factors : QuadraticFactors T) (dest : QuadraticFunction T) :
    ChecksFirst [⟨.y, factors.leftLength, factors.rightLength⟩] (writeDot factors) dest := by
  rw [writeDot, factors.checkLengths_eq]
  apply ChecksFirst.check ⟨.y, _, _⟩
  exact .of_neverRefuses ((neverRefuses_modify _).bind (neverRefuses_change _)) dest

theorem dot_eq_checked (dest : QuadraticFunction T) (factors : QuadraticFactors T) :
    dest.dot factors = (do
      checkLength .y factors.leftLength factors.rightLength
      zero.addProducts factors.products) := by
  simp [dot, writeDot, factors.checkLengths_eq]
  rfl

theorem writeBilinear_checksFirst (matrix : Below ScalarMatrix T) (x y : List Variable)
    (dest : QuadraticFunction T) :
    ChecksFirst [⟨.x, matrix.value.rows, x.length⟩, ⟨.y, matrix.value.cols, y.length⟩]
      (writeBilinear matrix x y) dest := by
  apply ChecksFirst.check ⟨.x, _, _⟩
  apply ChecksFirst.check ⟨.y, _, _⟩
  exact .of_neverRefuses
    ((neverRefuses_modify _).bind ((neverRefuses_modify _).bind (neverRefuses_change _))) dest

theorem setBilinear_eq_checked (dest : QuadraticFunction T) (matrix : Below ScalarMatrix T)
    (x y : List Variable) :
    dest.setBilinear matrix x y = (do
      checkLength .x matrix.value.rows x.length
      checkLength .y matrix.value.cols y.length
      let terms ← matrix.value.elements.zipIdx.mapM fun element =>
        bilinearTerm matrix.value.cols x y (element.1.widen matrix.source_le) element.2
      pure (dest.storeQuadratic matrix.value.elements.length terms .zero)) := by
  simp only [setBilinear, writeBilinear, outcome_bind, outcome_check, outcome_modify,
    outcome_change, bind_assoc, pure_bind, mapM_lift, lift_bind_pure]
  rfl

end QuadraticFunction

/-! ## Vectors -/

namespace AffineVector

theorem writePairs_checksFirst (update : AffineFunction T → AffineOperand T → AffineOperand T →
    Except Fault (AffineFunction T)) (x y : List (AffineOperand T)) (dest : AffineVector T) :
    ChecksFirst [⟨.y, x.length, y.length⟩] (writePairs update x y) dest := by
  apply ChecksFirst.check ⟨.y, _, _⟩
  exact .of_neverRefuses ((neverRefuses_modify _).bind (neverRefuses_change _)) dest

theorem outcome_writePairs (update : AffineFunction T → AffineOperand T → AffineOperand T →
    Except Fault (AffineFunction T)) (x y : List (AffineOperand T)) (dest : AffineVector T) :
    (writePairs update x y).outcome dest = (do
      checkLength .y x.length y.length
      zipUpdate update (resize dest x.length) x y) := by
  simp [writePairs]

theorem writeMatrixProduct_checksFirst (matrix : Below ScalarMatrix T) (column : Column T)
    (dest : AffineVector T) :
    ChecksFirst [⟨.y, matrix.value.rows, dest.length⟩, ⟨.x, matrix.value.cols, column.length⟩]
      (writeMatrixProduct matrix column) dest := by
  apply ChecksFirst.get
  apply ChecksFirst.check ⟨.y, _, _⟩
  apply ChecksFirst.check ⟨.x, _, _⟩
  exact .of_neverRefuses (neverRefuses_change _) dest

theorem setMatrixProduct_eq_checked (dest : AffineVector T) (matrix : Below ScalarMatrix T)
    (column : Column T) :
    dest.setMatrixProduct matrix column = (do
      checkLength .y matrix.value.rows dest.length
      checkLength .x matrix.value.cols column.length
      let rows ← matrix.value.rowList
      mapUpdate
        (fun element row => element.setRowProduct (row.map (Scalar.widen matrix.source_le)) column)
        dest rows) := by
  simp [setMatrixProduct, writeMatrixProduct]
  cases matrix.value.rowList <;> rfl

theorem writeConcatenation_checksFirst (sources : List (List (Below AffineFunction T)))
    (dest : AffineVector T) :
    ChecksFirst [⟨.sources, dest.length, sources.flatten.length⟩] (writeConcatenation sources)
      dest := by
  simp only [writeConcatenation, totalLength_trivial, lift_ok, ok_bind]
  apply ChecksFirst.get
  apply ChecksFirst.check ⟨.sources, _, _⟩
  exact .of_neverRefuses (neverRefuses_change _) dest

theorem setConcatenation_eq_checked (dest : AffineVector T)
    (sources : List (List (Below AffineFunction T))) :
    dest.setConcatenation sources = (do
      checkLength .sources dest.length sources.flatten.length
      mapUpdate (fun element source => pure (element.overwrite source)) dest sources.flatten) := by
  simp [setConcatenation, writeConcatenation, totalLength_trivial, lift_ok, ok_bind]

end AffineVector

end DegreeTwo
