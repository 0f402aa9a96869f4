import DegreeTwo.Proofs.Run
import DegreeTwo.Proofs.Shapes
import DegreeTwo.Proofs.Updates
import DegreeTwo.Proofs.Value.Bilinear
import DegreeTwo.Proofs.Value.Canonical
import DegreeTwo.Proofs.Value.Quadratic

/-!
# Runs as computations with polynomials

Most updates compute a function of the value before them: whatever the terms are by which the state
is represented, its value after the update is determined by its value before.  So a run of updates
that does not overflow computes with exact polynomials.
-/

namespace DegreeTwo

variable {T : ScalarType} {width : IntWidth}

/-- What an update makes of the value at a point.  Nothing is said of updates that look at single
terms or at the constant, and refused updates keep the value. -/
def AffineUpdate.meaning (update : AffineUpdate T) (point : Variable → Int) : Option (Int → Int) :=
  match update with
  | .clear => some fun _ => 0
  | .set f => some fun _ => f.value point
  | .overwrite f => some fun _ => f.value.value point
  | .add x => some fun s => s + x.value point
  | .sub x => some fun s => s - x.value point
  | .addScaled x c => some fun s => s + c.toInt * x.value point
  | .setTo x => some fun _ => x.value point
  | .setSum x y => some fun _ => x.value point + y.value point
  | .setDifference x y => some fun _ => x.value point - y.value point
  | .addProduct xy => some fun s => s + xy.value point
  | .setProduct xy => some fun _ => xy.value point
  | .dot xy => some fun s => if xy.leftLength = xy.rightLength then xy.value point else s
  | .dotTerms xy => some fun s => if xy.length = xy.rightLength then xy.value point else s
  | .canonicalize => some fun s => s
  | .prune _ => none
  | .pruneZeros => some fun s => s
  | .setConstant _ => none
  | .pushLinear term => some fun s => s + term.value point
  | .truncateLinear _ => none
  | .neg => some fun s => -s
  | .scale c => some fun s => s * c.toInt

/-- What an update makes of the value at a point.  Nothing is said of updates that look at single
terms or at the affine part alone, and refused updates keep the value. -/
def QuadraticUpdate.meaning (update : QuadraticUpdate T) (point : Variable → Int) :
    Option (Int → Int) :=
  match update with
  | .clear => some fun _ => 0
  | .set f => some fun _ => f.value point
  | .overwrite f => some fun _ => f.value.value point
  | .add x => some fun s => s + x.value point
  | .sub x => some fun s => s - x.value point
  | .addScaled x c => some fun s => s + c.toInt * x.value point
  | .setTo x => some fun _ => x.value point
  | .setSum x y => some fun _ => x.value point + y.value point
  | .setDifference x y => some fun _ => x.value point - y.value point
  | .addProduct xy => some fun s => s + xy.value point
  | .setProduct xy => some fun _ => xy.value point
  | .dot xy => some fun s => if xy.leftLength = xy.rightLength then xy.value point else s
  | .bilinear matrix x y => some fun s =>
      if h : matrix.value.rows = x.length ∧ matrix.value.cols = y.length then
        bilinearValue point matrix.value x y h.1 h.2
      else s
  | .canonicalize => some fun s => s
  | .prune _ => none
  | .pruneZeros => some fun s => s
  | .pushQuadratic term => some fun s => s + term.value point
  | .truncateQuadratic _ => none
  | .neg => some fun s => -s
  | .scale c => some fun s => s * c.toInt
  | .affine _ => none

/-! ## Sums of products and bilinear forms -/

theorem AffineFunction.dot_yields (dest : AffineFunction (.integer width))
    (factors : AffineFactors (.integer width)) :
    Yields (settle dest (dest.dot factors)) fun after => ∀ point,
      after.value point =
        if factors.leftLength = factors.rightLength then factors.value point
        else dest.value point := by
  rw [dot_eq_checked, settle_checkLength]
  split
  · rw [settle_lift]
    exact dest.sumProducts_yields factors
  · exact .ok fun point => rfl

theorem AffineFunction.dotTerms_yields (dest : AffineFunction (.integer width))
    (factors : TermFactors (.integer width)) :
    Yields (settle dest (dest.dotTerms factors)) fun after => ∀ point,
      after.value point =
        if factors.length = factors.rightLength then factors.value point else dest.value point := by
  rw [dotTerms_eq, settle_checkLength]
  split
  · rw [settle_lift_bind]
    apply factors.terms_yields.bind
    intro terms sum
    refine .pure fun point => ?_
    rw [value, sum, Scalar.toInt_zero, Int.add_zero]
  · exact .ok fun point => rfl

theorem QuadraticFunction.dot_yields (dest : QuadraticFunction (.integer width))
    (factors : QuadraticFactors (.integer width)) :
    Yields (settle dest (dest.dot factors)) fun after => ∀ point,
      after.value point =
        if factors.leftLength = factors.rightLength then factors.value point
        else dest.value point := by
  rw [dot_eq_checked, settle_checkLength]
  split
  · rw [settle_lift]
    exact dest.sumProducts_yields factors
  · exact .ok fun point => rfl

theorem QuadraticFunction.setBilinear_yields (dest : QuadraticFunction (.integer width))
    (matrix : Below ScalarMatrix (.integer width)) (x y : List Variable) :
    Yields (settle dest (dest.setBilinear matrix x y)) fun after => ∀ point,
      after.value point =
        if h : matrix.value.rows = x.length ∧ matrix.value.cols = y.length then
          bilinearValue point matrix.value x y h.1 h.2
        else dest.value point := by
  by_cases rows_eq : matrix.value.rows = x.length
  · by_cases cols_eq : matrix.value.cols = y.length
    · rw [dest.setBilinear_eq_ok rows_eq cols_eq]
      refine .ok fun point => ?_
      rw [value, matrix.sum_bilinearTerms, dif_pos ⟨rows_eq, cols_eq⟩]
      exact Int.add_zero _
    · rw [setBilinear_eq, settle_checkLength, if_pos rows_eq, settle_checkLength, if_neg cols_eq]
      exact .ok fun point => by rw [dif_neg fun shape => cols_eq shape.2]
  · rw [setBilinear_eq, settle_checkLength, if_neg rows_eq]
    exact .ok fun point => by rw [dif_neg fun shape => rows_eq shape.1]

/-! ## Steps and runs -/

section Respects

variable {σ : Type}

/-- The value after an update is what the update makes of the value before. -/
def Respects (value : (Variable → Int) → σ → Int)
    (meaning : (Variable → Int) → Option (Int → Int)) (before after : σ) : Prop :=
  ∀ point operation, meaning point = some operation →
    value point after = operation (value point before)

variable {value : (Variable → Int) → σ → Int} {meaning : (Variable → Int) → Option (Int → Int)}
variable {computation : Except Fault σ} {before : σ} {operation : (Variable → Int) → Int → Int}

theorem yields_respects (means : ∀ point, meaning point = some (operation point))
    (yields : Yields computation fun after =>
      ∀ point, value point after = operation point (value point before)) :
    Yields computation (Respects value meaning before) := by
  apply yields.imp
  intro after value_eq point meant same
  rw [means, Option.some_inj] at same
  rw [value_eq, same]

/-- The same for an update that cannot be refused. -/
theorem lift_respects (means : ∀ point, meaning point = some (operation point))
    (yields : Yields computation fun after =>
      ∀ point, value point after = operation point (value point before)) :
    Yields (settle before (liftM computation)) (Respects value meaning before) := by
  rw [settle_lift]
  exact yields_respects means yields

end Respects

/-- Every update respects its meaning, or overflows. -/
theorem AffineUpdate.step_respects (update : AffineUpdate (.integer width))
    (f : AffineFunction (.integer width)) :
    Yields (settle f (update.apply f)) (Respects AffineFunction.value update.meaning f) := by
  rw [AffineUpdate.apply_eq]
  cases update with
  | clear => exact yields_respects (fun _ => rfl) (.pure fun point => f.value_clear point)
  | set value => exact yields_respects (fun _ => rfl) (.pure fun _ => rfl)
  | overwrite source =>
      exact yields_respects (fun _ => rfl) (.pure fun point => f.value_overwrite point source)
  | add x => exact lift_respects (fun _ => rfl) (f.add_yields x)
  | sub x => exact lift_respects (fun _ => rfl) (f.sub_yields x)
  | addScaled x scale => exact lift_respects (fun _ => rfl) (f.addScaled_yields x scale)
  | setTo x => exact lift_respects (fun _ => rfl) (f.setTo_yields x)
  | setSum x y => exact lift_respects (fun _ => rfl) (f.setSum_yields x y)
  | setDifference x y => exact lift_respects (fun _ => rfl) (f.setDifference_yields x y)
  | addProduct xy => exact lift_respects (fun _ => rfl) (f.addProduct_yields xy)
  | setProduct xy => exact lift_respects (fun _ => rfl) (f.setProduct_yields xy)
  | dot xy => exact yields_respects (fun _ => rfl) (f.dot_yields xy)
  | dotTerms xy => exact yields_respects (fun _ => rfl) (f.dotTerms_yields xy)
  | canonicalize => exact lift_respects (fun _ => rfl) f.canonicalize_yields
  | prune tolerance => exact .pure fun _ _ unknown => nomatch unknown
  | pruneZeros =>
      exact yields_respects (fun _ => rfl) (.pure fun point => f.value_pruneZeros point)
  | setConstant constant => exact .pure fun _ _ unknown => nomatch unknown
  | pushLinear term =>
      exact yields_respects (fun _ => rfl) (.pure fun point => f.value_pushLinear point term)
  | truncateLinear len => exact .pure fun _ _ unknown => nomatch unknown
  | neg => exact lift_respects (fun _ => rfl) f.neg_yields
  | scale number => exact lift_respects (fun _ => rfl) (f.scale_yields number)

/-- Every update respects its meaning, or overflows. -/
theorem QuadraticUpdate.step_respects (update : QuadraticUpdate (.integer width))
    (f : QuadraticFunction (.integer width)) :
    Yields (settle f (update.apply f)) (Respects QuadraticFunction.value update.meaning f) := by
  rw [QuadraticUpdate.apply_eq]
  cases update with
  | clear => exact yields_respects (fun _ => rfl) (.pure fun point => f.value_clear point)
  | set value => exact yields_respects (fun _ => rfl) (.pure fun _ => rfl)
  | overwrite source =>
      exact yields_respects (fun _ => rfl) (.pure fun point => f.value_overwrite point source)
  | add x => exact lift_respects (fun _ => rfl) (f.add_yields x)
  | sub x => exact lift_respects (fun _ => rfl) (f.sub_yields x)
  | addScaled x scale => exact lift_respects (fun _ => rfl) (f.addScaled_yields x scale)
  | setTo x => exact lift_respects (fun _ => rfl) (f.setTo_yields x)
  | setSum x y => exact lift_respects (fun _ => rfl) (f.setSum_yields x y)
  | setDifference x y => exact lift_respects (fun _ => rfl) (f.setDifference_yields x y)
  | addProduct xy => exact lift_respects (fun _ => rfl) (f.addProduct_yields xy)
  | setProduct xy => exact lift_respects (fun _ => rfl) (f.setProduct_yields xy)
  | dot xy => exact yields_respects (fun _ => rfl) (f.dot_yields xy)
  | bilinear matrix x y => exact yields_respects (fun _ => rfl) (f.setBilinear_yields matrix x y)
  | canonicalize => exact lift_respects (fun _ => rfl) f.canonicalize_yields
  | prune tolerance => exact .pure fun _ _ unknown => nomatch unknown
  | pruneZeros =>
      exact yields_respects (fun _ => rfl) (.pure fun point => f.value_pruneZeros point)
  | pushQuadratic term =>
      exact yields_respects (fun _ => rfl) (.pure fun point => f.value_pushQuadratic point term)
  | truncateQuadratic len => exact .pure fun _ _ unknown => nomatch unknown
  | neg => exact lift_respects (fun _ => rfl) f.neg_yields
  | scale number => exact lift_respects (fun _ => rfl) (f.scale_yields number)
  | affine update =>
      rw [settle_affine]
      exact (update.step_respects f.affine).bind fun _ _ => .pure fun _ _ unknown => nomatch unknown

/-- At every step of a run that does not overflow, the value of the state at every point becomes
what the update makes of it. -/
theorem run_computes_polynomials (width : IntWidth) :
    (∀ (start : AffineFunction (.integer width)) (updates : List (AffineUpdate (.integer width))),
      (∀ operation, start.run updates ≠ .error (.overflow operation)) →
      ∀ front update back, updates = front ++ update :: back →
        ∃ before after, start.run front = .ok before ∧ start.run (front ++ [update]) = .ok after ∧
          ∀ point operation, update.meaning point = some operation →
            after.value point = operation (before.value point)) ∧
    (∀ (start : QuadraticFunction (.integer width))
      (updates : List (QuadraticUpdate (.integer width))),
      (∀ operation, start.run updates ≠ .error (.overflow operation)) →
      ∀ front update back, updates = front ++ update :: back →
        ∃ before after, start.run front = .ok before ∧ start.run (front ++ [update]) = .ok after ∧
          ∀ point operation, update.meaning point = some operation →
            after.value point = operation (before.value point)) := by
  constructor
  · intro start updates no_overflow front update back split
    simp only [AffineFunction.run_eq] at no_overflow ⊢
    exact exists_step_of_run AffineUpdate.step_respects no_overflow split
  · intro start updates no_overflow front update back split
    simp only [QuadraticFunction.run_eq] at no_overflow ⊢
    exact exists_step_of_run QuadraticUpdate.step_respects no_overflow split

/-- A run that subtracts a variable and adds a number. -/
def shiftRun : List (AffineUpdate (.integer .bits8)) :=
  [.sub (.factor (.var ⟨1⟩)), .add (.number (.same .one))]

/-- A run that multiplies two affine functions, subtracts a variable and drops zeros. -/
def productRun : List (QuadraticUpdate (.integer .bits8)) :=
  [.addProduct (.factorTimes (.function (.same ⟨[⟨.one, ⟨1⟩⟩], .one⟩))
      (.factor (.function (.same ⟨[⟨.one, ⟨2⟩⟩], .minusOne⟩)))),
    .sub (.affine (.factor (.var ⟨1⟩))), .pruneZeros]

theorem shiftRun_no_overflow (operation : Operation) :
    AffineFunction.zero.run shiftRun ≠ .error (.overflow operation) := by
  intro overflow
  cases overflow

theorem productRun_no_overflow (operation : Operation) :
    QuadraticFunction.zero.run productRun ≠ .error (.overflow operation) := by
  intro overflow
  cases overflow

theorem run_computes_polynomials_product :
    (∃ before after, AffineFunction.zero.run (shiftRun.take 1) = .ok before ∧
      AffineFunction.zero.run (shiftRun.take 2) = .ok after ∧
      ∀ point, after.value point = before.value point + 1) ∧
    ∃ before after, QuadraticFunction.zero.run (productRun.take 1) = .ok before ∧
      QuadraticFunction.zero.run (productRun.take 2) = .ok after ∧
      ∀ point, after.value point = before.value point - point ⟨1⟩ := by
  constructor
  · obtain ⟨before, after, run_before, run_after, value_eq⟩ :=
      (run_computes_polynomials .bits8).1 .zero shiftRun shiftRun_no_overflow (shiftRun.take 1)
        (.add (.number (.same .one))) [] rfl
    exact ⟨before, after, run_before, run_after, fun point => value_eq point _ rfl⟩
  · obtain ⟨before, after, run_before, run_after, value_eq⟩ :=
      (run_computes_polynomials .bits8).2 .zero productRun productRun_no_overflow
        (productRun.take 1) (.sub (.affine (.factor (.var ⟨1⟩)))) [.pruneZeros] rfl
    exact ⟨before, after, run_before, run_after, fun point => value_eq point _ rfl⟩

end DegreeTwo
