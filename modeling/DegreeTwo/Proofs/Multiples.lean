import DegreeTwo.Proofs.NumberProducts
import DegreeTwo.Proofs.Overwriting

/-!
# Multiples

A multiple can be asked for in many ways: as a number times an operand or as an operand times a
number, with the multiplication operator, as a multiple that is added to the zero function, and as
an operation on lists and matrices of one element.  They run through different code, and yet they
all end with the same function or break off with the same fault.
-/

namespace DegreeTwo

variable {T : ScalarType} {width : IntWidth}

/-! ## Either side of a product -/

/-- An operand times a number. -/
def QuadraticOperand.timesNumber (operand : QuadraticOperand T) (number : Below Scalar T) :
    QuadraticProduct T :=
  match operand with
  | .affine (.number left) => .numberTimes left (.affine (.number number))
  | .affine (.factor left) => .factorTimes left (.number number)
  | .term left => .termTimes left number
  | .function left => .functionTimes left number

/-- Number of quadratic terms of an operand. -/
def QuadraticOperand.quadraticLength : QuadraticOperand T → Nat
  | .affine _ => 0
  | .term _ => 1
  | .function x => x.value.quadratic.length

/-- Number of linear terms of an operand. -/
def QuadraticOperand.linearLength : QuadraticOperand T → Nat
  | .affine x => x.terms.length
  | .term _ => 0
  | .function x => x.value.affine.linear.length

/-- The terms of a function and those of an operand together make lists whose lengths are machine
words. -/
structure QuadraticFunction.HasRoomFor (dest : QuadraticFunction T) (x : QuadraticOperand T) :
    Prop where
  /-- The quadratic terms have room. -/
  quadratic : dest.quadratic.length + x.quadraticLength < Index.limit
  /-- The linear terms have room. -/
  linear : dest.affine.linear.length + x.linearLength < Index.limit

theorem AffineFunction.addScaledNumber_comm (dest : AffineFunction (.integer width))
    (left right : Below Scalar (.integer width)) :
    dest.addScaledNumber left right.scalar = dest.addScaledNumber right left.scalar := by
  rw [addScaledNumber, addScaledNumber, Scalar.mul_comm]

/-- An operand may stand on either side of the number that it is multiplied by. -/
theorem AffineFunction.addProduct_timesNumber (dest : AffineFunction (.integer width))
    (x : AffineOperand (.integer width)) (number : Below Scalar (.integer width)) :
    dest.addProduct (x.timesNumber number) = dest.addProduct (.numberTimes number x) := by
  cases x with
  | number x => exact dest.addScaledNumber_comm number x
  | factor x => rfl

/-- An operand may stand on either side of the number that it is multiplied by. -/
theorem QuadraticFunction.addProduct_timesNumber {dest : QuadraticFunction (.integer width)}
    {x : QuadraticOperand (.integer width)} (number : Below Scalar (.integer width))
    (room : dest.HasRoomFor x) :
    dest.addProduct (x.timesNumber number) = dest.addProduct (.numberTimes number x) := by
  cases x with
  | affine x =>
      cases x with
      | number x =>
          simp only [QuadraticOperand.timesNumber, addProduct, addScaled, AffineFunction.addScaled,
            dest.affine.addScaledNumber_comm number x]
      | factor x =>
          -- Only here the two sides differ: the factor is written as one of two.
          have dest_fits : dest.quadratic.length < Index.limit := room.quadratic
          exact (addFactorProduct_number number dest_fits room.linear).trans
            (map_eq_pure_bind _ _)
  | term x => rfl
  | function x => rfl

/-! ## Multiples of functions over the type of the destination -/

namespace AffineFunction

/-- Adding a multiple appends its terms and adds its constant. -/
theorem addScaledFactor_same {dest f : AffineFunction (.integer width)}
    (number : Scalar (.integer width))
    (fits : dest.linear.length + f.linear.length < Index.limit) :
    dest.addScaledFactor number (.function (.same f)) = (do
      let multiple ← f.scale number
      let constant ← dest.constant.add multiple.constant
      pure ⟨dest.linear ++ multiple.linear, constant⟩) := by
  rw [addScaledFactor_eq number (by simpa using fits), Factor.terms_same, Factor.constant?_same]
  simp only [scale, QuadraticFunction.addConstants, bind_assoc, pure_bind]

theorem addScaledFactor_zero {f : AffineFunction (.integer width)}
    (number : Scalar (.integer width)) (fits : f.linear.length < Index.limit) :
    zero.addScaledFactor number (.function (.same f)) = f.scale number := by
  have room : (zero : AffineFunction (.integer width)).linear.length + f.linear.length <
      Index.limit := by simpa [zero] using fits
  rw [addScaledFactor_same number room]
  simp only [zero, Scalar.zero_add, ok_bind, List.nil_append]
  exact bind_pure _

/-- Overwriting with a multiple leaves the multiple. -/
theorem setProduct_function (dest : AffineFunction (.integer width))
    {f : AffineFunction (.integer width)} (number : Below Scalar (.integer width))
    (fits : f.linear.length < Index.limit) :
    dest.setProduct (.factorTimes (.function (.same f)) number) = f.scale number.scalar :=
  addScaledFactor_zero number.scalar fits

end AffineFunction

namespace QuadraticFunction

theorem addScaledFunction_own (dest f : QuadraticFunction T) (number : Scalar T) :
    dest.addScaledFunction (.same f) number = (do
      let _ ← Index.add dest.quadratic.length f.quadratic.length
      let scaled ← f.quadratic.mapM fun term => term.scale number
      let affine ← dest.affine.addScaledFactor number (.function (.same f.affine))
      pure ⟨dest.quadratic ++ scaled, affine⟩) := by
  have own : (f.quadratic.mapM fun term => (term.widen (ScalarType.le_refl T)).scale number) =
      f.quadratic.mapM fun term => term.scale number := by simp only [QuadraticTerm.widen_self]
  rw [← own]
  exact dest.addScaledFunction_eq (.same f) number

/-- Adding a multiple appends its terms and adds its constant. -/
theorem addScaledFunction_same {dest f : QuadraticFunction (.integer width)}
    (number : Scalar (.integer width))
    (quadratic_fits : dest.quadratic.length + f.quadratic.length < Index.limit)
    (linear_fits : dest.affine.linear.length + f.affine.linear.length < Index.limit) :
    dest.addScaledFunction (.same f) number = (do
      let multiple ← f.scale number
      let constant ← dest.affine.constant.add multiple.affine.constant
      pure ⟨dest.quadratic ++ multiple.quadratic,
        dest.affine.linear ++ multiple.affine.linear, constant⟩) := by
  rw [addScaledFunction_own, Index.add_eq_ok_of_lt quadratic_fits, ok_bind,
    AffineFunction.addScaledFactor_same number linear_fits]
  simp only [scale, bind_assoc, pure_bind]

theorem addScaledFunction_zero {f : QuadraticFunction (.integer width)}
    (number : Scalar (.integer width)) (quadratic_fits : f.quadratic.length < Index.limit)
    (linear_fits : f.affine.linear.length < Index.limit) :
    zero.addScaledFunction (.same f) number = f.scale number := by
  have quadratic_room : (zero : QuadraticFunction (.integer width)).quadratic.length +
      f.quadratic.length < Index.limit := by simpa [zero] using quadratic_fits
  have linear_room : (zero : QuadraticFunction (.integer width)).affine.linear.length +
      f.affine.linear.length < Index.limit := by simpa [zero, AffineFunction.zero] using linear_fits
  rw [addScaledFunction_same number quadratic_room linear_room]
  simp only [zero, AffineFunction.zero, Scalar.zero_add, ok_bind, List.nil_append]
  exact bind_pure _

/-- Overwriting with a multiple leaves the multiple. -/
theorem setProduct_function (dest : QuadraticFunction (.integer width))
    {f : QuadraticFunction (.integer width)} (number : Below Scalar (.integer width))
    (quadratic_fits : f.quadratic.length < Index.limit)
    (linear_fits : f.affine.linear.length < Index.limit) :
    dest.setProduct (.functionTimes (.same f) number) = f.scale number.scalar :=
  addScaledFunction_zero number.scalar quadratic_fits linear_fits

end QuadraticFunction

/-! ## Lists and matrices of one element -/

/-- The matrix with one element. -/
def RowMajor.single {α : Type} (element : α) : RowMajor α :=
  ⟨1, 1, [element], by decide, by decide, by decide, rfl⟩

/-- The sum of one product is the multiple that is added to the zero function. -/
theorem AffineFunction.dot_singleton (dest f : AffineFunction (.integer width))
    (number : Scalar (.integer width)) :
    dest.dot (.factorTimes [.function (.same f)] [.same number]) =
      liftM (zero.addScaledFactor number (.function (.same f))) := by
  have added : addProducts zero [.factorTimes (.function (.same f)) (.same number)] =
      zero.addScaledFactor number (.function (.same f)) := by
    rw [addProducts, List.foldlM_cons]
    simp only [List.foldlM_nil, addProduct, Below.scalar_same]
    exact bind_pure _
  rw [dot_eq_checked, ← added]
  rfl

namespace AffineVector

theorem mapUpdate_singleton {α : Type}
    {update : AffineFunction T → α → Except Fault (AffineFunction T)} {x : α}
    {result : Except Fault (AffineFunction T)} (same : ∀ dest, update dest x = result)
    {dests : AffineVector T} (filled : dests.length = 1) :
    mapUpdate update dests [x] = ([·]) <$> result := by
  obtain ⟨dest, rfl⟩ := List.length_eq_one_iff.mp filled
  rw [mapUpdate, same dest]
  cases result <;> rfl

theorem setMultiples_singleton (dest : AffineVector (.integer width))
    (f : AffineFunction (.integer width)) (number : Scalar (.integer width)) :
    dest.setMultiples [.factor (.function (.same f))] (.same number) =
      ([·]) <$> AffineFunction.zero.addScaledFactor number (.function (.same f)) := by
  apply mapUpdate_singleton
  · intro element
    simp only [AffineOperand.timesNumber, AffineFunction.setProduct, AffineFunction.addProduct,
      Below.scalar_same]
    rfl
  · exact length_resize dest 1

theorem setMatrixProduct_single (dest f : AffineFunction (.integer width))
    (number : Scalar (.integer width)) :
    setMatrixProduct [dest] (.same (.single number)) (.functions [.same f]) =
      liftM (([·]) <$> AffineFunction.zero.addScaledFactor number (.function (.same f))) := by
  have row : ∀ element : AffineFunction (.integer width),
      element.setRowProduct ([number].map (Scalar.widen (ScalarType.le_refl _)))
          (.functions [.same f]) =
        AffineFunction.zero.addScaledFactor number (.function (.same f)) := by
    intro element
    simp only [AffineFunction.setRowProduct, List.map_cons, List.map_nil, Scalar.widen_self,
      List.zip_cons_cons, List.zip_nil_left, List.foldlM_cons, List.foldlM_nil]
    exact bind_pure _
  have one_element : [dest].length = 1 := rfl
  rw [setMatrixProduct_eq_checked, ← mapUpdate_singleton row one_element]
  rfl

end AffineVector

/-- A number may stand on either side of an operand: the outcomes are the same, whether a function
or a fault.  The multiple of a function has this one outcome too, whichever of the operations that
stand for it is asked, and whatever the destination held before. -/
theorem multiples_agree (width : IntWidth) :
    (∀ (dest : AffineFunction (.integer width)) (x : AffineOperand (.integer width))
      (number : Below Scalar (.integer width)),
      dest.addProduct (x.timesNumber number) = dest.addProduct (.numberTimes number x)) ∧
    (∀ (dest : QuadraticFunction (.integer width)) (x : QuadraticOperand (.integer width))
      (number : Below Scalar (.integer width)), dest.HasRoomFor x →
      dest.addProduct (x.timesNumber number) = dest.addProduct (.numberTimes number x)) ∧
    (∀ (f : AffineFunction (.integer width)) (number : Scalar (.integer width)),
      f.linear.length < Index.limit →
      (∀ dest : AffineFunction (.integer width),
        dest.setProduct (.factorTimes (.function (.same f)) (.same number)) = f.scale number ∧
        dest.setProduct (.numberTimes (.same number) (.factor (.function (.same f)))) =
          f.scale number ∧
        dest.dot (.factorTimes [.function (.same f)] [.same number]) = liftM (f.scale number) ∧
        AffineVector.setMatrixProduct [dest] (.same (.single number)) (.functions [.same f]) =
          liftM (([·]) <$> f.scale number)) ∧
      AffineFunction.zero.addScaled (.factor (.function (.same f))) number = f.scale number ∧
      ∀ dest : AffineVector (.integer width),
        dest.setMultiples [.factor (.function (.same f))] (.same number) =
          ([·]) <$> f.scale number) ∧
    ∀ (f : QuadraticFunction (.integer width)) (number : Scalar (.integer width)),
      f.quadratic.length < Index.limit → f.affine.linear.length < Index.limit →
      (∀ dest : QuadraticFunction (.integer width),
        dest.setProduct (.functionTimes (.same f) (.same number)) = f.scale number ∧
        dest.setProduct (.numberTimes (.same number) (.function (.same f))) = f.scale number) ∧
      QuadraticFunction.zero.addScaled (.function (.same f)) number = f.scale number := by
  refine ⟨fun dest x number => dest.addProduct_timesNumber x number,
    fun dest x number room => QuadraticFunction.addProduct_timesNumber number room, ?_, ?_⟩
  · intro f number fits
    have product : ∀ dest : AffineFunction (.integer width),
        dest.setProduct (.factorTimes (.function (.same f)) (.same number)) = f.scale number := by
      intro dest
      rw [dest.setProduct_function _ fits, Below.scalar_same]
    refine ⟨fun dest => ⟨product dest, ?_, ?_, ?_⟩, AffineFunction.addScaledFactor_zero number fits,
      fun dest => ?_⟩
    · rw [← product dest]
      exact (dest.clear.addProduct_timesNumber (.factor (.function (.same f))) (.same number)).symm
    · rw [dest.dot_singleton, AffineFunction.addScaledFactor_zero number fits]
    · rw [AffineVector.setMatrixProduct_single, AffineFunction.addScaledFactor_zero number fits]
    · rw [dest.setMultiples_singleton, AffineFunction.addScaledFactor_zero number fits]
  · intro f number quadratic_fits linear_fits
    have product : ∀ dest : QuadraticFunction (.integer width),
        dest.setProduct (.functionTimes (.same f) (.same number)) = f.scale number := by
      intro dest
      rw [dest.setProduct_function _ quadratic_fits linear_fits, Below.scalar_same]
    refine ⟨fun dest => ⟨product dest, ?_⟩,
      QuadraticFunction.addScaledFunction_zero number quadratic_fits linear_fits⟩
    rw [← product dest]
    rfl

/-- The function `50 * x1 + 6`. -/
def fiftyfold : AffineFunction (.integer .bits8) :=
  ⟨[⟨⟨50, by decide, by decide⟩, ⟨1⟩⟩], ⟨6, by decide, by decide⟩⟩

/-- The function `x1 * x2 + x3 + 1`. -/
def mixedFunction : QuadraticFunction (.integer .bits8) :=
  ⟨[⟨.one, ⟨1⟩, ⟨2⟩⟩], [⟨.one, ⟨3⟩⟩], .one⟩

theorem multiples_agree_fiftyfold :
    mixedFunction.HasRoomFor (.affine (.factor (.function (.same fiftyfold)))) ∧
      mixedFunction.addProduct (.factorTimes (.function (.same fiftyfold))
          (.number (.same ⟨2, by decide, by decide⟩))) =
        .ok ⟨[⟨.one, ⟨1⟩, ⟨2⟩⟩], [⟨.one, ⟨3⟩⟩, ⟨⟨100, by decide, by decide⟩, ⟨1⟩⟩],
          ⟨13, by decide, by decide⟩⟩ ∧
      AffineFunction.zero.dot (.factorTimes [.function (.same fiftyfold)]
          [.same ⟨3, by decide, by decide⟩]) =
        .error (.faulted (.overflow .multiply)) ∧
      QuadraticFunction.zero.setProduct (.functionTimes (.same mixedFunction) (.same .minusOne)) =
        .ok ⟨[⟨.minusOne, ⟨1⟩, ⟨2⟩⟩], [⟨.minusOne, ⟨3⟩⟩], .minusOne⟩ := by
  have room : mixedFunction.HasRoomFor (.affine (.factor (.function (.same fiftyfold)))) :=
    ⟨by decide, by decide⟩
  obtain ⟨-, sides, affine, quadratic⟩ := multiples_agree .bits8
  refine ⟨room, ?_, ?_, ?_⟩
  · exact (sides mixedFunction _ (.same ⟨2, by decide, by decide⟩) room).trans rfl
  · exact ((affine fiftyfold ⟨3, by decide, by decide⟩ (by decide)).1 .zero).2.2.1.trans rfl
  · exact ((quadratic mixedFunction .minusOne (by decide) (by decide)).1 .zero).1.trans rfl

end DegreeTwo
