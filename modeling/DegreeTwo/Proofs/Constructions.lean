import DegreeTwo.Expr
import DegreeTwo.Proofs.Conversion.Operands
import DegreeTwo.Proofs.Multiples
import DegreeTwo.Proofs.Opposites

/-!
# Ways to build a function

An operand stands for a function.  That function can be built from the operand, assigned to a
destination, copied into it, or accumulated in the zero function; a sum or difference can be
assigned, accumulated, or written with an operator.  Only some of these multiply by one, and each
has its own way of clearing what the destination held, and yet all of them end alike.
-/

namespace DegreeTwo

variable {T : ScalarType} {width : IntWidth}

/-! ## The function of an operand -/

/-- The function that an operand stands for. -/
def AffineOperand.toFunction : AffineOperand T → AffineFunction T
  | .number x => .ofNumber x.scalar
  | .factor (.var x) => .ofVariable x
  | .factor (.term x) => .ofTerm x.linearTerm
  | .factor (.function x) => x.value.widen x.source_le

/-- The function that an operand stands for. -/
def QuadraticOperand.toFunction : QuadraticOperand T → QuadraticFunction T
  | .affine (.number x) => .ofNumber x.scalar
  | .affine (.factor (.var x)) => .ofVariable x
  | .affine (.factor (.term x)) => .ofLinearTerm x.linearTerm
  | .affine (.factor (.function x)) => .ofAffine (x.value.widen x.source_le)
  | .term x => .ofTerm x.quadraticTerm
  | .function x => x.value.widen x.source_le

theorem QuadraticOperand.toFunction_affine (x : AffineOperand T) :
    (affine x).toFunction = .ofAffine x.toFunction := by
  cases x with
  | number x => rfl
  | factor x => cases x <;> rfl

@[simp]
theorem LinearTerm.scale_one (term : LinearTerm (.integer width)) :
    term.scale .one = .ok term := by
  simp [scale]

@[simp]
theorem QuadraticTerm.scale_one (term : QuadraticTerm (.integer width)) :
    term.scale .one = .ok term := by
  simp [scale]

namespace AffineFunction

/-- An operand that is added to zero leaves its function. -/
theorem add_zero_eq {x : AffineOperand (.integer width)} (fits : x.terms.length < Index.limit) :
    zero.add x = .ok x.toFunction := by
  cases x with
  | number x => simp [add, addScaled, addScaledNumber, zero, AffineOperand.toFunction, ofNumber]
  | factor x =>
      cases x with
      | var x => rfl
      | term x =>
          rw [add, addScaled, addScaledFactor, LinearTerm.scale_one]
          rfl
      | function x =>
          -- Once its coefficients are of the type `T`, the source is its own multiple by one.
          have converted : Factor.MayConvert (.function x) (.function x.converted) :=
            .function (.convert x)
          have widened_fits : (x.value.widen x.source_le).linear.length < Index.limit := by
            rw [linear_widen]
            exact fits
          rw [add, addScaled, addScaledFactor_converted zero converted]
          exact (addScaledFactor_zero .one widened_fits).trans (scale_one _)

/-- Assigning an operand leaves its function. -/
theorem setTo_eq (dest : AffineFunction (.integer width)) (x : AffineOperand (.integer width)) :
    dest.setTo x = .ok x.toFunction := by
  cases x with
  | number x =>
      have no_terms : (AffineOperand.number x).terms.length < Index.limit := Nat.zero_lt_succ _
      exact add_zero_eq no_terms
  | factor x =>
      cases x with
      | var x => rfl
      | term x =>
          have one_term : (AffineOperand.factor (.term x)).terms.length < Index.limit :=
            Nat.succ_lt_succ (Nat.zero_lt_succ _)
          exact add_zero_eq one_term
      | function x => exact congrArg pure (dest.overwrite_eq_widen x)

end AffineFunction

namespace QuadraticFunction

theorem add_zero_affine {x : AffineOperand (.integer width)}
    (fits : x.terms.length < Index.limit) :
    zero.add (.affine x) = .ok (QuadraticOperand.affine x).toFunction := by
  have added : AffineFunction.zero.addScaled x .one = .ok x.toFunction :=
    AffineFunction.add_zero_eq fits
  rw [add, addScaled, zero, added, QuadraticOperand.toFunction_affine]
  rfl

theorem add_zero_term (x : Below QuadraticTerm (.integer width)) :
    zero.add (.term x) = .ok (QuadraticOperand.term x).toFunction := by
  rw [add, addScaled, addScaledTerm, QuadraticTerm.scale_one]
  rfl

/-- An operand that is added to zero leaves its function. -/
theorem add_zero_eq {x : QuadraticOperand (.integer width)} (room : zero.HasRoomFor x) :
    zero.add x = .ok x.toFunction := by
  cases x with
  | affine x => exact add_zero_affine ((Nat.zero_add _).symm.trans_lt room.linear)
  | term x => exact add_zero_term x
  | function x =>
      have converted : QuadraticOperand.MayConvert (.function x) (.function x.converted) :=
        .function (.convert x)
      have quadratic_fits : (x.value.widen x.source_le).quadratic.length < Index.limit := by
        rw [quadratic_widen, List.length_map]
        exact (Nat.zero_add _).symm.trans_lt room.quadratic
      have linear_fits : (x.value.widen x.source_le).affine.linear.length < Index.limit := by
        rw [affine_widen, AffineFunction.linear_widen, List.length_map]
        exact (Nat.zero_add _).symm.trans_lt room.linear
      rw [add, addScaled_converted zero converted]
      exact (addScaledFunction_zero .one quadratic_fits linear_fits).trans (scale_one _)

/-- Assigning an operand leaves its function.  A variable, linear term or affine function goes
through the affine part of the destination, whose quadratic terms are cleared apart. -/
theorem setTo_eq (dest : QuadraticFunction (.integer width))
    (x : QuadraticOperand (.integer width)) : dest.setTo x = .ok x.toFunction := by
  cases x with
  | affine x =>
      cases x with
      | number x =>
          have no_terms : (AffineOperand.number x).terms.length < Index.limit := Nat.zero_lt_succ _
          exact add_zero_affine no_terms
      | factor x =>
          rw [setTo, dest.affine.setTo_eq, QuadraticOperand.toFunction_affine]
          rfl
  | term x => exact add_zero_term x
  | function x => exact congrArg pure (dest.overwrite_eq_widen x)

end QuadraticFunction

/-! ## Sums and differences -/

namespace AffineFunction

/-- Add an operand or subtract it. -/
def addSigned (dest : AffineFunction T) : Sign → AffineOperand T → Except Fault (AffineFunction T)
  | .plus, y => dest.add y
  | .minus, y => dest.sub y

/-- Overwrite a destination with the sum or the difference of two operands. -/
def setSigned (dest : AffineFunction T) :
    Sign → AffineOperand T → AffineOperand T → Except Fault (AffineFunction T)
  | .plus, x, y => dest.setSum x y
  | .minus, x, y => dest.setDifference x y

end AffineFunction

/-- The update that adds an operand or subtracts it. -/
def AffineUpdate.addSigned : Sign → AffineOperand T → AffineUpdate T
  | .plus, y => .add y
  | .minus, y => .sub y

namespace QuadraticFunction

/-- Add an operand or subtract it. -/
def addSigned (dest : QuadraticFunction T) :
    Sign → QuadraticOperand T → Except Fault (QuadraticFunction T)
  | .plus, y => dest.add y
  | .minus, y => dest.sub y

/-- Overwrite a destination with the sum or the difference of two operands. -/
def setSigned (dest : QuadraticFunction T) :
    Sign → QuadraticOperand T → QuadraticOperand T → Except Fault (QuadraticFunction T)
  | .plus, x, y => dest.setSum x y
  | .minus, x, y => dest.setDifference x y

end QuadraticFunction

/-- The update that adds an operand or subtracts it. -/
def QuadraticUpdate.addSigned : Sign → QuadraticOperand T → QuadraticUpdate T
  | .plus, y => .add y
  | .minus, y => .sub y

namespace AffineFunction

/-- Overwriting with a sum or difference is accumulating it from the function of the first
operand. -/
theorem setSigned_eq (sign : Sign) (dest : AffineFunction (.integer width))
    (x y : AffineOperand (.integer width)) :
    dest.setSigned sign x y = x.toFunction.addSigned sign y := by
  cases sign with
  | plus => rw [setSigned, setSum, dest.setTo_eq, ok_bind, addSigned]
  | minus => rw [setSigned, setDifference, dest.setTo_eq, ok_bind, addSigned]

theorem run_addSigned (sign : Sign) (f : AffineFunction T) (y : AffineOperand T) :
    f.run [.addSigned sign y] = f.addSigned sign y := by
  rw [run_eq, runUpdates_singleton, AffineUpdate.apply_eq]
  cases sign with
  | plus => exact settle_lift f (f.add y)
  | minus => exact settle_lift f (f.sub y)

/-- Two operands are accumulated in zero, the second one with a sign. -/
theorem run_add_addSigned (sign : Sign) {x : AffineOperand (.integer width)}
    (y : AffineOperand (.integer width)) (fits : x.terms.length < Index.limit) :
    zero.run [.add x, .addSigned sign y] = x.toFunction.addSigned sign y := by
  have first : settle zero ((AffineUpdate.add x).apply zero) = .ok x.toFunction := by
    rw [AffineUpdate.apply_eq]
    exact (settle_lift zero (zero.add x)).trans (add_zero_eq fits)
  rw [run_eq, runUpdates_cons, first, ok_bind, ← run_eq]
  exact x.toFunction.run_addSigned sign y

end AffineFunction

namespace QuadraticFunction

/-- Overwriting with a sum or difference is accumulating it from the function of the first
operand. -/
theorem setSigned_eq (sign : Sign) (dest : QuadraticFunction (.integer width))
    (x y : QuadraticOperand (.integer width)) :
    dest.setSigned sign x y = x.toFunction.addSigned sign y := by
  cases sign with
  | plus => rw [setSigned, setSum, dest.setTo_eq, ok_bind, addSigned]
  | minus => rw [setSigned, setDifference, dest.setTo_eq, ok_bind, addSigned]

theorem run_addSigned (sign : Sign) (f : QuadraticFunction T) (y : QuadraticOperand T) :
    f.run [.addSigned sign y] = f.addSigned sign y := by
  rw [run_eq, runUpdates_singleton, QuadraticUpdate.apply_eq]
  cases sign with
  | plus => exact settle_lift f (f.add y)
  | minus => exact settle_lift f (f.sub y)

/-- Two operands are accumulated in zero, the second one with a sign. -/
theorem run_add_addSigned (sign : Sign) {x : QuadraticOperand (.integer width)}
    (y : QuadraticOperand (.integer width)) (room : zero.HasRoomFor x) :
    zero.run [.add x, .addSigned sign y] = x.toFunction.addSigned sign y := by
  have first : settle zero ((QuadraticUpdate.add x).apply zero) = .ok x.toFunction := by
    rw [QuadraticUpdate.apply_eq]
    exact (settle_lift zero (zero.add x)).trans (add_zero_eq room)
  rw [run_eq, runUpdates_cons, first, ok_bind, ← run_eq]
  exact x.toFunction.run_addSigned sign y

end QuadraticFunction

namespace ExprValue

theorem sumAffine_eq (sign : Sign) (f : AffineFunction T) (y : AffineOperand T) :
    sumAffine sign f y = affine <$> liftM (f.addSigned sign y) := by
  cases sign <;> exact (map_eq_pure_bind _ _).symm

theorem sumQuadratic_eq (sign : Sign) (f : QuadraticFunction T) (y : QuadraticOperand T) :
    sumQuadratic sign f y = quadratic <$> liftM (f.addSigned sign y) := by
  cases sign <;> exact (map_eq_pure_bind _ _).symm

end ExprValue

/-! ## All ways agree -/

/-- Whatever builds a function from an operand builds the function of the operand. -/
structure AffineFunction.Builds (x : AffineOperand T) : Prop where
  /-- A destination in any state is overwritten with the operand. -/
  setTo (dest : AffineFunction T) : dest.setTo x = .ok x.toFunction
  /-- The operand is added to zero. -/
  add : zero.add x = .ok x.toFunction
  /-- A function is copied into a destination in any state. -/
  overwrite (dest : AffineFunction T) (source : Below AffineFunction T)
    (function : x = .factor (.function source)) : dest.overwrite source = x.toFunction
  /-- A function is converted. -/
  widen (source : Below AffineFunction T) (function : x = .factor (.function source)) :
    source.value.widen source.source_le = x.toFunction

/-- Whatever computes the sum or difference of two operands has one outcome, a function or a
fault. -/
structure AffineFunction.Sums (sign : Sign) (x y : AffineOperand T) : Prop where
  /-- A destination in any state is overwritten, or the operands are accumulated in zero. -/
  run (dest : AffineFunction T) : dest.setSigned sign x y = zero.run [.add x, .addSigned sign y]
  /-- The operator is applied to the function of the left operand. -/
  operator (dest : AffineFunction T) :
    (Expr.sumOperand sign (.value (.affine x.toFunction)) (.affine y)).eval =
      .affine <$> liftM (dest.setSigned sign x y)
  /-- The operator is applied to a linear term. -/
  termOperator (dest : AffineFunction T) (term : LinearTerm T)
    (left : x = .factor (.term (.same term))) :
    (Expr.sumOperand sign (.value (.linear term)) (.affine y)).eval =
      .affine <$> liftM (dest.setSigned sign x y)

/-- Whatever builds a function from an operand builds the function of the operand. -/
structure QuadraticFunction.Builds (x : QuadraticOperand T) : Prop where
  /-- A destination in any state is overwritten with the operand. -/
  setTo (dest : QuadraticFunction T) : dest.setTo x = .ok x.toFunction
  /-- The operand is added to zero. -/
  add : zero.add x = .ok x.toFunction
  /-- A function is copied into a destination in any state. -/
  overwrite (dest : QuadraticFunction T) (source : Below QuadraticFunction T)
    (function : x = .function source) : dest.overwrite source = x.toFunction
  /-- A function is converted. -/
  widen (source : Below QuadraticFunction T) (function : x = .function source) :
    source.value.widen source.source_le = x.toFunction

/-- Whatever computes the sum or difference of two operands has one outcome, a function or a
fault. -/
structure QuadraticFunction.Sums (sign : Sign) (x y : QuadraticOperand T) : Prop where
  /-- A destination in any state is overwritten, or the operands are accumulated in zero. -/
  run (dest : QuadraticFunction T) :
    dest.setSigned sign x y = zero.run [.add x, .addSigned sign y]
  /-- The operator is applied to the function of the left operand. -/
  operator (dest : QuadraticFunction T) :
    (Expr.sumOperand sign (.value (.quadratic x.toFunction)) y).eval =
      .quadratic <$> liftM (dest.setSigned sign x y)
  /-- The operator is applied to a quadratic term. -/
  termOperator (dest : QuadraticFunction T) (term : QuadraticTerm T)
    (left : x = .term (.same term)) :
    (Expr.sumOperand sign (.value (.quadraticTerm term)) y).eval =
      .quadratic <$> liftM (dest.setSigned sign x y)

namespace AffineFunction

theorem builds {x : AffineOperand (.integer width)} (fits : x.terms.length < Index.limit) :
    Builds x where
  setTo dest := dest.setTo_eq x
  add := add_zero_eq fits
  overwrite dest source function := by
    rw [function]
    exact dest.overwrite_eq_widen source
  widen source function := by
    rw [function]
    rfl

theorem sums (sign : Sign) {x : AffineOperand (.integer width)}
    (y : AffineOperand (.integer width)) (fits : x.terms.length < Index.limit) :
    Sums sign x y where
  run dest := by rw [dest.setSigned_eq, run_add_addSigned sign y fits]
  operator dest := by
    rw [dest.setSigned_eq]
    exact ExprValue.sumAffine_eq sign x.toFunction y
  termOperator dest term left := by
    have function : x.toFunction = .ofTerm term := by
      rw [left]
      exact congrArg ofTerm (term.widen_self _)
    rw [dest.setSigned_eq, function]
    exact ExprValue.sumAffine_eq sign (.ofTerm term) y

end AffineFunction

namespace QuadraticFunction

theorem builds {x : QuadraticOperand (.integer width)} (room : zero.HasRoomFor x) :
    Builds x where
  setTo dest := dest.setTo_eq x
  add := add_zero_eq room
  overwrite dest source function := by
    rw [function]
    exact dest.overwrite_eq_widen source
  widen source function := by
    rw [function]
    rfl

theorem sums (sign : Sign) {x : QuadraticOperand (.integer width)}
    (y : QuadraticOperand (.integer width)) (room : zero.HasRoomFor x) : Sums sign x y where
  run dest := by rw [dest.setSigned_eq, run_add_addSigned sign y room]
  operator dest := by
    rw [dest.setSigned_eq]
    exact ExprValue.sumQuadratic_eq sign x.toFunction y
  termOperator dest term left := by
    have function : x.toFunction = .ofTerm term := by
      rw [left]
      exact congrArg ofTerm (term.widen_self _)
    rw [dest.setSigned_eq, function]
    exact ExprValue.sumQuadratic_eq sign (.ofTerm term) y

end QuadraticFunction

/-- Construction, assignment, copying and accumulation of an operand of an integer type leave one
function, and its sums and differences with other operands have one outcome each. -/
theorem constructions_agree (width : IntWidth) :
    (∀ x : AffineOperand (.integer width), x.terms.length < Index.limit →
      AffineFunction.Builds x ∧ ∀ sign y, AffineFunction.Sums sign x y) ∧
    ∀ x : QuadraticOperand (.integer width), QuadraticFunction.zero.HasRoomFor x →
      QuadraticFunction.Builds x ∧ ∀ sign y, QuadraticFunction.Sums sign x y :=
  ⟨fun _ fits => ⟨AffineFunction.builds fits, fun sign y => AffineFunction.sums sign y fits⟩,
    fun _ room => ⟨QuadraticFunction.builds room, fun sign y => QuadraticFunction.sums sign y room⟩⟩

theorem constructions_agree_mixed :
    (AffineOperand.factor (.function (.same fiftyfold))).terms.length < Index.limit ∧
      QuadraticFunction.zero.HasRoomFor (.function (.same mixedFunction)) ∧
      (Expr.sumOperand .plus (.value (.affine (fiftyfold.widen (ScalarType.le_refl _))))
          (.affine (.number (.same ⟨125, by decide, by decide⟩)))).eval =
        .error (.faulted (.overflow .add)) ∧
      QuadraticFunction.zero.run [.add (.function (.same mixedFunction)),
          .sub (.affine (.factor (.term (.same ⟨⟨50, by decide, by decide⟩, ⟨1⟩⟩))))] =
        .ok ⟨[⟨.one, ⟨1⟩, ⟨2⟩⟩], [⟨.one, ⟨3⟩⟩, ⟨⟨-50, by decide, by decide⟩, ⟨1⟩⟩], .one⟩ ∧
      mixedFunction.setTo (.affine (.factor (.var ⟨7⟩))) = .ok (.ofVariable ⟨7⟩) := by
  obtain ⟨affine, quadratic⟩ := constructions_agree .bits8
  have one_term : (AffineOperand.factor (.function (.same fiftyfold))).terms.length <
      Index.limit := by decide
  have room : QuadraticFunction.zero.HasRoomFor (.function (.same mixedFunction)) :=
    ⟨by decide, by decide⟩
  refine ⟨one_term, room, ?_, ?_, ?_⟩
  · exact (((affine _ one_term).2 .plus _).operator fiftyfold).trans rfl
  · exact (((quadratic _ room).2 .minus _).run mixedFunction).symm.trans rfl
  · exact (quadratic (.affine (.factor (.var ⟨7⟩))) ⟨by decide, by decide⟩).1.setTo mixedFunction

end DegreeTwo
