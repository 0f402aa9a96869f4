import DegreeTwo.Proofs.NormalForm
import DegreeTwo.Proofs.NumberProducts
import DegreeTwo.Proofs.Updates

/-!
# Accumulation

Adding to a function appends terms behind those that stand there and adds to its constant.  What is
appended does not depend on the function: it is what the same addition makes of the zero function.
So a run of additions leaves the terms of its start in front, untouched and in order, followed by
the terms that the run makes of the zero function.
-/

namespace DegreeTwo

variable {T : ScalarType} {width : IntWidth}

/-! ## Functions that extend others -/

/-- The function is `start` with the terms of `part` behind and with its constant added. -/
structure AffineFunction.Extends (after start part : AffineFunction (.integer width)) : Prop where
  /-- The linear terms stand behind each other. -/
  linear : after.linear = start.linear ++ part.linear
  /-- The constants are added as integers. -/
  constant : after.constant.toInt = start.constant.toInt + part.constant.toInt

/-- The function is `start` with the terms of `part` behind and with its constant added. -/
structure QuadraticFunction.Extends (after start part : QuadraticFunction (.integer width)) :
    Prop where
  /-- The quadratic terms stand behind each other. -/
  quadratic : after.quadratic = start.quadratic ++ part.quadratic
  /-- The affine parts stand behind each other. -/
  affine : after.affine.Extends start.affine part.affine

/-- The operation makes of every state an extension by what it makes of the initial one. -/
def Appends {σ : Type} (extends_by : σ → σ → σ → Prop) (initial : σ)
    (operation : σ → Except Fault σ) : Prop :=
  ∀ before after, operation before = .ok after →
    ∃ part, operation initial = .ok part ∧ extends_by after before part

/-- The operation appends to every function what it makes of the zero function. -/
abbrev AffineFunction.Appends (operation : AffineFunction (.integer width) →
    Except Fault (AffineFunction (.integer width))) : Prop :=
  DegreeTwo.Appends Extends zero operation

/-- The operation appends to every function what it makes of the zero function. -/
abbrev QuadraticFunction.Appends (operation : QuadraticFunction (.integer width) →
    Except Fault (QuadraticFunction (.integer width))) : Prop :=
  DegreeTwo.Appends Extends zero operation

theorem AffineFunction.extends_zero (f : AffineFunction (.integer width)) : f.Extends f zero :=
  ⟨(List.append_nil _).symm, by simp [zero]⟩

theorem QuadraticFunction.extends_zero (f : QuadraticFunction (.integer width)) :
    f.Extends f zero :=
  ⟨(List.append_nil _).symm, f.affine.extends_zero⟩

/-- What is appended to a start and to what was appended to it before extends the start. -/
theorem AffineFunction.Extends.append
    {start state fresh part stateAfter freshAfter : AffineFunction (.integer width)}
    (before : state.Extends start fresh) (state_extends : stateAfter.Extends state part)
    (fresh_extends : freshAfter.Extends fresh part) : stateAfter.Extends start freshAfter := by
  constructor
  · rw [state_extends.linear, before.linear, fresh_extends.linear, List.append_assoc]
  · rw [state_extends.constant, before.constant, fresh_extends.constant, Int.add_assoc]

/-- What is appended to a start and to what was appended to it before extends the start. -/
theorem QuadraticFunction.Extends.append
    {start state fresh part stateAfter freshAfter : QuadraticFunction (.integer width)}
    (before : state.Extends start fresh) (state_extends : stateAfter.Extends state part)
    (fresh_extends : freshAfter.Extends fresh part) : stateAfter.Extends start freshAfter := by
  constructor
  · rw [state_extends.quadratic, before.quadratic, fresh_extends.quadratic, List.append_assoc]
  · exact before.affine.append state_extends.affine fresh_extends.affine

section Runs

variable {σ υ : Type} {extends_by : σ → σ → σ → Prop} {initial : σ}

theorem Appends.settled {operation : σ → Except Fault σ}
    (appends : Appends extends_by initial operation) :
    Appends extends_by initial fun state => settle state (liftM (operation state)) := by
  simpa only [Appends, settle_lift] using appends

/-- What a run of appending steps makes of a state extends the state by what the run makes of the
initial one. -/
theorem Appends.run_extends {apply : υ → σ → Except Failure σ} {updates : List υ}
    (steps : ∀ update ∈ updates,
      Appends extends_by initial fun state => settle state (apply update state))
    (append : ∀ {start state fresh part stateAfter freshAfter}, extends_by state start fresh →
      extends_by stateAfter state part → extends_by freshAfter fresh part →
      extends_by stateAfter start freshAfter)
    {start final fresh : σ} (start_extends : extends_by start start initial)
    (run : runUpdates apply updates start = .ok final)
    (fresh_run : runUpdates apply updates initial = .ok fresh) : extends_by final start fresh := by
  apply runUpdates_related (extends_by · start ·) _ start_extends run fresh_run
  intro update member state fresh stateAfter freshAfter before state_settles fresh_settles
  obtain ⟨part, appended, state_extends⟩ := steps update member state stateAfter state_settles
  obtain ⟨other, other_appended, fresh_extends⟩ :=
    steps update member fresh freshAfter fresh_settles
  -- Both parts are what the step makes of the initial state.
  obtain rfl : part = other := Except.ok.inj (appended.symm.trans other_appended)
  exact append before state_extends fresh_extends

end Runs

/-! ## Additions to affine functions -/

/-- A length that has room behind another one is a length by itself. -/
theorem Index.zero_add_eq_ok {front count len : Nat} (sum : add front count = .ok len) :
    add 0 count = .ok count := by
  obtain ⟨fits, -⟩ := add_eq_ok.mp sum
  exact add_eq_ok.mpr ⟨by omega, (Nat.zero_add count).symm⟩

namespace AffineFunction

theorem addScaledNumber_appends (number : Below Scalar (.integer width))
    (scale : Scalar (.integer width)) : Appends (·.addScaledNumber number scale) := by
  intro dest after added
  obtain ⟨product, multiplies, added⟩ := bind_eq_ok.mp added
  obtain ⟨constant, sums, result⟩ := bind_eq_ok.mp added
  cases result
  refine ⟨⟨[], product⟩, ?_, (List.append_nil _).symm, (Scalar.add_yields _ _).result sums⟩
  simp only [addScaledNumber, multiplies, ok_bind, zero, Scalar.zero_add]
  rfl

theorem pushLinear_extends (dest : AffineFunction (.integer width))
    (term : LinearTerm (.integer width)) : (dest.pushLinear term).Extends dest (.ofTerm term) :=
  ⟨rfl, by simp [pushLinear, ofTerm]⟩

theorem addScaledFactor_appends (x : Factor (.integer width)) (scale : Scalar (.integer width)) :
    Appends (·.addScaledFactor scale x) := by
  intro dest after added
  cases x with
  | var x =>
      cases added
      exact ⟨_, rfl, dest.pushLinear_extends _⟩
  | term x =>
      obtain ⟨scaled, scales, result⟩ := bind_eq_ok.mp added
      cases result
      exact ⟨_, bind_eq_ok.mpr ⟨scaled, scales, rfl⟩, dest.pushLinear_extends scaled⟩
  | function x =>
      obtain ⟨len, fits, added⟩ := bind_eq_ok.mp ((addScaledFactor_function ..).symm.trans added)
      obtain ⟨scaled, mapped, added⟩ := bind_eq_ok.mp added
      obtain ⟨product, multiplies, added⟩ := bind_eq_ok.mp added
      obtain ⟨constant, sums, result⟩ := bind_eq_ok.mp added
      cases result
      -- Apart from the sum of the constants, only the room for terms depends on the destination.
      refine ⟨⟨scaled, product⟩, (addScaledFactor_function ..).trans ?_, rfl,
        (Scalar.add_yields _ _).result sums⟩
      simp only [zero, List.length_nil, Index.zero_add_eq_ok fits, mapped, multiplies,
        Scalar.zero_add, ok_bind]
      rfl

theorem addScaled_appends (x : AffineOperand (.integer width)) (scale : Scalar (.integer width)) :
    Appends (·.addScaled x scale) := by
  cases x with
  | number x => exact addScaledNumber_appends x scale
  | factor x => exact addScaledFactor_appends x scale

theorem addProduct_appends (product : AffineProduct (.integer width)) :
    Appends (·.addProduct product) := by
  cases product with
  | numberTimes number x => exact addScaled_appends x number.scalar
  | factorTimes x number => exact addScaledFactor_appends x number.scalar

end AffineFunction

/-! ## Additions to quadratic functions -/

namespace QuadraticFunction

theorem addScaledTerm_appends (x : Below QuadraticTerm (.integer width))
    (scale : Scalar (.integer width)) : Appends (·.addScaledTerm x scale) := by
  intro dest after added
  obtain ⟨scaled, scales, result⟩ := bind_eq_ok.mp added
  cases result
  exact ⟨.ofTerm scaled, bind_eq_ok.mpr ⟨scaled, scales, rfl⟩, rfl, dest.affine.extends_zero⟩

theorem addScaledFunction_appends (x : Below QuadraticFunction (.integer width))
    (scale : Scalar (.integer width)) : Appends (·.addScaledFunction x scale) := by
  intro dest after added
  obtain ⟨len, fits, added⟩ := bind_eq_ok.mp ((addScaledFunction_eq ..).symm.trans added)
  obtain ⟨scaled, mapped, added⟩ := bind_eq_ok.mp added
  obtain ⟨affine, affine_added, result⟩ := bind_eq_ok.mp added
  cases result
  obtain ⟨part, part_added, affine_extends⟩ :=
    AffineFunction.addScaledFactor_appends _ scale _ _ affine_added
  refine ⟨⟨scaled, part⟩, (addScaledFunction_eq ..).trans ?_, rfl, affine_extends⟩
  exact bind_eq_ok.mpr ⟨_, Index.zero_add_eq_ok fits, bind_eq_ok.mpr ⟨scaled, mapped,
    bind_eq_ok.mpr ⟨part, part_added, rfl⟩⟩⟩

theorem addScaled_appends (x : QuadraticOperand (.integer width))
    (scale : Scalar (.integer width)) : Appends (·.addScaled x scale) := by
  cases x with
  | affine x =>
      intro dest after added
      obtain ⟨affine, affine_added, result⟩ := bind_eq_ok.mp added
      cases result
      obtain ⟨part, part_added, affine_extends⟩ :=
        AffineFunction.addScaled_appends x scale _ _ affine_added
      exact ⟨⟨[], part⟩, bind_eq_ok.mpr ⟨part, part_added, rfl⟩, (List.append_nil _).symm,
        affine_extends⟩
  | term x => exact addScaledTerm_appends x scale
  | function x => exact addScaledFunction_appends x scale

theorem appendProducts_appends {x y : List (LinearTerm T)}
    {buffer after : List (QuadraticTerm T)} (appended : appendProducts buffer x y = .ok after) :
    ∃ part, appendProducts [] x y = .ok part ∧ after = buffer ++ part := by
  rw [appendProducts_eq] at appended
  obtain ⟨count, counts, appended⟩ := bind_eq_ok.mp appended
  obtain ⟨len, fits, appended⟩ := bind_eq_ok.mp appended
  obtain ⟨rows, mapped, result⟩ := bind_eq_ok.mp appended
  cases result
  refine ⟨rows.flatten, ?_, rfl⟩
  rw [appendProducts_eq, counts, ok_bind, List.length_nil, Index.zero_add_eq_ok fits, ok_bind,
    mapped]
  rfl

theorem appendScaled_appends {x y : List (LinearTerm T)} {xConstant yConstant : Option (Scalar T)}
    {buffer after : List (LinearTerm T)}
    (appended : appendScaled buffer x y xConstant yConstant = .ok after) :
    ∃ part, appendScaled [] x y xConstant yConstant = .ok part ∧ after = buffer ++ part := by
  rw [appendScaled_eq] at appended
  obtain ⟨count, counts, appended⟩ := bind_eq_ok.mp appended
  obtain ⟨len, fits, appended⟩ := bind_eq_ok.mp appended
  obtain ⟨xScaled, x_scales, appended⟩ := bind_eq_ok.mp appended
  obtain ⟨yScaled, y_scales, result⟩ := bind_eq_ok.mp appended
  cases result
  refine ⟨xScaled ++ yScaled, ?_, rfl⟩
  rw [appendScaled_eq, counts, ok_bind, List.length_nil, Index.zero_add_eq_ok fits, ok_bind,
    x_scales, ok_bind, y_scales]
  rfl

theorem addConstants_appends {left right : Option (Scalar (.integer width))}
    {constant after : Scalar (.integer width)}
    (added : addConstants constant left right = .ok after) :
    ∃ part, addConstants .zero left right = .ok part ∧
      after.toInt = constant.toInt + part.toInt := by
  cases left with
  | none =>
      cases added
      exact ⟨.zero, rfl, by simp⟩
  | some left =>
      cases right with
      | none =>
          cases added
          exact ⟨.zero, rfl, by simp⟩
      | some right =>
          obtain ⟨product, multiplies, sums⟩ := bind_eq_ok.mp added
          refine ⟨product, ?_, (Scalar.add_yields _ _).result sums⟩
          rw [addConstants, multiplies, ok_bind, Scalar.zero_add]

theorem addFactorProduct_appends (x : Factor (.integer width))
    (y : AffineOperand (.integer width)) :
    Appends (·.addFactorProduct x y) := by
  intro dest after added
  obtain ⟨quadratic, products, added⟩ := bind_eq_ok.mp added
  obtain ⟨linear, scaled, added⟩ := bind_eq_ok.mp added
  obtain ⟨constant, sums, result⟩ := bind_eq_ok.mp added
  cases result
  obtain ⟨quadraticPart, part_products, quadratic_eq⟩ := appendProducts_appends products
  obtain ⟨linearPart, part_scaled, linear_eq⟩ := appendScaled_appends scaled
  obtain ⟨constantPart, part_sums, constant_eq⟩ := addConstants_appends sums
  refine ⟨⟨quadraticPart, linearPart, constantPart⟩, ?_, quadratic_eq, linear_eq, constant_eq⟩
  exact bind_eq_ok.mpr ⟨_, part_products,
    bind_eq_ok.mpr ⟨_, part_scaled, bind_eq_ok.mpr ⟨_, part_sums, rfl⟩⟩⟩

theorem addProduct_appends (product : QuadraticProduct (.integer width)) :
    Appends (·.addProduct product) := by
  cases product with
  | numberTimes number x => exact addScaled_appends x number.scalar
  | factorTimes x y => exact addFactorProduct_appends x y
  | termTimes x number => exact addScaledTerm_appends x number.scalar
  | functionTimes x number => exact addScaledFunction_appends x number.scalar

end QuadraticFunction

/-! ## Runs of additions -/

/-- The update adds something to the function. -/
inductive AffineUpdate.Accumulates : AffineUpdate T → Prop
  | add (x : AffineOperand T) : Accumulates (.add x)
  | sub (x : AffineOperand T) : Accumulates (.sub x)
  | addScaled (x : AffineOperand T) (scale : Scalar T) : Accumulates (.addScaled x scale)
  | addProduct (product : AffineProduct T) : Accumulates (.addProduct product)

/-- The update adds something to the function, or to its affine part. -/
inductive QuadraticUpdate.Accumulates : QuadraticUpdate T → Prop
  | add (x : QuadraticOperand T) : Accumulates (.add x)
  | sub (x : QuadraticOperand T) : Accumulates (.sub x)
  | addScaled (x : QuadraticOperand T) (scale : Scalar T) : Accumulates (.addScaled x scale)
  | addProduct (product : QuadraticProduct T) : Accumulates (.addProduct product)
  | affine {update : AffineUpdate T} (accumulates : update.Accumulates) :
      Accumulates (.affine update)

theorem AffineUpdate.Accumulates.appends {update : AffineUpdate (.integer width)}
    (accumulates : update.Accumulates) :
    AffineFunction.Appends fun f => settle f (update.apply f) := by
  simp only [AffineUpdate.apply_eq]
  cases accumulates with
  | add x => exact (AffineFunction.addScaled_appends x .one).settled
  | sub x => exact (AffineFunction.addScaled_appends x .minusOne).settled
  | addScaled x scale => exact (AffineFunction.addScaled_appends x scale).settled
  | addProduct product => exact (AffineFunction.addProduct_appends product).settled

theorem QuadraticUpdate.Accumulates.appends {update : QuadraticUpdate (.integer width)}
    (accumulates : update.Accumulates) :
    QuadraticFunction.Appends fun f => settle f (update.apply f) := by
  simp only [QuadraticUpdate.apply_eq]
  cases accumulates with
  | add x => exact (QuadraticFunction.addScaled_appends x .one).settled
  | sub x => exact (QuadraticFunction.addScaled_appends x .minusOne).settled
  | addScaled x scale => exact (QuadraticFunction.addScaled_appends x scale).settled
  | addProduct product => exact (QuadraticFunction.addProduct_appends product).settled
  | @affine update accumulates =>
      intro dest after settled
      have part_settled (f : QuadraticFunction (.integer width)) :
          settle f (do
            let affine ← update.apply f.affine
            pure { f with affine }) = (do
            let affine ← settle f.affine (update.apply f.affine)
            pure { f with affine }) :=
        settle_bind f.affine (fun affine => { f with affine }) (update.apply f.affine)
      obtain ⟨affine, affine_settled, result⟩ :=
        bind_eq_ok.mp ((part_settled dest).symm.trans settled)
      cases result
      obtain ⟨part, part_appended, extends_affine⟩ := accumulates.appends _ _ affine_settled
      refine ⟨⟨[], part⟩, ?_, (List.append_nil _).symm, extends_affine⟩
      exact (part_settled .zero).trans (bind_eq_ok.mpr ⟨part, part_appended, rfl⟩)

namespace AffineFunction

variable {start final fresh : AffineFunction (.integer width)}
variable {updates : List (AffineUpdate (.integer width))}

theorem run_extends (accumulate : ∀ update ∈ updates, update.Accumulates)
    (run : start.run updates = .ok final) (fresh_run : zero.run updates = .ok fresh) :
    final.Extends start fresh := by
  rw [run_eq] at run fresh_run
  exact Appends.run_extends (fun update member => (accumulate update member).appends) Extends.append
    start.extends_zero run fresh_run

theorem run_prefix (accumulate : ∀ update ∈ updates, update.Accumulates)
    (run : start.run updates = .ok final) : start.linear <+: final.linear := by
  rw [run_eq] at run
  apply runUpdates_keeps (start.linear <+: ·.linear) _ (List.prefix_refl start.linear) run
  intro update member before after kept settles
  obtain ⟨part, -, after_extends⟩ := (accumulate update member).appends before after settles
  exact kept.trans ⟨part.linear, after_extends.linear.symm⟩

end AffineFunction

namespace QuadraticFunction

variable {start final fresh : QuadraticFunction (.integer width)}
variable {updates : List (QuadraticUpdate (.integer width))}

theorem run_extends (accumulate : ∀ update ∈ updates, update.Accumulates)
    (run : start.run updates = .ok final) (fresh_run : zero.run updates = .ok fresh) :
    final.Extends start fresh := by
  rw [run_eq] at run fresh_run
  exact Appends.run_extends (fun update member => (accumulate update member).appends) Extends.append
    start.extends_zero run fresh_run

theorem run_prefix (accumulate : ∀ update ∈ updates, update.Accumulates)
    (run : start.run updates = .ok final) :
    start.quadratic <+: final.quadratic ∧ start.affine.linear <+: final.affine.linear := by
  rw [run_eq] at run
  apply runUpdates_keeps
    (fun f => start.quadratic <+: f.quadratic ∧ start.affine.linear <+: f.affine.linear) _
    ⟨List.prefix_refl start.quadratic, List.prefix_refl start.affine.linear⟩ run
  intro update member before after kept settles
  obtain ⟨part, -, after_extends⟩ := (accumulate update member).appends before after settles
  exact ⟨kept.1.trans ⟨part.quadratic, after_extends.quadratic.symm⟩,
    kept.2.trans ⟨part.affine.linear, after_extends.affine.linear.symm⟩⟩

end QuadraticFunction

/-- A run of additions leaves what it starts from in front: behind the terms of the start stand
those that the same run makes of the zero function, and to the constant of the start that of the run
is added.  On the way no term that is there is changed, merged, moved or dropped. -/
theorem accumulation_appends (width : IntWidth) :
    (∀ (start : AffineFunction (.integer width)) (updates : List (AffineUpdate (.integer width))),
      (∀ update ∈ updates, update.Accumulates) → ∀ final, start.run updates = .ok final →
      (∀ fresh, AffineFunction.zero.run updates = .ok fresh → final.Extends start fresh) ∧
      ∀ front back, updates = front ++ back →
        ∃ before, start.run front = .ok before ∧ before.linear <+: final.linear) ∧
    ∀ (start : QuadraticFunction (.integer width))
      (updates : List (QuadraticUpdate (.integer width))),
      (∀ update ∈ updates, update.Accumulates) → ∀ final, start.run updates = .ok final →
      (∀ fresh, QuadraticFunction.zero.run updates = .ok fresh → final.Extends start fresh) ∧
      ∀ front back, updates = front ++ back →
        ∃ before, start.run front = .ok before ∧ before.quadratic <+: final.quadratic ∧
          before.affine.linear <+: final.affine.linear := by
  constructor
  · intro start updates accumulate final run
    refine ⟨fun fresh => AffineFunction.run_extends accumulate run, ?_⟩
    rintro front back rfl
    obtain ⟨before, front_run, back_run⟩ :=
      bind_eq_ok.mp ((InPlace.performAll_append ..).symm.trans run)
    refine ⟨before, front_run, AffineFunction.run_prefix ?_ back_run⟩
    exact fun update member => accumulate update (List.mem_append_right front member)
  · intro start updates accumulate final run
    refine ⟨fun fresh => QuadraticFunction.run_extends accumulate run, ?_⟩
    rintro front back rfl
    obtain ⟨before, front_run, back_run⟩ :=
      bind_eq_ok.mp ((InPlace.performAll_append ..).symm.trans run)
    refine ⟨before, front_run, QuadraticFunction.run_prefix ?_ back_run⟩
    exact fun update member => accumulate update (List.mem_append_right front member)

/-- A run that subtracts `x2 + x1 + x1` and adds its square. -/
def squareRun : List (QuadraticUpdate (.integer .bits8)) :=
  [.affine (.sub (.factor (.function (.same splitSum)))),
    .addProduct (.factorTimes (.function (.same splitSum)) (.factor (.function (.same splitSum))))]

theorem squareRun_accumulates : ∀ update ∈ squareRun, update.Accumulates := by
  rw [squareRun, List.forall_mem_cons, List.forall_mem_singleton]
  exact ⟨.affine (.sub _), .addProduct _⟩

/-- Like terms stand beside each other, those of the start in front. -/
theorem accumulation_appends_square :
    ∃ final fresh, splitProduct.run squareRun = .ok final ∧
      QuadraticFunction.zero.run squareRun = .ok fresh ∧
      final.quadratic = splitProduct.quadratic ++ fresh.quadratic ∧
      splitSum.linear <+: final.affine.linear := by
  have final_run : ∃ final, splitProduct.run squareRun = .ok final := ⟨_, rfl⟩
  have fresh_run : ∃ fresh, QuadraticFunction.zero.run squareRun = .ok fresh := ⟨_, rfl⟩
  obtain ⟨final, final_run⟩ := final_run
  obtain ⟨fresh, fresh_run⟩ := fresh_run
  obtain ⟨extended, kept⟩ :=
    (accumulation_appends .bits8).2 splitProduct squareRun squareRun_accumulates final final_run
  obtain ⟨before, nothing_run, -, linear_prefix⟩ := kept [] squareRun rfl
  cases nothing_run
  exact ⟨final, fresh, final_run, fresh_run, (extended fresh fresh_run).quadratic, linear_prefix⟩

end DegreeTwo
