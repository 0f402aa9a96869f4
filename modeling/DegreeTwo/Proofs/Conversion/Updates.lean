import DegreeTwo.Proofs.Conversion.Arrays
import DegreeTwo.Proofs.Updates

/-!
# Converting beforehand

Converting any of its operands to the type of the destination does not change what an update makes
of any destination, and converting a function and an assignment to their common type does not change
the value.  So nothing is computed in a narrower type, where it could overflow or be rounded.
-/

namespace DegreeTwo

variable {T V : ScalarType}

/-! ## Updates -/

/-- The second update is the first one, possibly with operands converted. -/
inductive AffineUpdate.MayConvert : AffineUpdate T → AffineUpdate T → Prop
  | keep (update : AffineUpdate T) : MayConvert update update
  | overwrite {x y : Below AffineFunction T} (may : x.MayConvert y) :
      MayConvert (.overwrite x) (.overwrite y)
  | add {x y : AffineOperand T} (may : x.MayConvert y) : MayConvert (.add x) (.add y)
  | sub {x y : AffineOperand T} (may : x.MayConvert y) : MayConvert (.sub x) (.sub y)
  | addScaled {x y : AffineOperand T} (may : x.MayConvert y) (scale : Scalar T) :
      MayConvert (.addScaled x scale) (.addScaled y scale)
  | setTo {x y : AffineOperand T} (may : x.MayConvert y) : MayConvert (.setTo x) (.setTo y)
  | setSum {x y u v : AffineOperand T} (left : x.MayConvert y) (right : u.MayConvert v) :
      MayConvert (.setSum x u) (.setSum y v)
  | setDifference {x y u v : AffineOperand T} (left : x.MayConvert y) (right : u.MayConvert v) :
      MayConvert (.setDifference x u) (.setDifference y v)
  | addProduct {product other : AffineProduct T} (may : product.MayConvert other) :
      MayConvert (.addProduct product) (.addProduct other)
  | setProduct {product other : AffineProduct T} (may : product.MayConvert other) :
      MayConvert (.setProduct product) (.setProduct other)
  | dot {x y : AffineFactors T} (may : x.MayConvert y) : MayConvert (.dot x) (.dot y)
  | dotTerms {x y : TermFactors T} (may : x.MayConvert y) : MayConvert (.dotTerms x) (.dotTerms y)

/-- The second update is the first one, possibly with operands converted. -/
inductive QuadraticUpdate.MayConvert : QuadraticUpdate T → QuadraticUpdate T → Prop
  | keep (update : QuadraticUpdate T) : MayConvert update update
  | overwrite {x y : Below QuadraticFunction T} (may : x.MayConvert y) :
      MayConvert (.overwrite x) (.overwrite y)
  | add {x y : QuadraticOperand T} (may : x.MayConvert y) : MayConvert (.add x) (.add y)
  | sub {x y : QuadraticOperand T} (may : x.MayConvert y) : MayConvert (.sub x) (.sub y)
  | addScaled {x y : QuadraticOperand T} (may : x.MayConvert y) (scale : Scalar T) :
      MayConvert (.addScaled x scale) (.addScaled y scale)
  | setTo {x y : QuadraticOperand T} (may : x.MayConvert y) : MayConvert (.setTo x) (.setTo y)
  | setSum {x y u v : QuadraticOperand T} (left : x.MayConvert y) (right : u.MayConvert v) :
      MayConvert (.setSum x u) (.setSum y v)
  | setDifference {x y u v : QuadraticOperand T} (left : x.MayConvert y)
      (right : u.MayConvert v) : MayConvert (.setDifference x u) (.setDifference y v)
  | addProduct {product other : QuadraticProduct T} (may : product.MayConvert other) :
      MayConvert (.addProduct product) (.addProduct other)
  | setProduct {product other : QuadraticProduct T} (may : product.MayConvert other) :
      MayConvert (.setProduct product) (.setProduct other)
  | dot {x y : QuadraticFactors T} (may : x.MayConvert y) : MayConvert (.dot x) (.dot y)
  | bilinear {matrix other : Below ScalarMatrix T} (may : matrix.MayConvert other)
      (x y : List Variable) : MayConvert (.bilinear matrix x y) (.bilinear other x y)
  | affine {update other : AffineUpdate T} (may : update.MayConvert other) :
      MayConvert (.affine update) (.affine other)

/-- The second update is the first one, possibly with operands converted. -/
inductive VectorUpdate.MayConvert : VectorUpdate T → VectorUpdate T → Prop
  | keep (update : VectorUpdate T) : MayConvert update update
  | setSum {x y u v : List (AffineOperand T)} (left : List.Forall₂ AffineOperand.MayConvert x y)
      (right : List.Forall₂ AffineOperand.MayConvert u v) :
      MayConvert (.setSum x u) (.setSum y v)
  | setDifference {x y u v : List (AffineOperand T)}
      (left : List.Forall₂ AffineOperand.MayConvert x y)
      (right : List.Forall₂ AffineOperand.MayConvert u v) :
      MayConvert (.setDifference x u) (.setDifference y v)
  | matMul {matrix other : Below ScalarMatrix T} {x y : Column T}
      (left : matrix.MayConvert other) (right : x.MayConvert y) :
      MayConvert (.matMul matrix x) (.matMul other y)
  | scale {x y : List (AffineOperand T)} {number other : Below Scalar T}
      (left : List.Forall₂ AffineOperand.MayConvert x y) (right : number.MayConvert other) :
      MayConvert (.scale x number) (.scale y other)
  | multiplesOf {numbers others : List (Below Scalar T)} {operand other : AffineOperand T}
      (left : List.Forall₂ Below.MayConvert numbers others) (right : operand.MayConvert other) :
      MayConvert (.multiplesOf numbers operand) (.multiplesOf others other)
  | concat {x y : List (List (Below AffineFunction T))}
      (may : List.Forall₂ (List.Forall₂ Below.MayConvert) x y) :
      MayConvert (.concat x) (.concat y)
  | element (i : Nat) {update other : AffineUpdate T} (may : update.MayConvert other) :
      MayConvert (.element i update) (.element i other)

theorem AffineUpdate.MayConvert.apply_eq {update other : AffineUpdate T}
    (may : update.MayConvert other) (dest : AffineFunction T) :
    update.apply dest = other.apply dest := by
  rw [AffineUpdate.apply_eq, AffineUpdate.apply_eq]
  cases may with
  | keep => rfl
  | overwrite may => exact congrArg pure (dest.overwrite_converted may)
  | add may => exact congrArg liftM (dest.addScaled_converted may .one)
  | sub may => exact congrArg liftM (dest.addScaled_converted may .minusOne)
  | addScaled may scale => exact congrArg liftM (dest.addScaled_converted may scale)
  | setTo may => exact congrArg liftM (dest.setTo_converted may)
  | setSum left right => exact congrArg liftM (dest.setSum_converted left right)
  | setDifference left right => exact congrArg liftM (dest.setDifference_converted left right)
  | addProduct may => exact congrArg liftM (dest.addProduct_converted may)
  | setProduct may => exact congrArg liftM (dest.clear.addProduct_converted may)
  | dot may => exact dest.dot_converted may
  | dotTerms may => exact dest.dotTerms_converted may

theorem QuadraticUpdate.MayConvert.apply_eq {update other : QuadraticUpdate T}
    (may : update.MayConvert other) (dest : QuadraticFunction T) :
    update.apply dest = other.apply dest := by
  rw [QuadraticUpdate.apply_eq, QuadraticUpdate.apply_eq]
  cases may with
  | keep => rfl
  | overwrite may => exact congrArg pure (dest.overwrite_converted may)
  | add may => exact congrArg liftM (dest.addScaled_converted may .one)
  | sub may => exact congrArg liftM (dest.addScaled_converted may .minusOne)
  | addScaled may scale => exact congrArg liftM (dest.addScaled_converted may scale)
  | setTo may => exact congrArg liftM (dest.setTo_converted may)
  | setSum left right => exact congrArg liftM (dest.setSum_converted left right)
  | setDifference left right => exact congrArg liftM (dest.setDifference_converted left right)
  | addProduct may => exact congrArg liftM (dest.addProduct_converted may)
  | setProduct may => exact congrArg liftM (dest.clear.addProduct_converted may)
  | dot may => exact dest.dot_converted may
  | bilinear may x y => exact dest.setBilinear_converted may x y
  | affine may => simp only [may.apply_eq dest.affine]

theorem VectorUpdate.MayConvert.apply_eq {update other : VectorUpdate T}
    (may : update.MayConvert other) (dest : AffineVector T) :
    update.apply dest = other.apply dest := by
  rw [VectorUpdate.apply_eq, VectorUpdate.apply_eq]
  cases may with
  | keep => rfl
  | setSum left right => exact dest.setSum_converted left right
  | setDifference left right => exact dest.setDifference_converted left right
  | matMul left right => exact dest.setMatrixProduct_converted left right
  | scale left right => exact congrArg liftM (dest.setMultiples_converted left right)
  | multiplesOf left right => exact congrArg liftM (dest.setMultiplesOf_converted left right)
  | concat may => exact dest.setConcatenation_converted may
  | element i may => exact bind_congr fun f => by rw [may.apply_eq f]

/-- Runs of the same updates, some with operands converted, have the same outcome. -/
theorem runUpdates_converted {σ υ : Type} {apply : υ → σ → Except Failure σ}
    {updates others : List υ}
    (same : List.Forall₂ (fun update other => ∀ state, apply update state = apply other state)
      updates others) (start : σ) :
    runUpdates apply updates start = runUpdates apply others start :=
  foldlM_eq_of_forall₂ (same.imp fun _ _ same state => congrArg (settle state) (same state)) start

theorem AffineFunction.run_converted {updates others : List (AffineUpdate T)}
    (may : List.Forall₂ AffineUpdate.MayConvert updates others) (start : AffineFunction T) :
    start.run updates = start.run others := by
  rw [run_eq, run_eq]
  exact runUpdates_converted (may.imp fun _ _ may => may.apply_eq) start

theorem QuadraticFunction.run_converted {updates others : List (QuadraticUpdate T)}
    (may : List.Forall₂ QuadraticUpdate.MayConvert updates others) (start : QuadraticFunction T) :
    start.run updates = start.run others := by
  rw [run_eq, run_eq]
  exact runUpdates_converted (may.imp fun _ _ may => may.apply_eq) start

theorem AffineVector.run_converted {updates others : List (VectorUpdate T)}
    (may : List.Forall₂ VectorUpdate.MayConvert updates others) (start : AffineVector T) :
    start.run updates = start.run others := by
  rw [run_eq, run_eq]
  exact runUpdates_converted (may.imp fun _ _ may => may.apply_eq) start

/-! ## Evaluations -/

/-- The assignment with its values in a type above. -/
def Assignment.widen {S : ScalarType} (h : S ≤ T) : Assignment S → Assignment T
  | .dense values => .dense (values.map (Scalar.widen h))
  | .sparse entries => .sparse (entries.map fun entry => (entry.1, entry.2.widen h))

theorem Assignment.value?_widen {S : ScalarType} (h : S ≤ T) (values : Assignment S)
    (x : Variable) : (values.widen h).value? x = (values.value? x).map (Scalar.widen h) := by
  cases values with
  | dense values => exact List.getElem?_map
  | sparse entries =>
      rw [widen, value?, value?, ← List.map_reverse, List.find?_map, Option.map_map, Option.map_map]
      rfl

theorem Assignment.lookup_widen {S : ScalarType} (h : S ≤ T) (values : Assignment S)
    (x : Variable) : (values.widen h).lookup x = Scalar.widen h <$> values.lookup x := by
  rw [lookup, lookup, value?_widen]
  cases values.value? x <;> rfl

section EvaluateIn

variable {C : ScalarType} (coeff_le : T ≤ C) (value_le : V ≤ C)

/-- The value of a function in any type above those of coefficients and values. -/
def AffineFunction.evaluateIn (f : AffineFunction T) (values : Assignment V) :
    Except Failure (Scalar C) :=
  f.linear.foldlM (fun sum term => do
    let value ← values.lookup term.var
    let product ← (term.coeff.widen coeff_le).mul (value.widen value_le)
    sum.add product) (f.constant.widen coeff_le)

/-- The value of a function in any type above those of coefficients and values. -/
def QuadraticFunction.evaluateIn (f : QuadraticFunction T) (values : Assignment V) :
    Except Failure (Scalar C) := do
  let start ← f.affine.evaluateIn coeff_le value_le values
  f.quadratic.foldlM (fun sum term => do
    let row ← values.lookup term.row
    let col ← values.lookup term.col
    let left ← (term.coeff.widen coeff_le).mul (row.widen value_le)
    let product ← left.mul (col.widen value_le)
    sum.add product) start

theorem AffineFunction.evaluateIn_widen (f : AffineFunction T) (values : Assignment V) :
    (f.widen coeff_le).evaluateIn (ScalarType.le_refl C) (ScalarType.le_refl C)
      (values.widen value_le) = f.evaluateIn coeff_le value_le values := by
  rw [evaluateIn, evaluateIn, linear_widen, constant_widen, Scalar.widen_self]
  apply foldlM_eq_of_forall₂
  refine List.forall₂_map_left_iff.mpr (List.forall₂_same.mpr fun term _ sum => ?_)
  simp only [LinearTerm.widen, Assignment.lookup_widen, bind_map_left, Scalar.widen_self]

theorem QuadraticFunction.evaluateIn_widen (f : QuadraticFunction T) (values : Assignment V) :
    (f.widen coeff_le).evaluateIn (ScalarType.le_refl C) (ScalarType.le_refl C)
      (values.widen value_le) = f.evaluateIn coeff_le value_le values := by
  rw [evaluateIn, evaluateIn, quadratic_widen, affine_widen, AffineFunction.evaluateIn_widen]
  refine bind_congr fun start => foldlM_eq_of_forall₂ ?_ start
  refine List.forall₂_map_left_iff.mpr (List.forall₂_same.mpr fun term _ sum => ?_)
  simp only [QuadraticTerm.widen, Assignment.lookup_widen, bind_map_left, Scalar.widen_self]

end EvaluateIn

/-- The type that a type has in common with itself is this type. -/
theorem ScalarType.common_self (C : ScalarType) : C.common C = C := ite_self _

/-- What is computed in the common type of a type and itself is computed in this type. -/
theorem ScalarType.heq_of_common_self {C : ScalarType} {β : ScalarType → Type}
    (outcome : ∀ D, C ≤ D → C ≤ D → β D) :
    HEq (outcome (C.common C) (C.left_le_common C) (C.right_le_common C))
      (outcome C (ScalarType.le_refl C) (ScalarType.le_refl C)) := by
  -- The types of the two bounds mention the common type, so it is replaced together with them.
  have in_equal_type : ∀ (D : ScalarType) (left right : C ≤ D), D = C →
      HEq (outcome D left right) (outcome C (ScalarType.le_refl C) (ScalarType.le_refl C)) := by
    rintro _ _ _ rfl
    rfl
  exact in_equal_type _ _ _ C.common_self

/-- Evaluating a function and values of one type takes place in this type. -/
theorem AffineFunction.evaluate_heq {C : ScalarType} (f : AffineFunction C)
    (values : Assignment C) :
    HEq (f.evaluate values)
      (f.evaluateIn (ScalarType.le_refl C) (ScalarType.le_refl C) values) :=
  ScalarType.heq_of_common_self fun _ left right => f.evaluateIn left right values

/-- Evaluating a function and values of one type takes place in this type. -/
theorem QuadraticFunction.evaluate_heq {C : ScalarType} (f : QuadraticFunction C)
    (values : Assignment C) :
    HEq (f.evaluate values)
      (f.evaluateIn (ScalarType.le_refl C) (ScalarType.le_refl C) values) :=
  ScalarType.heq_of_common_self fun _ left right => f.evaluateIn left right values

/-- Converting to the common type of coefficients and values does not change the value. -/
theorem AffineFunction.evaluate_converted (f : AffineFunction T) (values : Assignment V) :
    HEq ((f.widen (T.left_le_common V)).evaluate (values.widen (T.right_le_common V)))
      (f.evaluate values) :=
  (evaluate_heq _ _).trans (heq_of_eq (f.evaluateIn_widen _ _ values))

/-- Converting to the common type of coefficients and values does not change the value. -/
theorem QuadraticFunction.evaluate_converted (f : QuadraticFunction T) (values : Assignment V) :
    HEq ((f.widen (T.left_le_common V)).evaluate (values.widen (T.right_le_common V)))
      (f.evaluate values) :=
  (evaluate_heq _ _).trans (heq_of_eq (f.evaluateIn_widen _ _ values))

/-- Operands of lower types may be converted to the type of the destination beforehand: the outcome
is the same whichever of them are, for every update of every destination and for every run.  A
function and the values that it is evaluated at may be converted to their common type beforehand. -/
theorem converted_operands_agree (T : ScalarType) :
    (∀ update other : AffineUpdate T, update.MayConvert other →
      ∀ dest, update.apply dest = other.apply dest) ∧
    (∀ update other : QuadraticUpdate T, update.MayConvert other →
      ∀ dest, update.apply dest = other.apply dest) ∧
    (∀ update other : VectorUpdate T, update.MayConvert other →
      ∀ dest, update.apply dest = other.apply dest) ∧
    (∀ updates others : List (AffineUpdate T),
      List.Forall₂ AffineUpdate.MayConvert updates others →
      ∀ start : AffineFunction T, start.run updates = start.run others) ∧
    (∀ updates others : List (QuadraticUpdate T),
      List.Forall₂ QuadraticUpdate.MayConvert updates others →
      ∀ start : QuadraticFunction T, start.run updates = start.run others) ∧
    (∀ updates others : List (VectorUpdate T),
      List.Forall₂ VectorUpdate.MayConvert updates others →
      ∀ start : AffineVector T, start.run updates = start.run others) ∧
    ∀ (V : ScalarType) (values : Assignment V),
      (∀ f : AffineFunction T,
        HEq ((f.widen (T.left_le_common V)).evaluate (values.widen (T.right_le_common V)))
          (f.evaluate values)) ∧
      ∀ f : QuadraticFunction T,
        HEq ((f.widen (T.left_le_common V)).evaluate (values.widen (T.right_le_common V)))
          (f.evaluate values) :=
  ⟨fun _ _ may => may.apply_eq, fun _ _ may => may.apply_eq, fun _ _ may => may.apply_eq,
    fun _ _ may => AffineFunction.run_converted may,
    fun _ _ may => QuadraticFunction.run_converted may,
    fun _ _ may => AffineVector.run_converted may,
    fun _ values => ⟨fun f => f.evaluate_converted values, fun f => f.evaluate_converted values⟩⟩

/-- The function `100 * x1`, for a destination with wider coefficients. -/
def hundredfold : Below AffineFunction (.integer .bits16) :=
  ⟨.integer .bits8, by decide, [⟨⟨100, by decide, by decide⟩, ⟨1⟩⟩], .zero⟩

/-- The number `100`, for a destination with wider coefficients. -/
def hundred : Below Scalar (.integer .bits16) :=
  ⟨.integer .bits8, by decide, 100, by decide, by decide⟩

/-- The product `10000 * x1` fits the wide type only, converted before or not. -/
theorem converted_operands_agree_hundred :
    AffineFunction.zero.dot (.factorTimes [.function hundredfold] [hundred]) =
        .ok ⟨[⟨⟨10000, by decide, by decide⟩, ⟨1⟩⟩], .zero⟩ ∧
      AffineFunction.zero.dot (.factorTimes [.function hundredfold.converted] [hundred]) =
        .ok ⟨[⟨⟨10000, by decide, by decide⟩, ⟨1⟩⟩], .zero⟩ := by
  have narrow : AffineFunction.zero.dot (.factorTimes [.function hundredfold] [hundred]) =
      .ok ⟨[⟨⟨10000, by decide, by decide⟩, ⟨1⟩⟩], .zero⟩ := rfl
  have may : (AffineUpdate.dot (.factorTimes [.function hundredfold] [hundred])).MayConvert
      (.dot (.factorTimes [.function hundredfold.converted] [hundred])) :=
    .dot (.factorTimes (.cons (.function (.convert hundredfold)) .nil)
      (.cons (.keep hundred) .nil))
  exact ⟨narrow, ((converted_operands_agree _).1 _ _ may .zero).symm.trans narrow⟩

end DegreeTwo
