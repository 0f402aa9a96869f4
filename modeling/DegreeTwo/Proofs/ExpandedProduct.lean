import DegreeTwo.Proofs.Buffers
import DegreeTwo.Proofs.Exact

/-!
# The expanded product

Adding the product of two operands of degree at most one appends its expansion: the products of all
pairs of terms, row by row, then the terms of each side times the constant of the other one, and the
product of the constants.  Nothing else is written, and the addition breaks off exactly if one of
these products, or the new constant, does not fit.
-/

namespace DegreeTwo

variable {T : ScalarType} {width : IntWidth}

/-! ## Rows of equal length -/

section Rows

variable {α β γ : Type} {relation : α → β → γ → Prop} {left : List α} {right : List β}
variable {rows : List (List γ)}

theorem length_flatten_rows
    (related : List.Forall₂ (fun a => List.Forall₂ (relation a) right) left rows) :
    rows.flatten.length = left.length * right.length := by
  induction related with
  | nil => simp
  | cons row _ ih =>
      rw [List.flatten_cons, List.length_append, ih, ← row.length_eq, List.length_cons,
        Nat.succ_mul, Nat.add_comm]

/-- The element for the `i`-th left and the `j`-th right one stands at position `j` of row `i`. -/
theorem getElem?_flatten_rows
    (related : List.Forall₂ (fun a => List.Forall₂ (relation a) right) left rows)
    (i : Fin left.length) (j : Fin right.length) :
    ∃ c, rows.flatten[i * right.length + j]? = some c ∧ relation (left.get i) (right.get j) c := by
  induction related with
  | nil => exact i.elim0
  | @cons a row as rows first _ ih =>
      rw [List.flatten_cons]
      refine Fin.cases ?_ (fun i => ?_) i
      · have inside : (j : Nat) < row.length := first.length_eq ▸ j.isLt
        refine ⟨row[j], ?_, first.get j.isLt inside⟩
        simp [List.getElem?_append_left inside]
      · obtain ⟨c, found, holds⟩ := ih i
        refine ⟨c, ?_, holds⟩
        have position : ((i.succ : Fin (as.length + 1)) : Nat) * right.length + j =
            row.length + (i * right.length + j) := by
          have same_length : right.length = row.length := first.length_eq
          rw [Fin.val_succ, Nat.succ_mul]
          omega
        rw [position, List.getElem?_append_right (Nat.le_add_right _ _), Nat.add_sub_cancel_left,
          found]

end Rows

/-! ## Exact terms -/

/-- The term is the product of two linear terms, the left variable being its row. -/
def QuadraticTerm.IsProduct (left right : LinearTerm T) (term : QuadraticTerm T) : Prop :=
  term.coeff.toInt = left.coeff.toInt * right.coeff.toInt ∧ term.row = left.var ∧
    term.col = right.var

/-- The term is a multiple of another one. -/
def LinearTerm.IsMultiple (number : Scalar T) (source term : LinearTerm T) : Prop :=
  term.coeff.toInt = source.coeff.toInt * number.toInt ∧ term.var = source.var

/-- The terms are the multiples by a constant, in order; without a constant there are none. -/
def AreMultiples : Option (Scalar T) → List (LinearTerm T) → List (LinearTerm T) → Prop
  | some constant, sources, terms => List.Forall₂ (LinearTerm.IsMultiple constant) sources terms
  | none, _, terms => terms = []

theorem LinearTerm.times_yieldsIff (left right : LinearTerm (.integer width)) :
    YieldsIff (left.times right) Fault.IsOverflow
      (width.Fits (left.coeff.toInt * right.coeff.toInt)) (QuadraticTerm.IsProduct left right) :=
  (left.coeff.mul_yieldsIff right.coeff).isOverflow.map fun _ coeff_eq => ⟨coeff_eq, rfl, rfl⟩

theorem LinearTerm.scale_yieldsIff (term : LinearTerm (.integer width))
    (number : Scalar (.integer width)) :
    YieldsIff (term.scale number) Fault.IsOverflow
      (width.Fits (term.coeff.toInt * number.toInt)) (IsMultiple number term) :=
  (term.coeff.mul_yieldsIff number).isOverflow.map fun _ coeff_eq => ⟨coeff_eq, rfl⟩

theorem scaleTerms_yieldsIff (terms : List (LinearTerm (.integer width)))
    (constant : Option (Scalar (.integer width))) :
    YieldsIff (scaleTerms terms constant) Fault.IsOverflow
      (∀ c ∈ constant, ∀ term ∈ terms, width.Fits (term.coeff.toInt * c.toInt))
      (AreMultiples constant terms) := by
  cases constant with
  | none =>
      have none_scaled : YieldsIff (scaleTerms terms none) Fault.IsOverflow True
          (AreMultiples none terms) := .pure rfl
      exact none_scaled.congr (by simp)
  | some c => exact (YieldsIff.mapM fun term _ => term.scale_yieldsIff c).congr (by simp)

/-! ## The parts of a product -/

namespace QuadraticFunction

theorem appendProducts_yieldsIff (buffer : List (QuadraticTerm (.integer width)))
    (x y : List (LinearTerm (.integer width)))
    (length_fits : buffer.length + x.length * y.length < Index.limit) :
    YieldsIff (appendProducts buffer x y) Fault.IsOverflow
      (∀ left ∈ x, ∀ right ∈ y, width.Fits (left.coeff.toInt * right.coeff.toInt)) fun after =>
        ∃ rows, after = buffer ++ rows.flatten ∧
          List.Forall₂ (fun left => List.Forall₂ (QuadraticTerm.IsProduct left) y) x rows := by
  have count_fits : x.length * y.length < Index.limit := by omega
  rw [appendProducts_eq, Index.mul_eq_ok.mpr ⟨count_fits, rfl⟩, ok_bind,
    Index.add_eq_ok.mpr ⟨length_fits, rfl⟩, ok_bind]
  refine (YieldsIff.mapM fun left _ => YieldsIff.mapM fun right _ =>
    left.times_yieldsIff right).map fun rows related => ?_
  exact ⟨rows, rfl, related⟩

theorem appendScaled_yieldsIff (buffer x y : List (LinearTerm (.integer width)))
    (xConstant yConstant : Option (Scalar (.integer width)))
    (length_fits : buffer.length + ((if yConstant.isSome then x.length else 0) +
      if xConstant.isSome then y.length else 0) < Index.limit) :
    YieldsIff (appendScaled buffer x y xConstant yConstant) Fault.IsOverflow
      ((∀ c ∈ yConstant, ∀ left ∈ x, width.Fits (left.coeff.toInt * c.toInt)) ∧
        ∀ c ∈ xConstant, ∀ right ∈ y, width.Fits (right.coeff.toInt * c.toInt)) fun after =>
        ∃ xScaled yScaled, after = buffer ++ (xScaled ++ yScaled) ∧
          AreMultiples yConstant x xScaled ∧ AreMultiples xConstant y yScaled := by
  rw [appendScaled_eq, Index.add_eq_ok.mpr ⟨by omega, rfl⟩, ok_bind,
    Index.add_eq_ok.mpr ⟨length_fits, rfl⟩, ok_bind]
  refine (scaleTerms_yieldsIff x yConstant).bind fun xScaled x_multiples => ?_
  refine (scaleTerms_yieldsIff y xConstant).map fun yScaled y_multiples => ?_
  exact ⟨xScaled, yScaled, rfl, x_multiples, y_multiples⟩

theorem addConstants_yieldsIff (constant : Scalar (.integer width))
    (xConstant yConstant : Option (Scalar (.integer width))) :
    YieldsIff (addConstants constant xConstant yConstant) Fault.IsOverflow
      (∀ a ∈ xConstant, ∀ b ∈ yConstant, width.Fits (a.toInt * b.toInt) ∧
        width.Fits (constant.toInt + a.toInt * b.toInt)) fun after =>
        (∀ a ∈ xConstant, ∀ b ∈ yConstant,
          after.toInt = constant.toInt + a.toInt * b.toInt) ∧
        (xConstant = none ∨ yConstant = none → after = constant) := by
  cases xConstant with
  | none => exact (YieldsIff.pure (by simp)).congr (by simp)
  | some a =>
      cases yConstant with
      | none => exact (YieldsIff.pure (by simp)).congr (by simp)
      | some b =>
          have sum : YieldsIff (addConstants constant (some a) (some b)) Fault.IsOverflow
              (width.Fits (a.toInt * b.toInt) ∧
                width.Fits (constant.toInt + a.toInt * b.toInt))
              fun after => after.toInt = constant.toInt + a.toInt * b.toInt := by
            refine (a.mul_yieldsIff b).isOverflow.bind fun product product_eq => ?_
            rw [← product_eq]
            exact (constant.add_yieldsIff product).isOverflow
          exact (sum.congr (by simp)).imp (by simp)

/-! ## The product -/

/-- What adding a product computes fits: the products of the terms of both sides, of the terms of
each side and the constant of the other one, and of the constants, and the new constant. -/
def ProductFits (dest : QuadraticFunction (.integer width)) (x : Factor (.integer width))
    (y : AffineOperand (.integer width)) : Prop :=
  (∀ left ∈ x.terms, ∀ right ∈ y.terms, width.Fits (left.coeff.toInt * right.coeff.toInt)) ∧
  ((∀ c ∈ y.constant?, ∀ left ∈ x.terms, width.Fits (left.coeff.toInt * c.toInt)) ∧
    ∀ c ∈ x.constant?, ∀ right ∈ y.terms, width.Fits (right.coeff.toInt * c.toInt)) ∧
  ∀ a ∈ x.constant?, ∀ b ∈ y.constant?, width.Fits (a.toInt * b.toInt) ∧
    width.Fits (dest.affine.constant.toInt + a.toInt * b.toInt)

instance (dest : QuadraticFunction (.integer width)) (x : Factor (.integer width))
    (y : AffineOperand (.integer width)) : Decidable (dest.ProductFits x y) := by
  delta ProductFits
  infer_instance

/-- The second function is the first one with the expansion of a product behind it. -/
structure Expands (dest : QuadraticFunction (.integer width)) (x : Factor (.integer width))
    (y : AffineOperand (.integer width)) (after : QuadraticFunction (.integer width)) : Prop where
  /-- The products of the terms stand behind the old quadratic terms, row by row. -/
  quadratic : ∃ products, after.quadratic = dest.quadratic ++ products ∧
    products.length = x.terms.length * y.terms.length ∧
    ∀ (i : Fin x.terms.length) (j : Fin y.terms.length), ∃ term,
      products[i * y.terms.length + j]? = some term ∧
        term.IsProduct (x.terms.get i) (y.terms.get j)
  /-- The terms of each side times the constant of the other one stand behind the old linear
  terms. -/
  linear : ∃ xScaled yScaled, after.affine.linear = dest.affine.linear ++ (xScaled ++ yScaled) ∧
    AreMultiples y.constant? x.terms xScaled ∧ AreMultiples x.constant? y.terms yScaled
  /-- The product of the constants is added to the constant. -/
  constant : ∀ a ∈ x.constant?, ∀ b ∈ y.constant?,
    after.affine.constant.toInt = dest.affine.constant.toInt + a.toInt * b.toInt
  /-- Where a side has no constant, the constant stays as it is. -/
  constant_of_none : x.constant? = none ∨ y.constant? = none →
    after.affine.constant = dest.affine.constant

theorem addFactorProduct_yieldsIff (dest : QuadraticFunction (.integer width))
    (x : Factor (.integer width)) (y : AffineOperand (.integer width))
    (quadratic_length : dest.quadratic.length + x.terms.length * y.terms.length < Index.limit)
    (linear_length : dest.affine.linear.length +
      ((if y.constant?.isSome then x.terms.length else 0) +
        if x.constant?.isSome then y.terms.length else 0) < Index.limit) :
    YieldsIff (dest.addFactorProduct x y) Fault.IsOverflow (dest.ProductFits x y)
      (dest.Expands x y) := by
  refine (appendProducts_yieldsIff _ _ _ quadratic_length).bind ?_
  rintro _ ⟨rows, rfl, products⟩
  refine (appendScaled_yieldsIff _ _ _ _ _ linear_length).bind ?_
  rintro linear linear_eq
  refine (addConstants_yieldsIff _ _ _).map ?_
  rintro constant ⟨constant_eq, constant_same⟩
  exact ⟨⟨rows.flatten, rfl, length_flatten_rows products, getElem?_flatten_rows products⟩,
    linear_eq, constant_eq, constant_same⟩

end QuadraticFunction

/-- Adding the product of a variable, linear term or affine function and an operand of degree at
most one returns a function exactly if all products and the new constant fit, and this function is
the destination with the expanded product behind it; otherwise an integer overflows. -/
theorem factorProduct_expanded (dest : QuadraticFunction (.integer width))
    (x : Factor (.integer width)) (y : AffineOperand (.integer width))
    (quadratic_length : dest.quadratic.length + x.terms.length * y.terms.length < Index.limit)
    (linear_length : dest.affine.linear.length +
      ((if y.constant?.isSome then x.terms.length else 0) +
        if x.constant?.isSome then y.terms.length else 0) < Index.limit) :
    ((∃ after, dest.addProduct (.factorTimes x y) = .ok after ∧ dest.Expands x y after) ↔
        dest.ProductFits x y) ∧
      ((∃ fault, dest.addProduct (.factorTimes x y) = .error fault ∧ fault.IsOverflow) ↔
        ¬ dest.ProductFits x y) := by
  have outcome := dest.addFactorProduct_yieldsIff x y quadratic_length linear_length
  exact ⟨outcome.ok_iff, outcome.error_iff⟩

/-- A function of one variable, as a left factor. -/
def unaryFactor : Factor (.integer .bits8) :=
  .function (.same ⟨[⟨⟨5, by decide, by decide⟩, ⟨1⟩⟩], ⟨3, by decide, by decide⟩⟩)

/-- A function of two variables, as a right factor. -/
def binaryOperand : AffineOperand (.integer .bits8) :=
  .factor (.function (.same ⟨[⟨.one, ⟨2⟩⟩, ⟨.minusOne, ⟨3⟩⟩], .minusOne⟩))

/-- A function that has terms already. -/
def startedFunction (constant : Scalar (.integer .bits8)) :
    QuadraticFunction (.integer .bits8) :=
  ⟨[⟨.one, ⟨2⟩, ⟨1⟩⟩], [⟨.one, ⟨4⟩⟩], constant⟩

theorem factorProduct_expanded_started :
    (∃ after, (startedFunction .one).addProduct (.factorTimes unaryFactor binaryOperand) =
        .ok after ∧ (startedFunction .one).Expands unaryFactor binaryOperand after) ∧
      ∃ fault, (startedFunction ⟨-127, by decide, by decide⟩).addProduct
        (.factorTimes unaryFactor binaryOperand) = .error fault ∧ fault.IsOverflow := by
  constructor
  · exact (factorProduct_expanded (startedFunction .one) unaryFactor binaryOperand (by decide)
      (by decide)).1.mpr (by decide)
  · exact (factorProduct_expanded (startedFunction ⟨-127, by decide, by decide⟩) unaryFactor
      binaryOperand (by decide) (by decide)).2.mpr (by decide)

end DegreeTwo
