import DegreeTwo.Proofs.Value.Basic

/-!
# Reading written functions

The text of an integer function can be read back.  Its words are the numbers, the variables and the
two operators, and none of them contains a space.  A term ends with a plus sign; a quadratic term is
told from a linear one by the sign behind its first variable, and the constant by standing alone.
So no two functions have the same text.
-/

namespace DegreeTwo

variable {width : IntWidth}

/-! ## Words -/

/-- The words of a text, which single spaces separate. -/
def words (text : String) : List (List Char) := text.toList.splitOn ' '

theorem words_of_no_space {word : String} (no_space : ' ' ∉ word.toList) :
    words word = [word.toList] :=
  List.splitOn_eq_singleton no_space

theorem words_append {word : String} (no_space : ' ' ∉ word.toList) (rest : String) :
    words (word ++ (" " ++ rest)) = word.toList :: words rest := by
  rw [words, String.toList_append, String.toList_append]
  exact List.splitOn_append_cons_self_of_not_mem no_space rest.toList

/-! ## Decimal numbers -/

/-- The number that a word of decimal digits denotes. -/
def decimal? (word : List Char) : Option Nat :=
  if !word.isEmpty && word.all Char.isDigit then some (Nat.ofDigitChars 10 word 0) else none

/-- The integer that a word of decimal digits, with or without a sign, denotes. -/
def integer? : List Char → Option Int
  | '-' :: word => (decimal? word).map fun n : Nat => -(n : Int)
  | word => (decimal? word).map Int.ofNat

theorem toList_repr (n : Nat) : n.repr.toList = Nat.toDigits 10 n := by
  rw [Nat.repr_eq_ofList_toDigits, String.toList_ofList]

theorem isDigit_of_mem_repr {n : Nat} {c : Char} (member : c ∈ n.repr.toList) : c.isDigit := by
  rw [toList_repr] at member
  exact Nat.isDigit_of_mem_toDigits (by decide) (by decide) member

/-- A digit is not a space. -/
theorem space_not_mem_repr (n : Nat) : ' ' ∉ n.repr.toList := fun member =>
  absurd (isDigit_of_mem_repr member) (by decide)

theorem decimal?_repr (n : Nat) : decimal? n.repr.toList = some n := by
  have nonempty : !n.repr.toList.isEmpty := by
    rw [toList_repr, Bool.not_eq_true', List.isEmpty_eq_false_iff]
    exact Nat.toDigits_ne_nil
  have digits : n.repr.toList.all Char.isDigit := List.all_eq_true.mpr fun _ => isDigit_of_mem_repr
  rw [decimal?, if_pos (Bool.and_eq_true_iff.mpr ⟨nonempty, digits⟩), toList_repr,
    Nat.ofDigitChars_ten_toDigits]

theorem integer?_repr_nat (n : Nat) : integer? n.repr.toList = some (n : Int) := by
  have unsigned : ∀ word, n.repr.toList ≠ '-' :: word := by
    intro word signed
    exact absurd (isDigit_of_mem_repr (signed ▸ List.mem_cons_self)) (by decide)
  rw [integer?, decimal?_repr]
  · rfl
  · exact unsigned

theorem integer?_repr (a : Int) : integer? a.repr.toList = some a := by
  rw [Int.repr_eq_if]
  split
  · next nonneg => rw [integer?_repr_nat, Int.toNat_of_nonneg nonneg]
  · next negative =>
      have signed : ("-" ++ (-a).toNat.repr).toList = '-' :: (-a).toNat.repr.toList :=
        String.toList_append
      rw [signed, integer?, decimal?_repr, Option.map_some, Int.toNat_of_nonneg (by omega),
        Int.neg_neg]

/-! ## Coefficients and variables -/

namespace Scalar

/-- The integer of the width that a word denotes. -/
def read? (word : List Char) : Option (Scalar (.integer width)) :=
  (integer? word).bind BoundedInt.ofInt?

theorem render_eq (a : Scalar (.integer width)) : a.render = a.toInt.repr :=
  Int.toString_eq_repr

theorem space_not_mem_render (a : Scalar (.integer width)) : ' ' ∉ a.render.toList := by
  rw [render_eq, Int.repr_eq_if]
  split
  · exact space_not_mem_repr _
  · rw [String.toList_append, List.mem_append, not_or]
    exact ⟨by decide, space_not_mem_repr _⟩

theorem read?_render (a : Scalar (.integer width)) : read? a.render.toList = some a := by
  rw [read?, render_eq, integer?_repr]
  exact dif_pos ⟨a.lower, a.upper⟩

end Scalar

namespace Variable

/-- The variable that a word denotes. -/
def read? : List Char → Option Variable
  | 'x' :: digits => (decimal? digits).map Variable.mk
  | _ => none

theorem toList_render (x : Variable) : x.render.toList = 'x' :: x.index.repr.toList := by
  rw [render, String.toList_append]
  rfl

theorem space_not_mem_render (x : Variable) : ' ' ∉ x.render.toList := by
  rw [toList_render, List.mem_cons, not_or]
  exact ⟨by decide, space_not_mem_repr x.index⟩

theorem read?_render (x : Variable) : read? x.render.toList = some x := by
  rw [toList_render, read?, decimal?_repr]
  rfl

end Variable

/-! ## Terms -/

theorem LinearTerm.words_render (term : LinearTerm (.integer width)) (rest : String) :
    words (term.render ++ " + " ++ rest) =
      term.coeff.render.toList :: ['*'] :: term.var.render.toList :: ['+'] :: words rest := by
  have spaced : term.render ++ " + " ++ rest = term.coeff.render ++ (" " ++ ("*" ++ (" " ++
      (term.var.render ++ (" " ++ ("+" ++ (" " ++ rest))))))) := by
    simp only [render, monomial, Monomial.render, String.append_assoc]
    rfl
  rw [spaced, words_append term.coeff.space_not_mem_render, words_append (by decide),
    words_append term.var.space_not_mem_render, words_append (by decide)]
  rfl

theorem QuadraticTerm.words_render (term : QuadraticTerm (.integer width)) (rest : String) :
    words (term.render ++ " + " ++ rest) =
      term.coeff.render.toList :: ['*'] :: term.row.render.toList :: ['*'] ::
        term.col.render.toList :: ['+'] :: words rest := by
  have spaced : term.render ++ " + " ++ rest = term.coeff.render ++ (" " ++ ("*" ++ (" " ++
      (term.row.render ++ (" " ++ ("*" ++ (" " ++ (term.col.render ++ (" " ++ ("+" ++ (" " ++
        rest))))))))))) := by
    simp only [render, monomial, Monomial.render, String.append_assoc]
    rfl
  rw [spaced, words_append term.coeff.space_not_mem_render, words_append (by decide),
    words_append term.row.space_not_mem_render, words_append (by decide),
    words_append term.col.space_not_mem_render, words_append (by decide)]
  rfl

/-! ## Functions -/

namespace AffineFunction

/-- The function that a list of words denotes: linear terms with their plus signs, and then the
constant. -/
def ofWords? : List (List Char) → Option (AffineFunction (.integer width))
  | [constant] => do
      let constant ← Scalar.read? constant
      pure ⟨[], constant⟩
  | coeff :: ['*'] :: var :: ['+'] :: rest => do
      let coeff ← Scalar.read? coeff
      let var ← Variable.read? var
      let f ← ofWords? rest
      pure ⟨⟨coeff, var⟩ :: f.linear, f.constant⟩
  | _ => none

/-- The function that a text denotes. -/
def read? (width : IntWidth) (text : String) : Option (AffineFunction (.integer width)) :=
  ofWords? (words text)

theorem render_nil (constant : Scalar (.integer width)) :
    (⟨[], constant⟩ : AffineFunction (.integer width)).render = constant.render :=
  String.empty_append

theorem render_cons (term : LinearTerm (.integer width))
    (terms : List (LinearTerm (.integer width))) (constant : Scalar (.integer width)) :
    (⟨term :: terms, constant⟩ : AffineFunction (.integer width)).render =
      term.render ++ " + " ++ (⟨terms, constant⟩ : AffineFunction (.integer width)).render := by
  rw [render, render, List.map_cons, String.join_cons, String.append_assoc]

theorem read?_render (f : AffineFunction (.integer width)) : read? width f.render = some f := by
  obtain ⟨terms, constant⟩ := f
  rw [read?]
  induction terms with
  | nil =>
      rw [render_nil, words_of_no_space constant.space_not_mem_render, ofWords?,
        Scalar.read?_render]
      rfl
  | cons term terms ih =>
      rw [render_cons, term.words_render, ofWords?, Scalar.read?_render, Variable.read?_render, ih]
      rfl

end AffineFunction

namespace QuadraticFunction

/-- The function that a list of words denotes: quadratic terms with their plus signs, and then an
affine function. -/
def ofWords? : List (List Char) → Option (QuadraticFunction (.integer width))
  | coeff :: ['*'] :: row :: ['*'] :: col :: ['+'] :: rest => do
      let coeff ← Scalar.read? coeff
      let row ← Variable.read? row
      let col ← Variable.read? col
      let f ← ofWords? rest
      pure ⟨⟨coeff, row, col⟩ :: f.quadratic, f.affine⟩
  | affine => (AffineFunction.ofWords? affine).map ofAffine

/-- The function that a text denotes. -/
def read? (width : IntWidth) (text : String) : Option (QuadraticFunction (.integer width)) :=
  ofWords? (words text)

theorem render_nil (affine : AffineFunction (.integer width)) :
    (⟨[], affine⟩ : QuadraticFunction (.integer width)).render = affine.render :=
  String.empty_append

theorem render_cons (term : QuadraticTerm (.integer width))
    (terms : List (QuadraticTerm (.integer width))) (affine : AffineFunction (.integer width)) :
    (⟨term :: terms, affine⟩ : QuadraticFunction (.integer width)).render =
      term.render ++ " + " ++ (⟨terms, affine⟩ : QuadraticFunction (.integer width)).render := by
  rw [render, render, List.map_cons, String.join_cons, String.append_assoc]

/-- Behind the first variable of an affine function stands no second one. -/
theorem read?_affine (affine : AffineFunction (.integer width)) :
    read? width affine.render = (AffineFunction.read? width affine.render).map ofAffine := by
  obtain ⟨terms, constant⟩ := affine
  rw [read?, AffineFunction.read?]
  cases terms with
  | nil =>
      rw [AffineFunction.render_nil, words_of_no_space constant.space_not_mem_render, ofWords?]
      exact nofun
  | cons term terms =>
      rw [AffineFunction.render_cons, term.words_render, ofWords?]
      rintro coeff row col rest ⟨⟩

theorem read?_render (f : QuadraticFunction (.integer width)) :
    read? width f.render = some f := by
  obtain ⟨terms, affine⟩ := f
  induction terms with
  | nil =>
      rw [render_nil, read?_affine, AffineFunction.read?_render]
      rfl
  | cons term terms ih =>
      rw [read?] at ih ⊢
      rw [render_cons, term.words_render, ofWords?, Scalar.read?_render, Variable.read?_render,
        Variable.read?_render, ih]
      rfl

end QuadraticFunction

/-- A function can be read back from its text, with its quadratic terms, its linear terms and its
constant apart.  So two functions have one text exactly if they have the same terms in the same
order and the same constant. -/
theorem rendering_is_faithful (width : IntWidth) :
    (∀ f : AffineFunction (.integer width), AffineFunction.read? width f.render = some f) ∧
    (∀ f : QuadraticFunction (.integer width), QuadraticFunction.read? width f.render = some f) ∧
    (∀ f g : AffineFunction (.integer width),
      f.render = g.render ↔ f.linear = g.linear ∧ f.constant = g.constant) ∧
    ∀ f g : QuadraticFunction (.integer width),
      f.render = g.render ↔ f.quadratic = g.quadratic ∧ f.affine.linear = g.affine.linear ∧
        f.affine.constant = g.affine.constant := by
  refine ⟨AffineFunction.read?_render, QuadraticFunction.read?_render, fun f g => ?_, fun f g => ?_⟩
  · constructor
    · intro same_text
      obtain rfl : f = g := by
        apply Option.some.inj
        rw [← f.read?_render, same_text, g.read?_render]
      exact ⟨rfl, rfl⟩
    · rintro ⟨same_linear, same_constant⟩
      rw [AffineFunction.render, same_linear, same_constant, AffineFunction.render]
  · constructor
    · intro same_text
      obtain rfl : f = g := by
        apply Option.some.inj
        rw [← f.read?_render, same_text, g.read?_render]
      exact ⟨rfl, rfl, rfl⟩
    · rintro ⟨same_quadratic, same_linear, same_constant⟩
      rw [QuadraticFunction.render, QuadraticFunction.render, AffineFunction.render,
        AffineFunction.render, same_quadratic, same_linear, same_constant]

example : (⟨[⟨⟨11, by decide, by decide⟩, ⟨1⟩, ⟨2⟩⟩], [⟨⟨-12, by decide, by decide⟩, ⟨2⟩⟩],
      ⟨15, by decide, by decide⟩⟩ : QuadraticFunction (.integer .bits8)).render =
    "11 * x1 * x2 + -12 * x2 + 15" := by decide

end DegreeTwo
