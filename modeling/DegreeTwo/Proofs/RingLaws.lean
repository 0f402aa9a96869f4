import DegreeTwo.Proofs.MergingAnytime

/-!
# Ring laws

Sums and products of functions depend, as lists of terms, on the order and the bracketing in which
they are computed: terms stand in another order, pairs are turned around, and coefficients are split
differently.  What is mentioned and the value at every point do not depend on it, and these
determine the canonical form.  So the laws of a commutative ring hold of canonical forms, as long as
no integer overflows, and no term has to be dropped for it.
-/

namespace DegreeTwo

variable {T : ScalarType} {width : IntWidth}

/-! ## Agreement -/

/-- Unless one of them overflows, the two computations return the same result. -/
def AgreeUnlessOverflow {α : Type} (first second : Except Fault α) : Prop :=
  (∀ operation, first ≠ .error (.overflow operation)) →
  (∀ operation, second ≠ .error (.overflow operation)) →
  ∃ result, first = .ok result ∧ second = .ok result

/-- Unless an integer overflows, the two functions have the same canonical form. -/
def AffineFunction.SameCanonical (first second : Except Fault (AffineFunction T)) : Prop :=
  AgreeUnlessOverflow (first >>= canonicalize) (second >>= canonicalize)

/-- Unless an integer overflows, the two functions have the same canonical form. -/
def QuadraticFunction.SameCanonical (first second : Except Fault (QuadraticFunction T)) : Prop :=
  AgreeUnlessOverflow (first >>= canonicalize) (second >>= canonicalize)

/-- Where the inputs that two computations compute lead to the same results, the computations of the
results agree. -/
theorem AgreeUnlessOverflow.bind_of_yields {α β : Type} {first second : Except Fault α}
    {next : α → Except Fault β} {property : α → Prop} (first_yields : Yields first property)
    (second_yields : Yields second property)
    (next_yields : ∀ input, Yields (next input) fun _ => True)
    (same : ∀ {left right leftResult rightResult}, property left → property right →
      next left = .ok leftResult → next right = .ok rightResult → leftResult = rightResult) :
    AgreeUnlessOverflow (first >>= next) (second >>= next) := by
  have delivers {computation : Except Fault α} (yields : Yields computation property) :
      Yields (computation >>= next) fun result =>
        ∃ input, property input ∧ next input = .ok result :=
    yields.bind fun input holds =>
      (next_yields input).imp_of_ok fun _ succeeds _ => ⟨input, holds, succeeds⟩
  intro first_fits second_fits
  obtain ⟨leftResult, first_succeeds, left, left_holds, left_next⟩ :=
    (delivers first_yields).exists_ok first_fits
  obtain ⟨rightResult, second_succeeds, right, right_holds, right_next⟩ :=
    (delivers second_yields).exists_ok second_fits
  obtain rfl := same left_holds right_holds left_next right_next
  exact ⟨leftResult, first_succeeds, second_succeeds⟩

/-! ## Readings of computed functions -/

/-- The function mentions these variables and has this value at every point. -/
abbrev AffineFunction.Reads (f : AffineFunction T) (mentions : Set Variable)
    (value : (Variable → Int) → Int) : Prop :=
  SameReading f.variables mentions (f.value ·) value

/-- The function mentions these variables and pairs and has this value at every point. -/
abbrev QuadraticFunction.Reads (f : QuadraticFunction T)
    (mentions : Set Variable × Set (Sym2 Variable)) (value : (Variable → Int) → Int) : Prop :=
  SameReading f.mentions mentions (f.value ·) value

/-- An affine function as an operand for a destination of its own type. -/
abbrev AffineFunction.operand (f : AffineFunction T) : AffineOperand T :=
  .factor (.function (.same f))

/-- The product of two affine functions for a destination of their own type. -/
abbrev QuadraticProduct.ofFunctions (x y : AffineFunction T) : QuadraticProduct T :=
  .factorTimes (.function (.same x)) y.operand

/-- What the product of two functions mentions that mention these variables. -/
def productMentions (left right : Set Variable) : Set Variable × Set (Sym2 Variable) :=
  (left ∪ right, Set.image2 (fun row col => s(row, col)) left right)

theorem productMentions_comm (left right : Set Variable) :
    productMentions left right = productMentions right left := by
  refine Prod.ext (Set.union_comm left right) ?_
  exact (Set.image2_swap _ _ _).trans (Set.image2_congr fun _ _ _ _ => Sym2.eq_swap)

theorem productMentions_union (left right other : Set Variable) :
    productMentions left (right ∪ other) =
      productMentions left right ⊔ productMentions left other := by
  refine Prod.ext ?_ Set.image2_union_right
  exact Set.union_union_distrib_left left right other

theorem SameReading.with_value {M : Type} {mentions others : M} {u v w : (Variable → Int) → Int}
    (reading : SameReading mentions others u v) (same : ∀ point, v point = w point) :
    SameReading mentions others u w :=
  reading.trans ⟨rfl, same⟩

theorem AffineFunction.variables_operand (f : AffineFunction T) :
    f.operand.variables = f.variables :=
  LinearTerm.varSet_map_widen (ScalarType.le_refl T) f.linear

theorem QuadraticProduct.mentions_ofFunctions (x y : AffineFunction T) :
    (ofFunctions x y).mentions = productMentions x.variables y.variables := by
  rw [mentions, Factor.productMentions]
  exact congrArg₂ productMentions x.variables_operand y.variables_operand

namespace AffineFunction

variable {f g : AffineFunction (.integer width)} {s t : Set Variable}
variable {u v : (Variable → Int) → Int}

theorem reads (f : AffineFunction T) : f.Reads f.variables (f.value ·) := ⟨rfl, fun _ => rfl⟩

theorem Reads.add (left : f.Reads s u) (right : g.Reads t v) :
    Yields (f.add g.operand) fun sum => sum.Reads (s ∪ t) fun point => u point + v point := by
  apply (f.add_yields g.operand).imp_of_ok
  intro sum added value
  constructor
  · rw [variables_of_addScaled added, g.variables_operand, left.mentions, right.mentions]
  · intro point
    rw [← left.value, ← right.value]
    exact value point

theorem Reads.scale (reading : f.Reads s u) (number : Scalar (.integer width)) :
    Yields (f.scale number) fun multiple =>
      multiple.Reads s fun point => u point * number.toInt := by
  apply (f.scale_yields number).imp_of_ok
  intro multiple scales value
  exact ⟨(variables_of_scale scales).trans reading.mentions,
    fun point => (value point).trans (congrArg (· * _) (reading.value point))⟩

theorem Reads.times (left : f.Reads s u) (right : g.Reads t v) :
    Yields (f.times g) fun product =>
      product.Reads (productMentions s t) fun point => u point * v point := by
  apply (f.times_yields g).imp_of_ok
  intro product multiplies value
  constructor
  · rw [QuadraticFunction.mentions_of_times multiplies, left.mentions, right.mentions]
    rfl
  · intro point
    rw [← left.value, ← right.value]
    exact value point

/-- Functions with the same reading have the same canonical form. -/
theorem sameCanonical_of_reads {first second : Except Fault (AffineFunction (.integer width))}
    (first_reads : Yields first fun h => h.Reads s u)
    (second_reads : Yields second fun h => h.Reads s u) : SameCanonical first second := by
  apply AgreeUnlessOverflow.bind_of_yields first_reads second_reads
  · exact fun input => input.canonicalize_yields.imp fun _ _ => trivial
  · intro left right leftResult rightResult left_reads right_reads left_merges right_merges
    have alike : left.Alike right := left_reads.trans right_reads.symm
    exact alike.canonicalize_eq left_merges right_merges

/-- Overwriting a destination with a sum leaves the sum. -/
theorem setSum_functions (dest f g : AffineFunction T) :
    dest.setSum f.operand g.operand = f.add g.operand := by
  have assigned : dest.setTo f.operand = .ok f := congrArg pure (dest.overwrite_same f)
  rw [setSum, assigned, ok_bind]

end AffineFunction

namespace QuadraticFunction

variable {f g : QuadraticFunction (.integer width)} {m n : Set Variable × Set (Sym2 Variable)}
variable {u v : (Variable → Int) → Int}

theorem reads (f : QuadraticFunction T) : f.Reads f.mentions (f.value ·) := ⟨rfl, fun _ => rfl⟩

theorem Reads.add (left : f.Reads m u) (right : g.Reads n v) :
    Yields (f.add (.function (.same g))) fun sum =>
      sum.Reads (m ⊔ n) fun point => u point + v point := by
  apply (f.add_yields (.function (.same g))).imp_of_ok
  intro sum added value
  constructor
  · rw [mentions_of_addScaled added, left.mentions]
    exact congrArg (m ⊔ ·) right.mentions
  · intro point
    rw [← left.value, ← right.value]
    exact value point

theorem Reads.scale (reading : f.Reads m u) (number : Scalar (.integer width)) :
    Yields (f.scale number) fun multiple =>
      multiple.Reads m fun point => u point * number.toInt := by
  apply (f.scale_yields number).imp_of_ok
  intro multiple scales value
  exact ⟨(mentions_of_scale scales).trans reading.mentions,
    fun point => (value point).trans (congrArg (· * _) (reading.value point))⟩

theorem Reads.addProduct (reading : f.Reads m u) (product : QuadraticProduct (.integer width)) :
    Yields (f.addProduct product) fun sum =>
      sum.Reads (m ⊔ product.mentions) fun point => u point + product.value point := by
  apply (f.addProduct_yields product).imp_of_ok
  intro sum added value
  constructor
  · rw [mentions_of_addProduct added, reading.mentions]
  · intro point
    rw [value, reading.value]

theorem setProduct_reads (dest : QuadraticFunction (.integer width))
    (product : QuadraticProduct (.integer width)) :
    Yields (dest.setProduct product) fun after =>
      after.Reads product.mentions fun point => product.value point :=
  (dest.setProduct_yields product).imp_of_ok fun _ assigned value =>
    ⟨mentions_of_setProduct assigned, value⟩

/-- Functions with the same reading have the same canonical form. -/
theorem sameCanonical_of_reads {first second : Except Fault (QuadraticFunction (.integer width))}
    (first_reads : Yields first fun h => h.Reads m u)
    (second_reads : Yields second fun h => h.Reads m u) : SameCanonical first second := by
  apply AgreeUnlessOverflow.bind_of_yields first_reads second_reads
  · exact fun input => input.canonicalize_yields.imp fun _ _ => trivial
  · intro left right leftResult rightResult left_reads right_reads left_merges right_merges
    -- The terms of the two may differ in order and number; what they are read as is the same.
    have alike : left.Alike right := left_reads.trans right_reads.symm
    exact alike.canonicalize_eq left_merges right_merges

/-- Overwriting a destination with a sum leaves the sum. -/
theorem setSum_functions (dest f g : QuadraticFunction T) :
    dest.setSum (.function (.same f)) (.function (.same g)) = f.add (.function (.same g)) := by
  have assigned : dest.setTo (.function (.same f)) = .ok f := congrArg pure (dest.overwrite_same f)
  rw [setSum, assigned, ok_bind]

end QuadraticFunction

/-! ## The laws -/

namespace AffineFunction

variable (x y z : AffineFunction (.integer width))

theorem add_comm : SameCanonical (x.add y.operand) (y.add x.operand) := by
  apply sameCanonical_of_reads (x.reads.add y.reads)
  apply (y.reads.add x.reads).imp
  intro sum reading
  rw [Set.union_comm]
  exact reading.with_value fun point => Int.add_comm _ _

theorem add_assoc :
    SameCanonical
      (do
        let sum ← x.add y.operand
        sum.add z.operand)
      (do
        let sum ← y.add z.operand
        x.add sum.operand) := by
  have left_first := (x.reads.add y.reads).bind fun _ reading => reading.add z.reads
  have right_first := (y.reads.add z.reads).bind fun _ reading => x.reads.add reading
  apply sameCanonical_of_reads left_first
  apply right_first.imp
  intro sum reading
  rw [Set.union_assoc]
  exact reading.with_value fun point => (Int.add_assoc _ _ _).symm

theorem times_comm : QuadraticFunction.SameCanonical (x.times y) (y.times x) := by
  apply QuadraticFunction.sameCanonical_of_reads (x.reads.times y.reads)
  apply (y.reads.times x.reads).imp
  intro product reading
  rw [productMentions_comm]
  exact reading.with_value fun point => Int.mul_comm _ _

/-- The product with a sum is the sum of the products, the second of which is added to the first one
in place. -/
theorem times_add (dest : QuadraticFunction (.integer width)) :
    QuadraticFunction.SameCanonical
      (do
        let sum ← y.add z.operand
        x.times sum)
      (do
        let first ← dest.setProduct (.ofFunctions x y)
        first.addProduct (.ofFunctions x z)) := by
  have product_of_sum := (y.reads.add z.reads).bind fun _ reading => x.reads.times reading
  apply QuadraticFunction.sameCanonical_of_reads product_of_sum
  apply (dest.setProduct_reads (.ofFunctions x y)).bind
  intro first first_reads
  apply (first_reads.addProduct (.ofFunctions x z)).imp
  intro sum reading
  rw [productMentions_union, ← QuadraticProduct.mentions_ofFunctions,
    ← QuadraticProduct.mentions_ofFunctions]
  exact reading.with_value fun point => (Int.mul_add _ _ _).symm

variable (number : Scalar (.integer width))

theorem scale_times_reads :
    Yields (x.scale number >>= fun multiple => multiple.times y) fun product =>
      product.Reads (productMentions x.variables y.variables) fun point =>
        x.value point * y.value point * number.toInt := by
  apply (x.reads.scale number).bind
  intro multiple multiple_reads
  apply (multiple_reads.times y.reads).imp
  intro product reading
  exact reading.with_value fun point => Int.mul_right_comm _ _ _

theorem times_scale_reads :
    Yields (y.scale number >>= fun multiple => x.times multiple) fun product =>
      product.Reads (productMentions x.variables y.variables) fun point =>
        x.value point * y.value point * number.toInt := by
  apply (y.reads.scale number).bind
  intro multiple multiple_reads
  apply (x.reads.times multiple_reads).imp
  intro product reading
  exact reading.with_value fun point => (Int.mul_assoc _ _ _).symm

theorem product_scale_reads :
    Yields (x.times y >>= fun product => product.scale number) fun multiple =>
      multiple.Reads (productMentions x.variables y.variables) fun point =>
        x.value point * y.value point * number.toInt :=
  (x.reads.times y.reads).bind fun _ reading => reading.scale number

end AffineFunction

namespace QuadraticFunction

variable (f g h : QuadraticFunction (.integer width))

theorem add_comm :
    SameCanonical (f.add (.function (.same g))) (g.add (.function (.same f))) := by
  apply sameCanonical_of_reads (f.reads.add g.reads)
  apply (g.reads.add f.reads).imp
  intro sum reading
  rw [sup_comm]
  exact reading.with_value fun point => Int.add_comm _ _

theorem add_assoc :
    SameCanonical
      (do
        let sum ← f.add (.function (.same g))
        sum.add (.function (.same h)))
      (do
        let sum ← g.add (.function (.same h))
        f.add (.function (.same sum))) := by
  have left_first := (f.reads.add g.reads).bind fun _ reading => reading.add h.reads
  have right_first := (g.reads.add h.reads).bind fun _ reading => f.reads.add reading
  apply sameCanonical_of_reads left_first
  apply right_first.imp
  intro sum reading
  rw [sup_assoc]
  exact reading.with_value fun point => (Int.add_assoc _ _ _).symm

end QuadraticFunction

/-- The laws of a commutative ring hold of canonical forms as long as no integer overflows: products
commute and distribute over sums, the second product being added to the first in place; a number may
be multiplied with either function or with their product; sums commute and associate.  A sum or
product that overwrites a destination is the same function. -/
theorem ring_laws (width : IntWidth) :
    (∀ x y z : AffineFunction (.integer width),
      QuadraticFunction.SameCanonical (x.times y) (y.times x) ∧
      ∀ dest : QuadraticFunction (.integer width),
        dest.setProduct (.ofFunctions x y) = x.times y ∧
        QuadraticFunction.SameCanonical
          (do
            let sum ← y.add z.operand
            x.times sum)
          (do
            let first ← dest.setProduct (.ofFunctions x y)
            first.addProduct (.ofFunctions x z))) ∧
    (∀ (x y : AffineFunction (.integer width)) (number : Scalar (.integer width)),
      QuadraticFunction.SameCanonical
        (do
          let multiple ← x.scale number
          multiple.times y)
        (do
          let multiple ← y.scale number
          x.times multiple) ∧
      QuadraticFunction.SameCanonical
        (do
          let multiple ← y.scale number
          x.times multiple)
        (do
          let product ← x.times y
          product.scale number) ∧
      QuadraticFunction.SameCanonical
        (do
          let multiple ← x.scale number
          multiple.times y)
        (do
          let product ← x.times y
          product.scale number)) ∧
    (∀ x y z : AffineFunction (.integer width),
      AffineFunction.SameCanonical (x.add y.operand) (y.add x.operand) ∧
      AffineFunction.SameCanonical
        (do
          let sum ← x.add y.operand
          sum.add z.operand)
        (do
          let sum ← y.add z.operand
          x.add sum.operand) ∧
      ∀ dest : AffineFunction (.integer width),
        dest.setSum x.operand y.operand = x.add y.operand) ∧
    ∀ f g h : QuadraticFunction (.integer width),
      QuadraticFunction.SameCanonical (f.add (.function (.same g))) (g.add (.function (.same f))) ∧
      QuadraticFunction.SameCanonical
        (do
          let sum ← f.add (.function (.same g))
          sum.add (.function (.same h)))
        (do
          let sum ← g.add (.function (.same h))
          f.add (.function (.same sum))) ∧
      ∀ dest : QuadraticFunction (.integer width),
        dest.setSum (.function (.same f)) (.function (.same g)) = f.add (.function (.same g)) := by
  refine ⟨?products, ?numbers, ?affine_sums, ?quadratic_sums⟩
  case products => exact fun x y z => ⟨x.times_comm y, fun dest => ⟨rfl, x.times_add y z dest⟩⟩
  case numbers =>
    intro x y number
    have first_scaled := x.scale_times_reads y number
    have second_scaled := x.times_scale_reads y number
    have product_scaled := x.product_scale_reads y number
    exact ⟨QuadraticFunction.sameCanonical_of_reads first_scaled second_scaled,
      QuadraticFunction.sameCanonical_of_reads second_scaled product_scaled,
      QuadraticFunction.sameCanonical_of_reads first_scaled product_scaled⟩
  case affine_sums =>
    exact fun x y z => ⟨x.add_comm y, x.add_assoc y z, fun dest => dest.setSum_functions x y⟩
  case quadratic_sums =>
    exact fun f g h => ⟨f.add_comm g, f.add_assoc g h, fun dest => dest.setSum_functions f g⟩

/-- The product of `-x1` and `x2 + x1 + x1`. -/
def turnedSquare : QuadraticFunction (.integer .bits8) :=
  ⟨[⟨.minusOne, ⟨1⟩, ⟨2⟩⟩, ⟨.minusOne, ⟨1⟩, ⟨1⟩⟩, ⟨.minusOne, ⟨1⟩, ⟨1⟩⟩],
    [⟨.zero, ⟨1⟩⟩, ⟨.zero, ⟨2⟩⟩, ⟨.zero, ⟨1⟩⟩, ⟨.zero, ⟨1⟩⟩], .zero⟩

theorem turnedSquare_canonicalize : turnedSquare.canonicalize = .ok canonicalSquare := by
  rw [QuadraticFunction.canonicalize_eq, AffineFunction.canonicalize_eq,
    mergeByKey_eq_filterMapM LinearTerm.addsTotals.preservesKey,
    mergeByKey_eq_filterMapM QuadraticTerm.addsTotals.preservesKey]
  rfl

/-- The two products of `x2 + x1 + x1` and `-x1` differ in order and orientation only. -/
theorem ring_laws_turned :
    (splitSum.times oppositeVariable >>= QuadraticFunction.canonicalize) =
      (oppositeVariable.times splitSum >>= QuadraticFunction.canonicalize) := by
  have split_fits : (splitSum.times oppositeVariable >>= QuadraticFunction.canonicalize) =
      .ok canonicalSquare := splitSquare_canonicalize
  have turned_fits : (oppositeVariable.times splitSum >>= QuadraticFunction.canonicalize) =
      .ok canonicalSquare := turnedSquare_canonicalize
  obtain ⟨result, split, turned⟩ := ((ring_laws .bits8).1 splitSum oppositeVariable .zero).1
    (by rw [split_fits]; exact fun _ => nofun) (by rw [turned_fits]; exact fun _ => nofun)
  exact split.trans turned.symm

end DegreeTwo
