import DegreeTwo.Proofs.Mentions
import DegreeTwo.Proofs.Value.Expr
import DegreeTwo.Proofs.Value.Updates

/-!
# Merging at any time

Two functions are alike if they mention the same variables and pairs and have the same value at
every point.  A function and its canonical form are alike, and what the updates below make of alike
functions and operands is alike again.  So it does not matter when like terms are merged: merging
the result is enough to obtain the same function.
-/

namespace DegreeTwo

variable {S T : ScalarType} {width : IntWidth}

/-! ## Functions that are alike -/

/-- Two things mention the same and have the same value at every point. -/
structure SameReading {M : Type} (mentions others : M) (value other : (Variable → Int) → Int) :
    Prop where
  /-- What they mention is the same. -/
  mentions : mentions = others
  /-- The values are the same. -/
  value : ∀ point, value point = other point

theorem SameReading.symm {M : Type} {first second : M} {u v : (Variable → Int) → Int}
    (same : SameReading first second u v) : SameReading second first v u :=
  ⟨same.mentions.symm, fun point => (same.value point).symm⟩

theorem SameReading.trans {M : Type} {first second third : M} {u v w : (Variable → Int) → Int}
    (left : SameReading first second u v) (right : SameReading second third v w) :
    SameReading first third u w :=
  ⟨left.mentions.trans right.mentions, fun point => (left.value point).trans (right.value point)⟩

/-- Two affine functions mention the same variables and have the same values. -/
abbrev AffineFunction.Alike (f : AffineFunction S) (g : AffineFunction T) : Prop :=
  SameReading f.variables g.variables (f.value ·) (g.value ·)

/-- Two quadratic functions mention the same variables and pairs and have the same values. -/
abbrev QuadraticFunction.Alike (f : QuadraticFunction S) (g : QuadraticFunction T) : Prop :=
  SameReading f.mentions g.mentions (f.value ·) (g.value ·)

theorem AffineFunction.alike_canonicalize {f canonical : AffineFunction (.integer width)}
    (succeeds : f.canonicalize = .ok canonical) : f.Alike canonical :=
  ⟨(variables_of_canonicalize succeeds).symm,
    fun point => (f.canonicalize_yields.result succeeds point).symm⟩

theorem QuadraticFunction.alike_canonicalize {f canonical : QuadraticFunction (.integer width)}
    (succeeds : f.canonicalize = .ok canonical) : f.Alike canonical :=
  ⟨(mentions_of_canonicalize succeeds).symm,
    fun point => (f.canonicalize_yields.result succeeds point).symm⟩

theorem AffineFunction.Alike.canonicalize_eq
    {f g fCanonical gCanonical : AffineFunction (.integer width)} (alike : f.Alike g)
    (f_succeeds : f.canonicalize = .ok fCanonical) (g_succeeds : g.canonicalize = .ok gCanonical) :
    fCanonical = gCanonical :=
  (canonicalize_eq_iff f_succeeds g_succeeds).mpr ⟨alike.mentions, alike.value⟩

theorem QuadraticFunction.Alike.canonicalize_eq
    {f g fCanonical gCanonical : QuadraticFunction (.integer width)} (alike : f.Alike g)
    (f_succeeds : f.canonicalize = .ok fCanonical) (g_succeeds : g.canonicalize = .ok gCanonical) :
    fCanonical = gCanonical :=
  (canonicalize_eq_iff f_succeeds g_succeeds).mpr
    ⟨congrArg Prod.fst alike.mentions, congrArg Prod.snd alike.mentions, alike.value⟩

/-! ## Operands with functions in canonical form -/

/-- The second function is the first one or its canonical form in its own coefficient type. -/
inductive Below.MayMerge {F : ScalarType → Type}
    (canonicalize : (S : ScalarType) → F S → Except Fault (F S)) : Below F T → Below F T → Prop
  | keep (x : Below F T) : MayMerge canonicalize x x
  | merge {S : ScalarType} (h : S ≤ T) {f g : F S} (succeeds : canonicalize S f = .ok g) :
      MayMerge canonicalize ⟨S, h, f⟩ ⟨S, h, g⟩

/-- The second factor is the first one, possibly with its function in canonical form. -/
inductive Factor.MayMerge : Factor T → Factor T → Prop
  | var (x : Variable) : MayMerge (.var x) (.var x)
  | term (x : Below LinearTerm T) : MayMerge (.term x) (.term x)
  | function {x y : Below AffineFunction T}
      (may : x.MayMerge (fun _ => AffineFunction.canonicalize) y) :
      MayMerge (.function x) (.function y)

/-- The second operand is the first one, possibly with its function in canonical form. -/
inductive AffineOperand.MayMerge : AffineOperand T → AffineOperand T → Prop
  | number (x : Below Scalar T) : MayMerge (.number x) (.number x)
  | factor {x y : Factor T} (may : x.MayMerge y) : MayMerge (.factor x) (.factor y)

/-- The second operand is the first one, possibly with its function in canonical form. -/
inductive QuadraticOperand.MayMerge : QuadraticOperand T → QuadraticOperand T → Prop
  | affine {x y : AffineOperand T} (may : x.MayMerge y) : MayMerge (.affine x) (.affine y)
  | term (x : Below QuadraticTerm T) : MayMerge (.term x) (.term x)
  | function {x y : Below QuadraticFunction T}
      (may : x.MayMerge (fun _ => QuadraticFunction.canonicalize) y) :
      MayMerge (.function x) (.function y)

/-- The second product is the first one, possibly with functions in canonical form. -/
inductive AffineProduct.MayMerge : AffineProduct T → AffineProduct T → Prop
  | numberTimes (number : Below Scalar T) {x y : AffineOperand T} (may : x.MayMerge y) :
      MayMerge (.numberTimes number x) (.numberTimes number y)
  | factorTimes {x y : Factor T} (may : x.MayMerge y) (number : Below Scalar T) :
      MayMerge (.factorTimes x number) (.factorTimes y number)

/-- The second product is the first one, possibly with functions in canonical form. -/
inductive QuadraticProduct.MayMerge : QuadraticProduct T → QuadraticProduct T → Prop
  | numberTimes (number : Below Scalar T) {x y : QuadraticOperand T} (may : x.MayMerge y) :
      MayMerge (.numberTimes number x) (.numberTimes number y)
  | factorTimes {x y : Factor T} {u v : AffineOperand T} (left : x.MayMerge y)
      (right : u.MayMerge v) : MayMerge (.factorTimes x u) (.factorTimes y v)
  | termTimes (term : Below QuadraticTerm T) (number : Below Scalar T) :
      MayMerge (.termTimes term number) (.termTimes term number)
  | functionTimes {x y : Below QuadraticFunction T}
      (may : x.MayMerge (fun _ => QuadraticFunction.canonicalize) y) (number : Below Scalar T) :
      MayMerge (.functionTimes x number) (.functionTimes y number)

/-- The second lists are the first ones, possibly with functions in canonical form. -/
inductive AffineFactors.MayMerge : AffineFactors T → AffineFactors T → Prop
  | numberTimes (numbers : List (Below Scalar T)) {x y : List (AffineOperand T)}
      (may : List.Forall₂ AffineOperand.MayMerge x y) :
      MayMerge (.numberTimes numbers x) (.numberTimes numbers y)
  | factorTimes {x y : List (Factor T)} (may : List.Forall₂ Factor.MayMerge x y)
      (numbers : List (Below Scalar T)) :
      MayMerge (.factorTimes x numbers) (.factorTimes y numbers)

/-- The second lists are the first ones, possibly with functions in canonical form. -/
inductive QuadraticFactors.MayMerge : QuadraticFactors T → QuadraticFactors T → Prop
  | numberTimes (numbers : List (Below Scalar T)) {x y : List (QuadraticOperand T)}
      (may : List.Forall₂ QuadraticOperand.MayMerge x y) :
      MayMerge (.numberTimes numbers x) (.numberTimes numbers y)
  | factorTimes {x y : List (Factor T)} {u v : List (AffineOperand T)}
      (left : List.Forall₂ Factor.MayMerge x y) (right : List.Forall₂ AffineOperand.MayMerge u v) :
      MayMerge (.factorTimes x u) (.factorTimes y v)
  | termTimes (terms : List (Below QuadraticTerm T)) (numbers : List (Below Scalar T)) :
      MayMerge (.termTimes terms numbers) (.termTimes terms numbers)
  | functionTimes {x y : List (Below QuadraticFunction T)}
      (may : List.Forall₂ (Below.MayMerge fun _ => QuadraticFunction.canonicalize) x y)
      (numbers : List (Below Scalar T)) :
      MayMerge (.functionTimes x numbers) (.functionTimes y numbers)

/-! ## Operands that are alike -/

theorem AffineFunction.alike_of_mayMerge {x y : Below AffineFunction (.integer width)}
    (may : x.MayMerge (fun _ => canonicalize) y) : x.value.Alike y.value := by
  cases may with
  | keep => exact ⟨rfl, fun _ => rfl⟩
  | merge h succeeds =>
      obtain ⟨narrow, rfl⟩ := ScalarType.exists_integer h
      exact alike_canonicalize succeeds

theorem QuadraticFunction.alike_of_mayMerge {x y : Below QuadraticFunction (.integer width)}
    (may : x.MayMerge (fun _ => canonicalize) y) : x.value.Alike y.value := by
  cases may with
  | keep => exact ⟨rfl, fun _ => rfl⟩
  | merge h succeeds =>
      obtain ⟨narrow, rfl⟩ := ScalarType.exists_integer h
      exact alike_canonicalize succeeds

theorem Factor.MayMerge.alike {x y : Factor (.integer width)} (may : x.MayMerge y) :
    SameReading x.variables y.variables (x.value ·) (y.value ·) := by
  cases may with
  | var x => exact ⟨rfl, fun _ => rfl⟩
  | term x => exact ⟨rfl, fun _ => rfl⟩
  | @function f g may =>
      have alike := AffineFunction.alike_of_mayMerge may
      refine ⟨?_, alike.value⟩
      calc
        (Factor.function f).variables = f.value.variables :=
          LinearTerm.varSet_map_widen f.source_le f.value.linear
        _ = g.value.variables := alike.mentions
        _ = (Factor.function g).variables :=
          (LinearTerm.varSet_map_widen g.source_le g.value.linear).symm

/-- Merging leaves a factor with a constant, or without one. -/
theorem Factor.MayMerge.same_constant {x y : Factor T} (may : x.MayMerge y) :
    x.constant?.isSome = y.constant?.isSome := by
  cases may <;> rfl

theorem AffineOperand.MayMerge.alike {x y : AffineOperand (.integer width)} (may : x.MayMerge y) :
    SameReading x.variables y.variables (x.value ·) (y.value ·) := by
  cases may with
  | number x => exact ⟨rfl, fun _ => rfl⟩
  | factor may => exact may.alike

/-- Merging leaves an operand with a constant, or without one. -/
theorem AffineOperand.MayMerge.same_constant {x y : AffineOperand T} (may : x.MayMerge y) :
    x.constant?.isSome = y.constant?.isSome := by
  cases may with
  | number x => rfl
  | factor may => exact may.same_constant

theorem QuadraticOperand.MayMerge.alike {x y : QuadraticOperand (.integer width)}
    (may : x.MayMerge y) :
    SameReading x.mentions y.mentions (x.value ·) (y.value ·) := by
  cases may with
  | affine may => exact ⟨Prod.ext may.alike.mentions rfl, may.alike.value⟩
  | term x => exact ⟨rfl, fun _ => rfl⟩
  | function may => exact QuadraticFunction.alike_of_mayMerge may

theorem AffineProduct.MayMerge.alike {x y : AffineProduct (.integer width)} (may : x.MayMerge y) :
    SameReading x.variables y.variables (x.value ·) (y.value ·) := by
  cases may with
  | numberTimes number may =>
      exact ⟨may.alike.mentions, fun point => congrArg (_ * ·) (may.alike.value point)⟩
  | factorTimes may number =>
      exact ⟨may.alike.mentions, fun point => congrArg (· * _) (may.alike.value point)⟩

theorem QuadraticProduct.MayMerge.alike {x y : QuadraticProduct (.integer width)}
    (may : x.MayMerge y) :
    SameReading x.mentions y.mentions (x.value ·) (y.value ·) := by
  cases may with
  | numberTimes number may =>
      exact ⟨may.alike.mentions, fun point => congrArg (_ * ·) (may.alike.value point)⟩
  | factorTimes left right =>
      constructor
      · simp only [mentions, Factor.productMentions, left.alike.mentions, left.same_constant,
          right.alike.mentions, right.same_constant]
      · intro point
        exact congrArg₂ (· * ·) (left.alike.value point) (right.alike.value point)
  | termTimes term number => exact ⟨rfl, fun _ => rfl⟩
  | functionTimes may number =>
      have alike := QuadraticFunction.alike_of_mayMerge may
      exact ⟨alike.mentions, fun point => congrArg (· * _) (alike.value point)⟩

/-! ## Lists of factors that are alike -/

theorem AffineFactors.MayMerge.products {x y : AffineFactors T} (may : x.MayMerge y) :
    List.Forall₂ AffineProduct.MayMerge x.products y.products := by
  cases may with
  | numberTimes numbers may => exact forall₂_zipWith_left .numberTimes numbers may
  | factorTimes may numbers => exact forall₂_zipWith_right .factorTimes may numbers

theorem QuadraticFactors.MayMerge.products {x y : QuadraticFactors T} (may : x.MayMerge y) :
    List.Forall₂ QuadraticProduct.MayMerge x.products y.products := by
  cases may with
  | numberTimes numbers may => exact forall₂_zipWith_left .numberTimes numbers may
  | factorTimes left right => exact forall₂_zipWith .factorTimes left right
  | termTimes terms numbers =>
      have same_numbers : List.Forall₂ Eq numbers numbers := List.forall₂_refl numbers
      apply forall₂_zipWith_left _ terms same_numbers
      rintro term number _ rfl
      exact .termTimes term number
  | functionTimes may numbers => exact forall₂_zipWith_right .functionTimes may numbers

theorem AffineFactors.MayMerge.same_lengths {x y : AffineFactors T} (may : x.MayMerge y) :
    x.leftLength = y.leftLength ∧ x.rightLength = y.rightLength := by
  cases may with
  | numberTimes numbers may => exact ⟨rfl, may.length_eq⟩
  | factorTimes may numbers => exact ⟨may.length_eq, rfl⟩

theorem QuadraticFactors.MayMerge.same_lengths {x y : QuadraticFactors T} (may : x.MayMerge y) :
    x.leftLength = y.leftLength ∧ x.rightLength = y.rightLength := by
  cases may with
  | numberTimes numbers may => exact ⟨rfl, may.length_eq⟩
  | factorTimes left right => exact ⟨left.length_eq, right.length_eq⟩
  | termTimes terms numbers => exact ⟨rfl, rfl⟩
  | functionTimes may numbers => exact ⟨may.length_eq, rfl⟩

theorem AffineFactors.MayMerge.alike {x y : AffineFactors (.integer width)} (may : x.MayMerge y) :
    SameReading x.variables y.variables (x.value ·) (y.value ·) := by
  constructor
  · rw [AffineFactors.variables, AffineFactors.variables,
      map_eq_of_forall₂ (fun may => may.alike.mentions) may.products]
  · intro point
    rw [← sum_products, ← sum_products,
      map_eq_of_forall₂ (fun may => may.alike.value point) may.products]

theorem QuadraticFactors.MayMerge.alike {x y : QuadraticFactors (.integer width)}
    (may : x.MayMerge y) :
    SameReading x.mentions y.mentions (x.value ·) (y.value ·) := by
  constructor
  · rw [mentions, mentions, map_eq_of_forall₂ (fun may => may.alike.mentions) may.products]
  · intro point
    rw [← sum_products, ← sum_products,
      map_eq_of_forall₂ (fun may => may.alike.value point) may.products]

/-! ## Updates -/

/-- The second update is the first one, possibly with functions in canonical form. -/
inductive AffineUpdate.MayMerge : AffineUpdate T → AffineUpdate T → Prop
  | clear : MayMerge .clear .clear
  | set {f g : AffineFunction T}
      (may : (Below.same f).MayMerge (fun _ => AffineFunction.canonicalize) (.same g)) :
      MayMerge (.set f) (.set g)
  | overwrite {x y : Below AffineFunction T}
      (may : x.MayMerge (fun _ => AffineFunction.canonicalize) y) :
      MayMerge (.overwrite x) (.overwrite y)
  | add {x y : AffineOperand T} (may : x.MayMerge y) : MayMerge (.add x) (.add y)
  | sub {x y : AffineOperand T} (may : x.MayMerge y) : MayMerge (.sub x) (.sub y)
  | addScaled {x y : AffineOperand T} (may : x.MayMerge y) (number : Scalar T) :
      MayMerge (.addScaled x number) (.addScaled y number)
  | setTo {x y : AffineOperand T} (may : x.MayMerge y) : MayMerge (.setTo x) (.setTo y)
  | setSum {x y u v : AffineOperand T} (left : x.MayMerge y) (right : u.MayMerge v) :
      MayMerge (.setSum x u) (.setSum y v)
  | setDifference {x y u v : AffineOperand T} (left : x.MayMerge y) (right : u.MayMerge v) :
      MayMerge (.setDifference x u) (.setDifference y v)
  | addProduct {x y : AffineProduct T} (may : x.MayMerge y) :
      MayMerge (.addProduct x) (.addProduct y)
  | setProduct {x y : AffineProduct T} (may : x.MayMerge y) :
      MayMerge (.setProduct x) (.setProduct y)
  | dot {x y : AffineFactors T} (may : x.MayMerge y) : MayMerge (.dot x) (.dot y)
  | dotTerms (x : TermFactors T) : MayMerge (.dotTerms x) (.dotTerms x)
  | canonicalize : MayMerge .canonicalize .canonicalize
  | pushLinear (term : LinearTerm T) : MayMerge (.pushLinear term) (.pushLinear term)
  | neg : MayMerge .neg .neg
  | scale (number : Scalar T) : MayMerge (.scale number) (.scale number)

/-- The second update is the first one, possibly with functions in canonical form. -/
inductive QuadraticUpdate.MayMerge : QuadraticUpdate T → QuadraticUpdate T → Prop
  | clear : MayMerge .clear .clear
  | set {f g : QuadraticFunction T}
      (may : (Below.same f).MayMerge (fun _ => QuadraticFunction.canonicalize) (.same g)) :
      MayMerge (.set f) (.set g)
  | overwrite {x y : Below QuadraticFunction T}
      (may : x.MayMerge (fun _ => QuadraticFunction.canonicalize) y) :
      MayMerge (.overwrite x) (.overwrite y)
  | add {x y : QuadraticOperand T} (may : x.MayMerge y) : MayMerge (.add x) (.add y)
  | sub {x y : QuadraticOperand T} (may : x.MayMerge y) : MayMerge (.sub x) (.sub y)
  | addScaled {x y : QuadraticOperand T} (may : x.MayMerge y) (number : Scalar T) :
      MayMerge (.addScaled x number) (.addScaled y number)
  | setTo {x y : QuadraticOperand T} (may : x.MayMerge y) : MayMerge (.setTo x) (.setTo y)
  | setSum {x y u v : QuadraticOperand T} (left : x.MayMerge y) (right : u.MayMerge v) :
      MayMerge (.setSum x u) (.setSum y v)
  | setDifference {x y u v : QuadraticOperand T} (left : x.MayMerge y) (right : u.MayMerge v) :
      MayMerge (.setDifference x u) (.setDifference y v)
  | addProduct {x y : QuadraticProduct T} (may : x.MayMerge y) :
      MayMerge (.addProduct x) (.addProduct y)
  | setProduct {x y : QuadraticProduct T} (may : x.MayMerge y) :
      MayMerge (.setProduct x) (.setProduct y)
  | dot {x y : QuadraticFactors T} (may : x.MayMerge y) : MayMerge (.dot x) (.dot y)
  | canonicalize : MayMerge .canonicalize .canonicalize
  | pushQuadratic (term : QuadraticTerm T) : MayMerge (.pushQuadratic term) (.pushQuadratic term)
  | neg : MayMerge .neg .neg
  | scale (number : Scalar T) : MayMerge (.scale number) (.scale number)

namespace AffineUpdate.MayMerge

variable {u v : AffineUpdate (.integer width)}

theorem same_variables (may : u.MayMerge v) : u.variables = v.variables := by
  cases may with
  | clear => rfl
  | @set f g may =>
      have alike : f.Alike g := AffineFunction.alike_of_mayMerge may
      simp only [AffineUpdate.variables, alike.mentions]
  | overwrite may =>
      simp only [AffineUpdate.variables, (AffineFunction.alike_of_mayMerge may).mentions]
  | add may => simp only [AffineUpdate.variables, may.alike.mentions]
  | sub may => simp only [AffineUpdate.variables, may.alike.mentions]
  | addScaled may number => simp only [AffineUpdate.variables, may.alike.mentions]
  | setTo may => simp only [AffineUpdate.variables, may.alike.mentions]
  | setSum left right =>
      simp only [AffineUpdate.variables, left.alike.mentions, right.alike.mentions]
  | setDifference left right =>
      simp only [AffineUpdate.variables, left.alike.mentions, right.alike.mentions]
  | addProduct may => simp only [AffineUpdate.variables, may.alike.mentions]
  | setProduct may => simp only [AffineUpdate.variables, may.alike.mentions]
  | dot may => simp only [AffineUpdate.variables, may.alike.mentions, may.same_lengths]
  | dotTerms x => rfl
  | canonicalize => rfl
  | pushLinear term => rfl
  | neg => rfl
  | scale number => rfl

theorem same_meaning (may : u.MayMerge v) (point : Variable → Int) :
    u.meaning point = v.meaning point := by
  cases may with
  | clear => rfl
  | @set f g may =>
      have alike : f.Alike g := AffineFunction.alike_of_mayMerge may
      simp only [meaning, alike.value]
  | overwrite may =>
      simp only [meaning, (AffineFunction.alike_of_mayMerge may).value]
  | add may => simp only [meaning, may.alike.value]
  | sub may => simp only [meaning, may.alike.value]
  | addScaled may number => simp only [meaning, may.alike.value]
  | setTo may => simp only [meaning, may.alike.value]
  | setSum left right => simp only [meaning, left.alike.value, right.alike.value]
  | setDifference left right => simp only [meaning, left.alike.value, right.alike.value]
  | addProduct may => simp only [meaning, may.alike.value]
  | setProduct may => simp only [meaning, may.alike.value]
  | dot may => simp only [meaning, may.alike.value, may.same_lengths]
  | dotTerms x => rfl
  | canonicalize => rfl
  | pushLinear term => rfl
  | neg => rfl
  | scale number => rfl

theorem exists_variables (may : u.MayMerge v) : ∃ operation, u.variables = some operation := by
  cases may <;> exact ⟨_, rfl⟩

theorem exists_meaning (may : u.MayMerge v) (point : Variable → Int) :
    ∃ operation, u.meaning point = some operation := by
  cases may <;> exact ⟨_, rfl⟩

/-- Updates that differ by merging lead from alike functions to alike functions. -/
theorem step_alike (may : u.MayMerge v) {f g f' g' : AffineFunction (.integer width)}
    (alike : f.Alike g) (f_settled : settle f (u.apply f) = .ok f')
    (g_settled : settle g (v.apply g) = .ok g') : f'.Alike g' := by
  constructor
  · obtain ⟨operation, known⟩ := may.exists_variables
    rw [variables_of_step known f_settled,
      variables_of_step (may.same_variables.symm.trans known) g_settled, alike.mentions]
  · intro point
    obtain ⟨operation, known⟩ := may.exists_meaning point
    have f_value := (u.step_respects f).result f_settled point operation known
    have g_value := (v.step_respects g).result g_settled point operation
      ((may.same_meaning point).symm.trans known)
    rw [f_value, g_value, alike.value]

end AffineUpdate.MayMerge

namespace QuadraticUpdate.MayMerge

variable {u v : QuadraticUpdate (.integer width)}

theorem same_mentions (may : u.MayMerge v) : u.mentions = v.mentions := by
  cases may with
  | clear => rfl
  | @set f g may =>
      have alike : f.Alike g := QuadraticFunction.alike_of_mayMerge may
      simp only [QuadraticUpdate.mentions, alike.mentions]
  | overwrite may =>
      simp only [QuadraticUpdate.mentions, (QuadraticFunction.alike_of_mayMerge may).mentions]
  | add may => simp only [QuadraticUpdate.mentions, may.alike.mentions]
  | sub may => simp only [QuadraticUpdate.mentions, may.alike.mentions]
  | addScaled may number => simp only [QuadraticUpdate.mentions, may.alike.mentions]
  | setTo may => simp only [QuadraticUpdate.mentions, may.alike.mentions]
  | setSum left right =>
      simp only [QuadraticUpdate.mentions, left.alike.mentions, right.alike.mentions]
  | setDifference left right =>
      simp only [QuadraticUpdate.mentions, left.alike.mentions, right.alike.mentions]
  | addProduct may => simp only [QuadraticUpdate.mentions, may.alike.mentions]
  | setProduct may => simp only [QuadraticUpdate.mentions, may.alike.mentions]
  | dot may => simp only [QuadraticUpdate.mentions, may.alike.mentions, may.same_lengths]
  | canonicalize => rfl
  | pushQuadratic term => rfl
  | neg => rfl
  | scale number => rfl

theorem same_meaning (may : u.MayMerge v) (point : Variable → Int) :
    u.meaning point = v.meaning point := by
  cases may with
  | clear => rfl
  | @set f g may =>
      have alike : f.Alike g := QuadraticFunction.alike_of_mayMerge may
      simp only [meaning, alike.value]
  | overwrite may =>
      simp only [meaning, (QuadraticFunction.alike_of_mayMerge may).value]
  | add may => simp only [meaning, may.alike.value]
  | sub may => simp only [meaning, may.alike.value]
  | addScaled may number => simp only [meaning, may.alike.value]
  | setTo may => simp only [meaning, may.alike.value]
  | setSum left right => simp only [meaning, left.alike.value, right.alike.value]
  | setDifference left right => simp only [meaning, left.alike.value, right.alike.value]
  | addProduct may => simp only [meaning, may.alike.value]
  | setProduct may => simp only [meaning, may.alike.value]
  | dot may => simp only [meaning, may.alike.value, may.same_lengths]
  | canonicalize => rfl
  | pushQuadratic term => rfl
  | neg => rfl
  | scale number => rfl

theorem exists_mentions (may : u.MayMerge v) : ∃ operation, u.mentions = some operation := by
  cases may <;> exact ⟨_, rfl⟩

theorem exists_meaning (may : u.MayMerge v) (point : Variable → Int) :
    ∃ operation, u.meaning point = some operation := by
  cases may <;> exact ⟨_, rfl⟩

/-- Updates that differ by merging lead from alike functions to alike functions. -/
theorem step_alike (may : u.MayMerge v) {f g f' g' : QuadraticFunction (.integer width)}
    (alike : f.Alike g) (f_settled : settle f (u.apply f) = .ok f')
    (g_settled : settle g (v.apply g) = .ok g') : f'.Alike g' := by
  constructor
  · obtain ⟨operation, known⟩ := may.exists_mentions
    rw [mentions_of_step known f_settled,
      mentions_of_step (may.same_mentions.symm.trans known) g_settled, alike.mentions]
  · intro point
    obtain ⟨operation, known⟩ := may.exists_meaning point
    have f_value := (u.step_respects f).result f_settled point operation known
    have g_value := (v.step_respects g).result g_settled point operation
      ((may.same_meaning point).symm.trans known)
    rw [f_value, g_value, alike.value]

end QuadraticUpdate.MayMerge

/-! ## Runs -/

/-- The second run has an update for each one of the first run, and it may merge between them. -/
inductive MergedAlong {υ : Type} (may : υ → υ → Prop) (merge : υ) : List υ → List υ → Prop
  | nil : MergedAlong may merge [] []
  | keep {update other : υ} {updates others : List υ} (first : may update other)
      (rest : MergedAlong may merge updates others) :
      MergedAlong may merge (update :: updates) (other :: others)
  | insert {updates others : List υ} (rest : MergedAlong may merge updates others) :
      MergedAlong may merge updates (merge :: others)

/-- What corresponding updates and merging preserve holds between the ends of the two runs. -/
theorem MergedAlong.run_related {σ υ : Type} {apply : υ → σ → Except Failure σ}
    {may : υ → υ → Prop} {merge : υ} {related : σ → σ → Prop}
    (step : ∀ {update other f g f' g'}, may update other → related f g →
      settle f (apply update f) = .ok f' → settle g (apply other g) = .ok g' → related f' g')
    (merging : ∀ {f g g'}, related f g → settle g (apply merge g) = .ok g' → related f g')
    {updates others : List υ} (along : MergedAlong may merge updates others) {f g f' g' : σ}
    (start : related f g) (f_run : runUpdates apply updates f = .ok f')
    (g_run : runUpdates apply others g = .ok g') : related f' g' := by
  induction along generalizing f g with
  | nil =>
      cases f_run
      cases g_run
      exact start
  | keep first _ ih =>
      obtain ⟨f_after, f_settled, f_run⟩ := bind_eq_ok.mp ((runUpdates_cons ..).symm.trans f_run)
      obtain ⟨g_after, g_settled, g_run⟩ := bind_eq_ok.mp ((runUpdates_cons ..).symm.trans g_run)
      exact ih (step first start f_settled g_settled) f_run g_run
  | insert _ ih =>
      obtain ⟨g_after, g_settled, g_run⟩ := bind_eq_ok.mp ((runUpdates_cons ..).symm.trans g_run)
      exact ih (merging start g_settled) f_run g_run

theorem AffineFunction.run_alike {updates others : List (AffineUpdate (.integer width))}
    (along : MergedAlong AffineUpdate.MayMerge .canonicalize updates others)
    {f g f' g' : AffineFunction (.integer width)} (start : f.Alike g)
    (f_run : f.run updates = .ok f') (g_run : g.run others = .ok g') : f'.Alike g' := by
  rw [run_eq] at f_run g_run
  apply along.run_related (fun may => may.step_alike) _ start f_run g_run
  intro f g g' alike settled
  rw [AffineUpdate.settle_canonicalize] at settled
  exact alike.trans (alike_canonicalize settled)

theorem QuadraticFunction.run_alike {updates others : List (QuadraticUpdate (.integer width))}
    (along : MergedAlong QuadraticUpdate.MayMerge .canonicalize updates others)
    {f g f' g' : QuadraticFunction (.integer width)} (start : f.Alike g)
    (f_run : f.run updates = .ok f') (g_run : g.run others = .ok g') : f'.Alike g' := by
  rw [run_eq] at f_run g_run
  apply along.run_related (fun may => may.step_alike) _ start f_run g_run
  intro f g g' alike settled
  rw [QuadraticUpdate.settle_canonicalize] at settled
  exact alike.trans (alike_canonicalize settled)

theorem AffineFunction.times_alike {x y u v : AffineFunction (.integer width)}
    {product other : QuadraticFunction (.integer width)} (left : x.Alike u) (right : y.Alike v)
    (multiplies : x.times y = .ok product) (other_multiplies : u.times v = .ok other) :
    product.Alike other := by
  constructor
  · rw [QuadraticFunction.mentions_of_times multiplies,
      QuadraticFunction.mentions_of_times other_multiplies, left.mentions, right.mentions]
  · intro point
    rw [(x.times_yields y).result multiplies, (u.times_yields v).result other_multiplies,
      left.value, right.value]

/-- It does not matter when like terms are merged.  A run leads to the same canonical function as
any other run that has the same updates, but takes operands in canonical form and merges the state
in between.  The same holds of runs that continue with the product of two affine functions, each of
which is the end of a run itself. -/
theorem merging_anytime (width : IntWidth) :
    (∀ (start : AffineFunction (.integer width))
      (updates others : List (AffineUpdate (.integer width))),
      MergedAlong AffineUpdate.MayMerge .canonicalize updates others →
      ∀ canonical canonical' : AffineFunction (.integer width),
        (start.run updates >>= AffineFunction.canonicalize) = .ok canonical →
        (start.run others >>= AffineFunction.canonicalize) = .ok canonical' →
        canonical = canonical') ∧
    (∀ (start : QuadraticFunction (.integer width))
      (updates others : List (QuadraticUpdate (.integer width))),
      MergedAlong QuadraticUpdate.MayMerge .canonicalize updates others →
      ∀ canonical canonical' : QuadraticFunction (.integer width),
        (start.run updates >>= QuadraticFunction.canonicalize) = .ok canonical →
        (start.run others >>= QuadraticFunction.canonicalize) = .ok canonical' →
        canonical = canonical') ∧
    ∀ (x y : AffineFunction (.integer width))
      (xUpdates xOthers yUpdates yOthers : List (AffineUpdate (.integer width)))
      (updates others : List (QuadraticUpdate (.integer width))),
      MergedAlong AffineUpdate.MayMerge .canonicalize xUpdates xOthers →
      MergedAlong AffineUpdate.MayMerge .canonicalize yUpdates yOthers →
      MergedAlong QuadraticUpdate.MayMerge .canonicalize updates others →
      ∀ canonical canonical' : QuadraticFunction (.integer width),
        (do
          let f ← x.run xUpdates
          let g ← y.run yUpdates
          let product ← f.times g
          let final ← product.run updates
          final.canonicalize) = .ok canonical →
        (do
          let f ← x.run xOthers
          let g ← y.run yOthers
          let product ← f.times g
          let final ← product.run others
          final.canonicalize) = .ok canonical' →
        canonical = canonical' := by
  refine ⟨?affine, ?quadratic, ?product⟩
  case affine =>
    intro start updates others along canonical canonical' run run'
    obtain ⟨final, final_run, merges⟩ := bind_eq_ok.mp run
    obtain ⟨final', final_run', merges'⟩ := bind_eq_ok.mp run'
    have alike := AffineFunction.run_alike along ⟨rfl, fun _ => rfl⟩ final_run final_run'
    exact alike.canonicalize_eq merges merges'
  case quadratic =>
    intro start updates others along canonical canonical' run run'
    obtain ⟨final, final_run, merges⟩ := bind_eq_ok.mp run
    obtain ⟨final', final_run', merges'⟩ := bind_eq_ok.mp run'
    have alike := QuadraticFunction.run_alike along ⟨rfl, fun _ => rfl⟩ final_run final_run'
    exact alike.canonicalize_eq merges merges'
  case product =>
    intro x y xUpdates xOthers yUpdates yOthers updates others xAlong yAlong along canonical
      canonical' run run'
    obtain ⟨f, f_run, run⟩ := bind_eq_ok.mp run
    obtain ⟨g, g_run, run⟩ := bind_eq_ok.mp run
    obtain ⟨product, multiplies, run⟩ := bind_eq_ok.mp run
    obtain ⟨final, final_run, merges⟩ := bind_eq_ok.mp run
    obtain ⟨f', f_run', run'⟩ := bind_eq_ok.mp run'
    obtain ⟨g', g_run', run'⟩ := bind_eq_ok.mp run'
    obtain ⟨product', multiplies', run'⟩ := bind_eq_ok.mp run'
    obtain ⟨final', final_run', merges'⟩ := bind_eq_ok.mp run'
    have f_alike := AffineFunction.run_alike xAlong ⟨rfl, fun _ => rfl⟩ f_run f_run'
    have g_alike := AffineFunction.run_alike yAlong ⟨rfl, fun _ => rfl⟩ g_run g_run'
    have product_alike := AffineFunction.times_alike f_alike g_alike multiplies multiplies'
    have alike := QuadraticFunction.run_alike along product_alike final_run final_run'
    exact alike.canonicalize_eq merges merges'

/-- A run that adds `x2 + x1 + x1`. -/
def splitAddition : List (AffineUpdate (.integer .bits8)) :=
  [.add (.factor (.function (.same splitSum)))]

/-- A run that adds `2 * x1 + x2` and merges. -/
def mergedAddition : List (AffineUpdate (.integer .bits8)) :=
  [.add (.factor (.function (.same mergedSum))), .canonicalize]

theorem splitAddition_mergedAlong :
    MergedAlong AffineUpdate.MayMerge .canonicalize splitAddition mergedAddition := by
  refine .keep (.add (.factor (.function ?_))) (.insert .nil)
  exact .merge (ScalarType.le_refl _) splitSum_canonicalize

theorem splitAddition_run :
    (AffineFunction.zero.run splitAddition >>= AffineFunction.canonicalize) = .ok mergedSum :=
  bind_eq_ok.mpr ⟨splitSum, rfl, splitSum_canonicalize⟩

theorem mergedAddition_run :
    (AffineFunction.zero.run mergedAddition >>= AffineFunction.canonicalize) = .ok mergedSum := by
  refine bind_eq_ok.mpr ⟨mergedSum, ?_, mergedSum_canonicalize⟩
  have added : settle .zero ((AffineUpdate.add (.factor (.function (.same mergedSum)))).apply .zero)
      = .ok mergedSum := rfl
  rw [AffineFunction.run_eq, mergedAddition, runUpdates_cons, added, ok_bind,
    runUpdates_singleton, AffineUpdate.settle_canonicalize, mergedSum_canonicalize]

/-- The function `-x1`. -/
def oppositeVariable : AffineFunction (.integer .bits8) := ⟨[⟨.minusOne, ⟨1⟩⟩], .zero⟩

/-- The product of `x2 + x1 + x1` and `-x1`, where terms on one variable multiply out one by one. -/
def splitSquare : QuadraticFunction (.integer .bits8) :=
  ⟨[⟨.minusOne, ⟨2⟩, ⟨1⟩⟩, ⟨.minusOne, ⟨1⟩, ⟨1⟩⟩, ⟨.minusOne, ⟨1⟩, ⟨1⟩⟩],
    [⟨.zero, ⟨2⟩⟩, ⟨.zero, ⟨1⟩⟩, ⟨.zero, ⟨1⟩⟩, ⟨.zero, ⟨1⟩⟩], .zero⟩

/-- The product of `2 * x1 + x2` and `-x1`. -/
def mergedSquare : QuadraticFunction (.integer .bits8) :=
  ⟨[⟨⟨-2, by decide, by decide⟩, ⟨1⟩, ⟨1⟩⟩, ⟨.minusOne, ⟨2⟩, ⟨1⟩⟩],
    [⟨.zero, ⟨1⟩⟩, ⟨.zero, ⟨2⟩⟩, ⟨.zero, ⟨1⟩⟩], .zero⟩

/-- The canonical form of both products. -/
def canonicalSquare : QuadraticFunction (.integer .bits8) :=
  ⟨[⟨⟨-2, by decide, by decide⟩, ⟨1⟩, ⟨1⟩⟩, ⟨.minusOne, ⟨1⟩, ⟨2⟩⟩],
    [⟨.zero, ⟨1⟩⟩, ⟨.zero, ⟨2⟩⟩], .zero⟩

theorem splitSquare_canonicalize : splitSquare.canonicalize = .ok canonicalSquare := by
  rw [QuadraticFunction.canonicalize_eq, AffineFunction.canonicalize_eq,
    mergeByKey_eq_filterMapM LinearTerm.addsTotals.preservesKey,
    mergeByKey_eq_filterMapM QuadraticTerm.addsTotals.preservesKey]
  rfl

theorem mergedSquare_canonicalize : mergedSquare.canonicalize = .ok canonicalSquare := by
  rw [QuadraticFunction.canonicalize_eq, AffineFunction.canonicalize_eq,
    mergeByKey_eq_filterMapM LinearTerm.addsTotals.preservesKey,
    mergeByKey_eq_filterMapM QuadraticTerm.addsTotals.preservesKey]
  rfl

theorem splitSquare_run :
    (do
      let f ← splitSum.run []
      let g ← oppositeVariable.run []
      let product ← f.times g
      let final ← product.run []
      final.canonicalize) = .ok canonicalSquare := splitSquare_canonicalize

theorem mergedSquare_run :
    (do
      let f ← splitSum.run [.canonicalize]
      let g ← oppositeVariable.run []
      let product ← f.times g
      let final ← product.run []
      final.canonicalize) = .ok canonicalSquare := by
  have merged : splitSum.run [.canonicalize] = .ok mergedSum := by
    rw [AffineFunction.run_eq, runUpdates_singleton, AffineUpdate.settle_canonicalize,
      splitSum_canonicalize]
  rw [merged]
  exact mergedSquare_canonicalize

theorem splitProduct_run :
    (QuadraticFunction.zero.run [.add (.function (.same splitProduct))] >>=
      QuadraticFunction.canonicalize) = .ok mergedProduct :=
  bind_eq_ok.mpr ⟨splitProduct, rfl, splitProduct_canonicalize⟩

theorem mergedProduct_run :
    (QuadraticFunction.zero.run [.add (.function (.same mergedProduct))] >>=
      QuadraticFunction.canonicalize) = .ok mergedProduct :=
  bind_eq_ok.mpr ⟨mergedProduct, rfl, mergedProduct_canonicalize⟩

theorem merging_anytime_split :
    (AffineFunction.zero.run splitAddition >>= AffineFunction.canonicalize) =
        (AffineFunction.zero.run mergedAddition >>= AffineFunction.canonicalize) ∧
      (QuadraticFunction.zero.run [.add (.function (.same splitProduct))] >>=
          QuadraticFunction.canonicalize) =
        (QuadraticFunction.zero.run [.add (.function (.same mergedProduct))] >>=
          QuadraticFunction.canonicalize) ∧
      (do
        let f ← splitSum.run []
        let g ← oppositeVariable.run []
        let product ← f.times g
        let final ← product.run []
        final.canonicalize) =
      (do
        let f ← splitSum.run [.canonicalize]
        let g ← oppositeVariable.run []
        let product ← f.times g
        let final ← product.run []
        final.canonicalize) := by
  obtain ⟨affine, quadratic, product⟩ := merging_anytime .bits8
  have merge_splitProduct : MergedAlong QuadraticUpdate.MayMerge .canonicalize
      [.add (.function (.same splitProduct))] [.add (.function (.same mergedProduct))] :=
    .keep (.add (.function (.merge (ScalarType.le_refl _) splitProduct_canonicalize))) .nil
  refine ⟨?_, ?_, ?_⟩
  · have same := affine .zero _ _ splitAddition_mergedAlong _ _ splitAddition_run mergedAddition_run
    exact splitAddition_run.trans ((congrArg Except.ok same).trans mergedAddition_run.symm)
  · have same := quadratic .zero _ _ merge_splitProduct _ _ splitProduct_run mergedProduct_run
    exact splitProduct_run.trans ((congrArg Except.ok same).trans mergedProduct_run.symm)
  · have same := product splitSum oppositeVariable [] [.canonicalize] [] [] [] [] (.insert .nil)
      .nil .nil _ _ splitSquare_run mergedSquare_run
    exact splitSquare_run.trans ((congrArg Except.ok same).trans mergedSquare_run.symm)

end DegreeTwo
