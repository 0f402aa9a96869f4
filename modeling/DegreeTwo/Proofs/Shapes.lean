import DegreeTwo.Proofs.Outcome
import DegreeTwo.Quadratic.Product
import DegreeTwo.RowMajor

/-!
# Shapes of arguments

Lists of factors are checked for their lengths before their pairs are multiplied, and the rows of a
matrix have the length that its shape says.  Where every pair makes one term, there are as many
terms as left factors.
-/

namespace DegreeTwo

theorem checkLength_eq_ok {argument : Argument} {expected actual : Nat} {done : Unit} :
    checkLength argument expected actual = .ok done ↔ expected = actual := by
  rw [checkLength]
  split
  · exact iff_of_true rfl ‹_›
  · exact iff_of_false (fun succeeds => nomatch succeeds) ‹_›

theorem checkLength_of_eq {argument : Argument} {expected actual : Nat}
    (same : expected = actual) : checkLength argument expected actual = .ok () :=
  checkLength_eq_ok.mpr same

section Pairs

variable {α β γ : Type} {left : List α} {right : List β}

theorem length_zipWith_of_eq {f : α → β → γ} (same_length : left.length = right.length) :
    (List.zipWith f left right).length = left.length :=
  List.length_zipWith.trans (Nat.min_eq_left (Nat.le_of_eq same_length))

theorem length_zip_of_eq (same_length : left.length = right.length) :
    (left.zip right).length = left.length :=
  List.length_zip.trans (Nat.min_eq_left (Nat.le_of_eq same_length))

end Pairs

section Related

variable {α α' β β' γ γ' : Type}

theorem forall₂_zipWith {first : α → α' → Prop} {second : β → β' → Prop} {result : γ → γ' → Prop}
    {f : α → β → γ} {g : α' → β' → γ'}
    (each : ∀ {a a' b b'}, first a a' → second b b' → result (f a b) (g a' b'))
    {xs : List α} {xs' : List α'} {ys : List β} {ys' : List β'}
    (lefts : List.Forall₂ first xs xs') (rights : List.Forall₂ second ys ys') :
    List.Forall₂ result (List.zipWith f xs ys) (List.zipWith g xs' ys') := by
  induction lefts generalizing ys ys' with
  | nil => exact .nil
  | cons left _ ih =>
      cases rights with
      | nil => exact .nil
      | cons right rights => exact .cons (each left right) (ih rights)

theorem forall₂_zipWith_left {second : β → β' → Prop} {result : γ → γ' → Prop} {f : α → β → γ}
    {g : α → β' → γ'} (each : ∀ a {b b'}, second b b' → result (f a b) (g a b')) (xs : List α)
    {ys : List β} {ys' : List β'} (rights : List.Forall₂ second ys ys') :
    List.Forall₂ result (List.zipWith f xs ys) (List.zipWith g xs ys') := by
  have lefts : List.Forall₂ Eq xs xs := List.forall₂_refl xs
  apply forall₂_zipWith _ lefts rights
  rintro a _ b b' rfl related
  exact each a related

theorem forall₂_zipWith_right {first : α → α' → Prop} {result : γ → γ' → Prop} {f : α → β → γ}
    {g : α' → β → γ'} (each : ∀ {a a'}, first a a' → ∀ b, result (f a b) (g a' b))
    {xs : List α} {xs' : List α'} (lefts : List.Forall₂ first xs xs') (ys : List β) :
    List.Forall₂ result (List.zipWith f xs ys) (List.zipWith g xs' ys) := by
  have rights : List.Forall₂ Eq ys ys := List.forall₂_refl ys
  apply forall₂_zipWith _ lefts rights
  rintro a a' b _ related rfl
  exact each related b

theorem map_eq_of_forall₂ {relation : α → β → Prop} {φ : α → γ} {ψ : β → γ}
    (same : ∀ {a b}, relation a b → φ a = ψ b) {xs : List α} {ys : List β}
    (related : List.Forall₂ relation xs ys) : xs.map φ = ys.map ψ := by
  induction related with
  | nil => rfl
  | cons first _ ih => rw [List.map_cons, List.map_cons, same first, ih]

end Related

namespace Index

theorem add_eq_ok {a b sum : Nat} : add a b = .ok sum ↔ a + b < limit ∧ sum = a + b := by
  rw [add]
  by_cases inside : a + b < limit <;> simp [inside, eq_comm]

theorem add_eq_ok_of_lt {a b : Nat} (inside : a + b < limit) : add a b = .ok (a + b) :=
  add_eq_ok.mpr ⟨inside, rfl⟩

theorem mul_eq_ok {a b product : Nat} :
    mul a b = .ok product ↔ a * b < limit ∧ product = a * b := by
  rw [mul]
  by_cases inside : a * b < limit <;> simp [inside, eq_comm]

theorem add_yields (a b : Nat) : Yields (add a b) fun sum => sum = a + b := by
  rw [add]
  split
  · exact .ok rfl
  · exact .overflow .add

theorem mul_yields (a b : Nat) : Yields (mul a b) fun product => product = a * b := by
  rw [mul]
  split
  · exact .ok rfl
  · exact .overflow .multiply

end Index

/-! ## Elements of a list -/

section Entries

variable {α : Type} {values : List α} {i : Nat}

theorem entry_eq_ok (inside : i < values.length) : entry values i = .ok values[i] := by
  rw [entry, List.getElem?_eq_getElem inside]

theorem entry_eq_error (outside : values.length ≤ i) :
    entry values i = .error (.indexOutOfRange i values.length) := by
  rw [entry, List.getElem?_eq_none outside]

end Entries

/-! ## Rows of a matrix -/

namespace RowMajor

variable {α : Type} {array : RowMajor α}

theorem length_of_row_eq_ok {i : Nat} {row : List α} (succeeds : array.row i = .ok row) :
    row.length = array.cols := by
  rw [RowMajor.row] at succeeds
  split at succeeds
  · obtain ⟨start, -, succeeds⟩ := bind_eq_ok.mp succeeds
    obtain ⟨stop, sum, succeeds⟩ := bind_eq_ok.mp succeeds
    obtain ⟨-, stop_eq⟩ := Index.add_eq_ok.mp sum
    rw [slice] at succeeds
    split at succeeds
    · cases succeeds
      rw [List.length_drop, List.length_take]
      omega
    · cases succeeds
  · cases succeeds

theorem length_of_rowList_eq_ok {rows : List (List α)} (succeeds : array.rowList = .ok rows) :
    rows.length = array.rows := by
  rw [length_of_mapM_eq_ok succeeds, List.length_range]

theorem length_of_mem_rowList {rows : List (List α)} (succeeds : array.rowList = .ok rows)
    {row : List α} (member : row ∈ rows) : row.length = array.cols := by
  obtain ⟨i, -, row_succeeds⟩ := exists_of_mem_mapM succeeds member
  exact length_of_row_eq_ok row_succeeds

end RowMajor

/-! ## Lists of factors -/

variable {T : ScalarType}

namespace AffineFactors

/-- Number of left factors. -/
def leftLength : AffineFactors T → Nat
  | numberTimes x _ => x.length
  | factorTimes x _ => x.length

/-- Number of right factors. -/
def rightLength : AffineFactors T → Nat
  | numberTimes _ y => y.length
  | factorTimes _ y => y.length

theorem checkLengths_eq (factors : AffineFactors T) :
    factors.checkLengths = checkLength .y factors.leftLength factors.rightLength := by
  cases factors <;> rfl

end AffineFactors

namespace QuadraticFactors

/-- Number of left factors. -/
def leftLength : QuadraticFactors T → Nat
  | numberTimes x _ => x.length
  | factorTimes x _ => x.length
  | termTimes x _ => x.length
  | functionTimes x _ => x.length

/-- Number of right factors. -/
def rightLength : QuadraticFactors T → Nat
  | numberTimes _ y => y.length
  | factorTimes _ y => y.length
  | termTimes _ y => y.length
  | functionTimes _ y => y.length

theorem checkLengths_eq (factors : QuadraticFactors T) :
    factors.checkLengths = checkLength .y factors.leftLength factors.rightLength := by
  cases factors <;> rfl

end QuadraticFactors

namespace TermFactors

/-- Number of right factors. -/
def rightLength : TermFactors T → Nat
  | numberVariable _ y => y.length
  | variableNumber _ y => y.length
  | numberTerm _ y => y.length
  | termNumber _ y => y.length

theorem checkLengths_eq (factors : TermFactors T) :
    factors.checkLengths = checkLength .y factors.length factors.rightLength := by
  cases factors <;> rfl

theorem length_of_terms_eq_ok {factors : TermFactors T} {terms : List (LinearTerm T)}
    (same_length : factors.length = factors.rightLength) (succeeds : factors.terms = .ok terms) :
    terms.length = factors.length := by
  cases factors with
  | numberVariable x y =>
      cases succeeds
      exact length_zipWith_of_eq same_length
  | variableNumber x y =>
      cases succeeds
      exact length_zipWith_of_eq same_length
  | numberTerm x y =>
      rw [length_of_mapM_eq_ok succeeds]
      exact length_zip_of_eq same_length
  | termNumber x y =>
      rw [length_of_mapM_eq_ok succeeds]
      exact length_zip_of_eq same_length

end TermFactors

end DegreeTwo
