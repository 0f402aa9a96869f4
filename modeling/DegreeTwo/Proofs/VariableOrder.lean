import DegreeTwo.Variable
import Mathlib.Data.Prod.Lex

/-!
# The order of variables and of pairs

Variables and pairs of variables are linearly ordered by the comparisons that sorting uses.
-/

namespace DegreeTwo

namespace Variable

theorem index_injective : Function.Injective index := by
  rintro ⟨left⟩ ⟨right⟩ rfl
  rfl

instance : LinearOrder Variable where
  __ := Function.Injective.partialOrder index index_injective Iff.rfl Iff.rfl
  le_total left right := Nat.le_total left.index right.index
  toDecidableLE := inferInstance
  toDecidableEq := inferInstance
  toDecidableLT := inferInstance
  compare_eq_compareOfLessAndEq left right := by
    change compare left.index right.index = _
    simp only [LinearOrder.compare_eq_compareOfLessAndEq, compareOfLessAndEq, lt_def,
      index_injective.eq_iff]

end Variable

namespace VariablePair

/-- The pair with the order of rows first, then columns. -/
def lex (pair : VariablePair) : Variable ×ₗ Variable := toLex (pair.row, pair.col)

theorem lex_injective : Function.Injective lex := by
  rintro ⟨row, col⟩ ⟨row', col'⟩ same
  cases same
  rfl

theorem lex_le_lex {left right : VariablePair} : left.lex ≤ right.lex ↔ left ≤ right :=
  Prod.Lex.toLex_le_toLex

theorem lex_lt_lex {left right : VariablePair} : left.lex < right.lex ↔ left < right :=
  Prod.Lex.toLex_lt_toLex

instance : LinearOrder VariablePair where
  __ := Function.Injective.partialOrder lex lex_injective lex_le_lex lex_lt_lex
  le_total left right := by
    rw [← lex_le_lex, ← lex_le_lex]
    exact le_total left.lex right.lex
  toDecidableLE := inferInstance
  toDecidableEq := inferInstance
  toDecidableLT := inferInstance

end VariablePair

end DegreeTwo
