import DegreeTwo.Failure
import DegreeTwo.Scalar.Kind

/-!
# Integers of a width

Arithmetic is exact: an operation returns the integer that it names, or breaks off if that integer
does not fit the width.  Only the magnitude saturates, so that it always exists.
-/

namespace DegreeTwo

/-- An integer that fits a width. -/
@[ext]
structure BoundedInt (width : IntWidth) where
  /-- The integer itself. -/
  val : Int
  /-- It is not below the least integer of the width. -/
  lower : -width.limit ≤ val
  /-- It is not above the greatest integer of the width. -/
  upper : val < width.limit
  deriving DecidableEq

namespace BoundedInt

variable {width : IntWidth}

/-- The integer zero. -/
def zero : BoundedInt width :=
  ⟨0, by have := width.one_lt_limit; omega, by have := width.one_lt_limit; omega⟩

/-- The integer one. -/
def one : BoundedInt width :=
  ⟨1, by have := width.one_lt_limit; omega, width.one_lt_limit⟩

/-- The integer minus one, which every width holds. -/
def minusOne : BoundedInt width :=
  ⟨-1, by have := width.one_lt_limit; omega, by have := width.one_lt_limit; omega⟩

/-- The greatest integer of the width. -/
def greatest : BoundedInt width :=
  ⟨width.limit - 1, by have := width.one_lt_limit; omega, by omega⟩

/-- An integer that fits the width. -/
def ofInt? (n : Int) : Option (BoundedInt width) :=
  if h : -width.limit ≤ n ∧ n < width.limit then some ⟨n, h.1, h.2⟩ else none

/-- The exact result of an operation, provided that it fits. -/
def fit (operation : Operation) (n : Int) : Except Fault (BoundedInt width) :=
  if h : -width.limit ≤ n ∧ n < width.limit then .ok ⟨n, h.1, h.2⟩
  else .error (.overflow operation)

/-- Exact sum. -/
def add (a b : BoundedInt width) : Except Fault (BoundedInt width) := fit .add (a.val + b.val)

/-- Exact difference. -/
def sub (a b : BoundedInt width) : Except Fault (BoundedInt width) :=
  fit .subtract (a.val - b.val)

/-- Exact product. -/
def mul (a b : BoundedInt width) : Except Fault (BoundedInt width) :=
  fit .multiply (a.val * b.val)

/-- Exact opposite. -/
def neg (a : BoundedInt width) : Except Fault (BoundedInt width) := fit .negate (-a.val)

/-- The absolute value, or the greatest integer where the absolute value does not fit. -/
def magnitude (a : BoundedInt width) : BoundedInt width :=
  if a.val < 0 then (ofInt? (-a.val)).getD greatest else a

/-- The same integer in a width that is not narrower. -/
def widen {wide : IntWidth} (h : width.rank ≤ wide.rank) (a : BoundedInt width) :
    BoundedInt wide :=
  have hlimit := IntWidth.limit_le_of_rank_le h
  ⟨a.val, by have := a.lower; omega, by have := a.upper; omega⟩

theorem fit_eq_ok {operation : Operation} {n : Int} {a : BoundedInt width} :
    fit operation n = .ok a ↔ a.val = n := by
  unfold fit
  split
  · constructor
    · rintro ⟨⟩
      rfl
    · intro h
      congr 1
      exact BoundedInt.ext h.symm
  · rename_i h
    constructor
    · rintro ⟨⟩
    · intro heq
      exact absurd ⟨heq ▸ a.lower, heq ▸ a.upper⟩ h

theorem fit_eq_error {operation : Operation} {n : Int} {fault : Fault} :
    (fit operation n : Except Fault (BoundedInt width)) = .error fault ↔
      fault = .overflow operation ∧ ¬ (-width.limit ≤ n ∧ n < width.limit) := by
  unfold fit
  split <;> simp_all [eq_comm]

end BoundedInt

end DegreeTwo
