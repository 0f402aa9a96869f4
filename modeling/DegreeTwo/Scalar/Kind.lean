/-!
# Coefficient types

Coefficients are integers of four widths or binary floating-point numbers of two precisions.  The
six types form a chain from the narrowest integers up to double precision, and two types have the
greater one of them in common.
-/

namespace DegreeTwo

/-- The widths of integer coefficients. -/
inductive IntWidth where
  /-- Integers of 8 bits. -/
  | bits8
  /-- Integers of 16 bits. -/
  | bits16
  /-- Integers of 32 bits. -/
  | bits32
  /-- Integers of 64 bits. -/
  | bits64
  deriving DecidableEq

namespace IntWidth

/-- Integers of a width run from the opposite of the limit up to, but not including, the limit. -/
def limit : IntWidth → Int
  | bits8 => 128
  | bits16 => 32768
  | bits32 => 2147483648
  | bits64 => 9223372036854775808

/-- Position of a width in the chain of types. -/
def rank : IntWidth → Nat
  | bits8 => 0
  | bits16 => 1
  | bits32 => 2
  | bits64 => 3

theorem one_lt_limit (width : IntWidth) : 1 < width.limit := by
  cases width <;> decide

theorem limit_le_of_rank_le {narrow wide : IntWidth} (h : narrow.rank ≤ wide.rank) :
    narrow.limit ≤ wide.limit := by
  revert h
  cases narrow <;> cases wide <;> decide

end IntWidth

/-- The coefficient types. -/
inductive ScalarType where
  /-- Integers of a width. -/
  | integer (width : IntWidth)
  /-- Floating-point numbers of single precision. -/
  | single
  /-- Floating-point numbers of double precision. -/
  | double
  deriving DecidableEq

namespace ScalarType

/-- Position of a type in the chain of types. -/
def rank : ScalarType → Nat
  | integer width => width.rank
  | single => 4
  | double => 5

/-- A type lies below another one if its numbers may be widened into it. -/
instance : LE ScalarType := ⟨fun lower upper => lower.rank ≤ upper.rank⟩

instance : DecidableLE ScalarType := fun lower upper =>
  inferInstanceAs (Decidable (lower.rank ≤ upper.rank))

theorem le_def {lower upper : ScalarType} : lower ≤ upper ↔ lower.rank ≤ upper.rank := Iff.rfl

protected theorem le_refl (T : ScalarType) : T ≤ T := Nat.le_refl T.rank

protected theorem le_trans {S T U : ScalarType} (hST : S ≤ T) (hTU : T ≤ U) : S ≤ U :=
  Nat.le_trans (show S.rank ≤ T.rank from hST) hTU

protected theorem le_total (S T : ScalarType) : S ≤ T ∨ T ≤ S := Nat.le_total S.rank T.rank

/-- The common type of two types is the greater one. -/
def common (S T : ScalarType) : ScalarType := if S ≤ T then T else S

theorem left_le_common (S T : ScalarType) : S ≤ common S T := by
  unfold common
  split
  · assumption
  · exact ScalarType.le_refl S

theorem right_le_common (S T : ScalarType) : T ≤ common S T := by
  unfold common
  split
  · exact ScalarType.le_refl T
  · exact (ScalarType.le_total S T).resolve_left ‹_›

end ScalarType

end DegreeTwo
