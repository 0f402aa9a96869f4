import DegreeTwo.Index

/-!
# Watched positions

A watch that has nothing against the positions of a range lets an algorithm work there as if it were
not watched.  So what is shown of an algorithm under every such watch holds where nothing is
watched, where every position is compared with the ends of the range, and where every sum has to be
a machine word.
-/

namespace DegreeTwo

namespace Watch

/-- The watch has nothing against the positions of a range, nor against sums of two of them. -/
structure Permits (watch : Watch) (first last : Nat) : Prop where
  /-- Elements of the range may be looked at. -/
  element : ∀ position, first ≤ position → position < last → watch.element position = .ok ()
  /-- The range may be cut. -/
  boundary : ∀ position, first ≤ position → position ≤ last → watch.boundary position = .ok ()
  /-- Positions of the range may be added. -/
  sum : ∀ sum, sum < 2 * last → watch.sum sum = .ok ()

variable {watch : Watch} {first last : Nat}

/-- What is permitted in a range is permitted in its parts. -/
theorem Permits.mono (permits : watch.Permits first last) {low high : Nat} (lower : first ≤ low)
    (upper : high ≤ last) : watch.Permits low high where
  element position low_le lt_high :=
    permits.element position (Nat.le_trans lower low_le) (Nat.lt_of_lt_of_le lt_high upper)
  boundary position low_le le_high :=
    permits.boundary position (Nat.le_trans lower low_le) (Nat.le_trans le_high upper)
  sum sum below := permits.sum sum (by omega)

theorem trivial_permits (first last : Nat) : trivial.Permits first last where
  element _ _ _ := rfl
  boundary _ _ _ := rfl
  sum _ _ := rfl

/-- Break off unless the positions lie in the range from `first` to `last`: elements before its end,
boundaries at its end at most.  The sum of two positions is less than twice the end. -/
def within (first last : Nat) : Watch where
  element position :=
    if first ≤ position ∧ position < last then .ok () else .error (.indexOutOfRange position last)
  boundary position :=
    if first ≤ position ∧ position ≤ last then .ok () else .error (.indexOutOfRange position last)
  sum sum := if sum < 2 * last then .ok () else .error (.overflow .add)

theorem within_permits (first last : Nat) : (within first last).Permits first last where
  element _ lower upper := if_pos ⟨lower, upper⟩
  boundary _ lower upper := if_pos ⟨lower, upper⟩
  sum _ below := if_pos below

/-- Break off unless every position and every sum is a machine word. -/
def words : Watch where
  element position :=
    if position < Index.limit then .ok () else .error (.indexOutOfRange position Index.limit)
  boundary position :=
    if position < Index.limit then .ok () else .error (.indexOutOfRange position Index.limit)
  sum sum := if sum < Index.limit then .ok () else .error (.overflow .add)

theorem words_permits (fits : 2 * last < Index.limit) : words.Permits first last where
  element _ _ upper := if_pos (by omega)
  boundary _ _ upper := if_pos (by omega)
  sum _ below := if_pos (by omega)

end Watch

/-! ## Total lengths -/

/-- The lengths add up to the length of the lists one behind the other. -/
theorem totalLength_eq_ok {α : Type} {watch : Watch} {lists : List (List α)}
    (permitted : ∀ sum ≤ lists.flatten.length, watch.sum sum = .ok ()) :
    totalLength watch lists = .ok lists.flatten.length := by
  -- The fold starts from the length of the lists before it.
  suffices from_start : ∀ start : Nat,
      (∀ sum ≤ start + lists.flatten.length, watch.sum sum = .ok ()) →
      lists.foldlM (fun total values => do
        watch.sum (total + values.length)
        pure (total + values.length)) start = .ok (start + lists.flatten.length) by
    simpa [totalLength] using from_start 0 (by simpa using permitted)
  clear permitted
  induction lists with
  | nil => exact fun start _ => rfl
  | cons values lists ih =>
      intro start permitted
      rw [List.flatten_cons, List.length_append] at permitted ⊢
      rw [List.foldlM_cons, permitted (start + values.length) (by omega), ← Nat.add_assoc]
      exact ih (start + values.length) fun sum le => permitted sum (by omega)

theorem totalLength_trivial {α : Type} (lists : List (List α)) :
    totalLength .trivial lists = .ok lists.flatten.length :=
  totalLength_eq_ok fun _ _ => rfl

/-- The lengths are added with machine words, as long as the total is one. -/
theorem totalLength_words {α : Type} {lists : List (List α)}
    (fits : lists.flatten.length < Index.limit) :
    totalLength .words lists = totalLength .trivial lists := by
  rw [totalLength_trivial]
  exact totalLength_eq_ok fun sum le => if_pos (Nat.lt_of_le_of_lt le fits)

end DegreeTwo
