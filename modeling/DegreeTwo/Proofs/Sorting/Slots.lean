import DegreeTwo.Index
import Mathlib.Data.List.Basic

/-!
# Blocks of an array

An array that is being sorted is written as a list of blocks, and positions as sums of their
lengths. Reads, exchanges and rotations at the boundaries of blocks succeed, and only the named
blocks move.
-/

namespace DegreeTwo

theorem Index.sub_eq_ok {a b distance : Nat} (h : b + distance = a) :
    Index.sub a b = .ok ⟨distance, h⟩ := by
  have bound : b ≤ a := by omega
  have distance_eq : a - b = distance := by omega
  simp [Index.sub, bound, distance_eq]

namespace Slots

variable {α : Type}

theorem getElem?_block (front : List α) {block : List α} (back : List α) {i : Nat}
    (h : i < block.length) : (front ++ block ++ back)[front.length + i]? = some block[i] := by
  rw [List.append_assoc, List.getElem?_append_right (by omega), Nat.add_sub_cancel_left,
    List.getElem?_append_left h, List.getElem?_eq_getElem h]

theorem read_eq_ok {values : List α} {i : Nat} {value : α} (h : values[i]? = some value) :
    read values.toArray i = .ok value := by
  simp [read, h]

theorem read_between (front : List α) (value : α) (back : List α) :
    read (front ++ value :: back).toArray front.length = .ok value :=
  read_eq_ok (by simp)

theorem write_between (front : List α) (old new : α) (back : List α) :
    write (front ++ old :: back).toArray front.length new = .ok (front ++ new :: back).toArray := by
  simp [write]

/-- Two elements change places, and those between them stay. -/
theorem swap_between (front : List α) (x : α) (inner : List α) (y : α) (back : List α) :
    swap (front ++ x :: (inner ++ y :: back)).toArray front.length
        (front.length + 1 + inner.length) =
      .ok (front ++ y :: (inner ++ x :: back)).toArray := by
  have inFirst : front.length < (front ++ x :: (inner ++ y :: back)).length := by simp
  have inSecond :
      front.length + 1 + inner.length < (front ++ x :: (inner ++ y :: back)).length := by
    simp
    omega
  have distance : front.length + 1 + inner.length - front.length = inner.length + 1 := by omega
  have first : (front ++ x :: (inner ++ y :: back))[front.length] = x := by simp
  have second : (front ++ x :: (inner ++ y :: back))[front.length + 1 + inner.length] = y := by
    rw [List.getElem_append_right (by omega)]
    simp [distance]
  simp only [swap, List.size_toArray, inFirst, inSecond, dif_pos, Array.swap_def,
    List.getElem_toArray, List.set_toArray, first, second]
  rw [List.set_append_right _ _ (by omega), Nat.sub_self, List.set_cons_zero,
    List.set_append_right _ _ (by omega), distance, List.set_cons_succ,
    List.set_append_right _ _ (by omega), Nat.sub_self, List.set_cons_zero]

theorem swap_self (front : List α) (value : α) (back : List α) :
    swap (front ++ value :: back).toArray front.length front.length =
      .ok (front ++ value :: back).toArray := by
  simp [swap]

theorem swap_comm (values : Array α) {i j : Nat} (hi : i < values.size) (hj : j < values.size) :
    swap values i j = swap values j i := by
  simp [swap, hi, hj, Array.swap_comm hi hj]

/-- Two adjacent blocks change places. -/
theorem rotate_blocks (front left right back : List α) :
    rotate (front ++ left ++ right ++ back).toArray front.length (front.length + left.length)
        (front.length + left.length + right.length) =
      .ok (front ++ right ++ left ++ back).toArray := by
  have inRange : front.length + left.length + right.length ≤
      front.length + (left.length + (right.length + back.length)) := by omega
  have rest : (front ++ (left ++ (right ++ back))).drop
      (front.length + left.length + right.length) = back := by
    rw [Nat.add_assoc, List.drop_length_add_append, List.drop_length_add_append, List.drop_left]
  have rest_length : front.length + (left.length + (right.length + back.length)) -
      (front.length + left.length + right.length) = back.length := by omega
  simp [rotate, inRange, rest, rest_length]

end Slots

end DegreeTwo
