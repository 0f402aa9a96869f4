import DegreeTwo.Proofs.Sorting.Reference

/-!
# Merging a range of an array

The merge of two adjacent ascending runs in place is the stable merge of lists.  It succeeds for
runs of any length, none of its positions lies outside of the range, and what stands outside is
unchanged.
-/

namespace DegreeTwo

variable {α κ : Type}

/-! ## Cutting an array -/

namespace Slots

theorem extract_block (front block back : List α) :
    (front ++ block ++ back).toArray.extract front.length (front.length + block.length) =
      block.toArray := by
  simp

/-- Exchanging a block for one of the same length leaves the elements outside of it. -/
theorem getElem?_outside (front : List α) {old new : List α} (back : List α)
    (same_length : new.length = old.length) {i : Nat}
    (outside : i < front.length ∨ front.length + old.length ≤ i) :
    (front ++ new ++ back)[i]? = (front ++ old ++ back)[i]? := by
  rcases outside with before | behind
  · rw [List.append_assoc, List.append_assoc, List.getElem?_append_left before,
      List.getElem?_append_left before]
  · rw [List.getElem?_append_right (by simpa [same_length] using behind),
      List.getElem?_append_right (by simpa using behind), List.length_append, List.length_append,
      same_length]

/-- An array is cut at three positions. -/
theorem exists_blocks (values : Array α) {a m b : Nat} (am : a ≤ m) (mb : m ≤ b)
    (inside : b ≤ values.size) :
    ∃ front left right back : List α, values = (front ++ left ++ right ++ back).toArray ∧
      a = front.length ∧ m = front.length + left.length ∧
      b = front.length + left.length + right.length := by
  have pieces : values.extract 0 a ++ values.extract a m ++ values.extract m b ++
      values.extract b values.size = values := by simp [am, mb]
  refine ⟨(values.extract 0 a).toList, (values.extract a m).toList, (values.extract m b).toList,
    (values.extract b values.size).toList, ?_, ?_, ?_, ?_⟩
  · simpa only [← Array.toList_append] using pieces.symm
  all_goals
    simp only [Array.length_toList, Array.size_extract]
    omega

end Slots

/-! ## The stable merge of lists -/

variable [LinearOrder κ] {key : α → κ} {watch : Watch} {left right : List α}

/-- In a merge the elements of each key stand as they stood, those of the left list first. -/
theorem withKey_merge (right : List α) (left_ascends : KeysAscend key left) (k : κ) :
    withKey key (left.merge right (keyLe key)) k = withKey key left k ++ withKey key right k := by
  fun_induction List.merge left right (keyLe key) with
  | case1 right => simp
  | case2 left nonempty => simp
  | case3 x left y right x_first ih =>
      have rest := ih left_ascends.tail
      by_cases inGroup : key x = k
      · rw [withKey_cons_self inGroup, withKey_cons_self inGroup, rest, List.cons_append]
      · rw [withKey_cons_of_ne inGroup, withKey_cons_of_ne inGroup, rest]
  | case4 x left y right y_first ih =>
      have rest := ih left_ascends
      by_cases inGroup : key y = k
      · -- An element of the right list comes first only if its key is used up in the left one.
        have y_less : key y < key x := not_le.mp (mt decide_eq_true y_first)
        have none_left : withKey key (x :: left) k = [] := by
          apply withKey_eq_nil
          intro z hz
          rw [← inGroup]
          rcases List.mem_cons.mp hz with rfl | hz
          · exact ne_of_gt y_less
          · exact ne_of_gt (y_less.trans_le ((List.pairwise_cons.mp left_ascends).1 z hz))
        rw [withKey_cons_self inGroup, withKey_cons_self inGroup, rest, none_left, List.nil_append,
          List.nil_append]
      · rw [withKey_cons_of_ne inGroup, withKey_cons_of_ne inGroup, rest]

theorem stablySorted_merge (left_ascends : KeysAscend key left)
    (right_ascends : KeysAscend key right) :
    StablySorted key (left ++ right) (left.merge right (keyLe key)) where
  ascend :=
    (List.pairwise_merge keyLe_trans keyLe_total left right (left_ascends.imp decide_eq_true)
      (right_ascends.imp decide_eq_true)).imp of_decide_eq_true
  groups k := by rw [withKey_append, withKey_merge right left_ascends]

/-- Merging in place puts the merge of the runs where they stood. -/
theorem mergeWatched_blocks (front back : List α)
    (permits : watch.Permits front.length (front.length + left.length + right.length))
    (left_ne : left ≠ []) (right_ne : right ≠ []) (left_ascends : KeysAscend key left)
    (right_ascends : KeysAscend key right) :
    mergeWatched watch key (front ++ left ++ right ++ back).toArray front.length
        (front.length + left.length) (front.length + left.length + right.length) =
      .ok (front ++ left.merge right (keyLe key) ++ back).toArray := by
  obtain ⟨merged, merge, sorted⟩ :=
    mergesRuns front back permits left_ne right_ne left_ascends right_ascends
  rw [merge, sorted.unique (stablySorted_merge left_ascends right_ascends)]

/-! ## The merge of a range -/

/-- In the result the range from `a` to `b` is the stable merge of the runs that met at `m`, and the
rest is as before. -/
structure StablyMerged (key : α → κ) (values result : Array α) (a m b : Nat) : Prop where
  /-- The array has its size. -/
  size_eq : result.size = values.size
  /-- What stands outside of the range is unchanged. -/
  outside : ∀ i, i < a ∨ b ≤ i → result[i]? = values[i]?
  /-- The range is the merge of the runs. -/
  merge : (result.extract a b).toList =
    (values.extract a m).toList.merge (values.extract m b).toList (keyLe key)
  /-- The keys of the range ascend. -/
  ascend : KeysAscend key (result.extract a b).toList
  /-- The elements of the range are the old ones. -/
  perm : (result.extract a b).toList.Perm (values.extract a b).toList
  /-- The elements of each key stand in their old order, those of the left run first. -/
  groups : ∀ k, withKey key (result.extract a b).toList k =
    withKey key (values.extract a m).toList k ++ withKey key (values.extract m b).toList k

theorem stablyMerged_blocks (front back : List α) (left_ascends : KeysAscend key left)
    (right_ascends : KeysAscend key right) :
    StablyMerged key (front ++ left ++ right ++ back).toArray
      (front ++ left.merge right (keyLe key) ++ back).toArray front.length
      (front.length + left.length) (front.length + left.length + right.length) := by
  have sorted := stablySorted_merge left_ascends right_ascends
  have merged_length : (left.merge right (keyLe key)).length = (left ++ right).length :=
    sorted.groups.perm.symm.length_eq
  have left_block : (front ++ left ++ right ++ back).toArray.extract front.length
      (front.length + left.length) = left.toArray := by simp
  have right_block : (front ++ left ++ right ++ back).toArray.extract (front.length + left.length)
      (front.length + left.length + right.length) = right.toArray := by simp
  have whole_block : (front ++ left ++ right ++ back).toArray.extract front.length
      (front.length + left.length + right.length) = (left ++ right).toArray := by
    simpa [Nat.add_assoc] using Slots.extract_block front (left ++ right) back
  have merged_block : (front ++ left.merge right (keyLe key) ++ back).toArray.extract front.length
      (front.length + left.length + right.length) = (left.merge right (keyLe key)).toArray := by
    have block := Slots.extract_block front (left.merge right (keyLe key)) back
    rwa [merged_length, List.length_append, ← Nat.add_assoc] at block
  constructor
  case size_eq => simp [merged_length, Nat.add_assoc]
  case outside =>
    intro i outside
    rw [Nat.add_assoc, ← List.length_append] at outside
    simpa using Slots.getElem?_outside front back merged_length outside
  case merge => rw [left_block, right_block, merged_block]
  case ascend =>
    rw [merged_block]
    exact sorted.ascend
  case perm =>
    rw [merged_block, whole_block]
    exact sorted.groups.perm.symm
  case groups =>
    intro k
    rw [merged_block, left_block, right_block]
    exact withKey_merge right left_ascends k

/-- Merging in place succeeds on every two adjacent ascending runs, of any lengths, and merges them
stably.  No difference of positions is negative, no position of an element that is compared and no
end of a block that is moved lies outside of the range, and nothing outside of it changes. -/
theorem mergeAdjacent_merges_range (key : α → κ) (values : Array α) {a m b : Nat}
    (left_filled : a < m) (right_filled : m < b) (inside : b ≤ values.size)
    (left_ascends : KeysAscend key (values.extract a m).toList)
    (right_ascends : KeysAscend key (values.extract m b).toList) :
    ∃ result, mergeAdjacent key values a m b = .ok result ∧
      mergeWatched (.within a b) key values a m b = .ok result ∧
      StablyMerged key values result a m b := by
  obtain ⟨front, left, right, back, rfl, rfl, rfl, rfl⟩ :=
    Slots.exists_blocks values (Nat.le_of_lt left_filled) (Nat.le_of_lt right_filled) inside
  replace left_ascends : KeysAscend key left := by simpa using left_ascends
  replace right_ascends : KeysAscend key right := by simpa using right_ascends
  have left_ne : left ≠ [] := List.ne_nil_of_length_pos (by omega)
  have right_ne : right ≠ [] := List.ne_nil_of_length_pos (by omega)
  -- The merge is the same under every watch that permits the range.
  have merge {watch : Watch}
      (permits : watch.Permits front.length (front.length + left.length + right.length)) :=
    mergeWatched_blocks front back permits left_ne right_ne left_ascends right_ascends
  exact ⟨_, merge (Watch.trivial_permits _ _), merge (Watch.within_permits _ _),
    stablyMerged_blocks front back left_ascends right_ascends⟩

/-- Two runs with common keys, between elements that would have to move if the whole were sorted. -/
def runsBetween : Array (Nat × Nat) :=
  #[(9, 0), (1, 1), (3, 2), (3, 3), (5, 4), (1, 5), (3, 6), (4, 7), (0, 8)]

theorem mergeAdjacent_merges_range_between :
    ∃ result, mergeAdjacent Prod.fst runsBetween 1 5 8 = .ok result ∧
      mergeWatched (.within 1 8) Prod.fst runsBetween 1 5 8 = .ok result ∧
      StablyMerged Prod.fst runsBetween result 1 5 8 :=
  mergeAdjacent_merges_range Prod.fst runsBetween (by decide) (by decide) (by decide)
    (by simp [KeysAscend, runsBetween]) (by simp [KeysAscend, runsBetween])

example : mergeAdjacent Prod.fst runsBetween 1 5 8 =
    .ok #[(9, 0), (1, 1), (1, 5), (3, 2), (3, 3), (3, 6), (4, 7), (5, 4), (0, 8)] := by cbv

end DegreeTwo
