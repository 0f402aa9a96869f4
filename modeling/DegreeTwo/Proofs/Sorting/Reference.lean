import DegreeTwo.Proofs.Sorting.StableSort

/-!
# The stable sort is unique

Ascending keys and the elements of each key in their old order determine a rearrangement.  The merge
sort of the standard library is such a rearrangement, so it is the one that sorting in place
computes.
-/

namespace DegreeTwo

variable {α κ : Type} [LinearOrder κ] {key : α → κ}

theorem SameGroups.tail {x : α} {xs ys : List α}
    (same : SameGroups key (x :: xs) (x :: ys)) : SameGroups key xs ys := by
  intro k
  have group := same k
  by_cases inGroup : key x = k
  · rw [withKey_cons_self inGroup, withKey_cons_self inGroup] at group
    exact (List.cons.inj group).2
  · rwa [withKey_cons_of_ne inGroup, withKey_cons_of_ne inGroup] at group

/-- Two ascending rearrangements with the same groups begin with the same element: it has the least
key, and it is the first one with this key. -/
theorem KeysAscend.head_eq {x y : α} {xs ys : List α} (xs_ascend : KeysAscend key (x :: xs))
    (ys_ascend : KeysAscend key (y :: ys)) (same : SameGroups key (x :: xs) (y :: ys)) : x = y := by
  have key_le : ∀ {a b : α} {as bs : List α}, KeysAscend key (a :: as) →
      SameGroups key (a :: as) (b :: bs) → key a ≤ key b := by
    intro a b as bs ascend groups
    rcases List.mem_cons.mp (groups.mem_iff.mpr List.mem_cons_self) with rfl | later
    · exact le_rfl
    · exact (List.pairwise_cons.mp ascend).1 b later
  have keys_eq : key x = key y :=
    le_antisymm (key_le xs_ascend same) (key_le ys_ascend fun k => (same k).symm)
  have group := same (key x)
  rw [withKey_cons_self rfl, withKey_cons_self keys_eq.symm] at group
  exact (List.cons.inj group).1

theorem KeysAscend.eq_of_sameGroups {first second : List α} (first_ascends : KeysAscend key first)
    (second_ascends : KeysAscend key second) (same : SameGroups key first second) :
    first = second := by
  induction first generalizing second with
  | nil => exact (List.nil_perm.mp same.perm).symm
  | cons x xs ih =>
      cases second with
      | nil => exact List.perm_nil.mp same.perm
      | cons y ys =>
          obtain rfl := first_ascends.head_eq second_ascends same
          rw [ih (List.pairwise_cons.mp first_ascends).2 (List.pairwise_cons.mp second_ascends).2
            same.tail]

/-- There is at most one stable sort. -/
theorem StablySorted.unique {before first second : List α}
    (first_sorted : StablySorted key before first)
    (second_sorted : StablySorted key before second) : first = second :=
  first_sorted.ascend.eq_of_sameGroups second_sorted.ascend fun k =>
    (first_sorted.groups k).symm.trans (second_sorted.groups k)

/-- A watch that permits an array does not change how it is sorted. -/
theorem sortWatched_eq_stableSort {watch : Watch} (key : α → κ) {values : Array α}
    (permits : watch.PermitsSort values.size) :
    sortWatched watch key values = stableSort key values := by
  obtain ⟨watched, sort_watched, watched_stable⟩ := sortWatched_spec key values.toList permits
  obtain ⟨sorted, sort, stable⟩ := stableSort_spec key values.toList
  exact sort_watched.trans (watched_stable.unique stable ▸ sort.symm)

/-- Sorting an array computes with machine words, as long as twice its length is one. -/
theorem sortWatched_words (key : α → κ) {values : Array α}
    (fits : 2 * values.size < Index.limit) :
    sortWatched .words key values = stableSort key values :=
  sortWatched_eq_stableSort key (Watch.words_permitsSort fits)

/-! ## Merge sort -/

/-- Whether the key of the first element is not greater than the key of the second one. -/
def keyLe (key : α → κ) (x y : α) : Bool := decide (key x ≤ key y)

theorem keyLe_trans (x y z : α) (xy : keyLe key x y) (yz : keyLe key y z) : keyLe key x z :=
  decide_eq_true (le_trans (of_decide_eq_true xy) (of_decide_eq_true yz))

theorem keyLe_total (x y : α) : keyLe key x y || keyLe key y x := by
  simpa [keyLe] using le_total (key x) (key y)

/-- The merge sort of a list by a key. -/
def mergeSortBy (key : α → κ) (values : List α) : List α := values.mergeSort (keyLe key)

theorem keysAscend_mergeSortBy (key : α → κ) (values : List α) :
    KeysAscend key (mergeSortBy key values) :=
  (List.pairwise_mergeSort keyLe_trans keyLe_total values).imp of_decide_eq_true

/-- The elements of one key are a sublist in order, which merge sort keeps. -/
theorem withKey_mergeSortBy (key : α → κ) (values : List α) (k : κ) :
    withKey key (mergeSortBy key values) k = withKey key values k := by
  have in_order : (withKey key values k).Pairwise fun x y => keyLe key x y = true := by
    apply List.pairwise_of_forall_mem_list
    intro x hx y hy
    simp [keyLe, (mem_withKey.mp hx).2, (mem_withKey.mp hy).2]
  have kept : (withKey key values k).Sublist (mergeSortBy key values) :=
    List.sublist_mergeSort keyLe_trans keyLe_total in_order List.filter_sublist
  have group_kept : (withKey key values k).Sublist (withKey key (mergeSortBy key values) k) := by
    simpa [withKey] using kept.filter fun value => decide (key value = k)
  have same_length : (withKey key (mergeSortBy key values) k).length =
      (withKey key values k).length :=
    ((List.mergeSort_perm values (keyLe key)).filter _).length_eq
  exact (group_kept.eq_of_length same_length.symm).symm

theorem stablySorted_mergeSortBy (key : α → κ) (values : List α) :
    StablySorted key values (mergeSortBy key values) :=
  ⟨keysAscend_mergeSortBy key values, fun k => (withKey_mergeSortBy key values k).symm⟩

/-- Sorting in place succeeds on every array: every position that it reads, exchanges or rotates
lies in the array, and no difference of positions is negative.  The result is the merge sort of the
elements by key, which is a permutation of them and the only list in which the keys ascend and the
elements of each key have their old order. -/
theorem stableSort_eq_mergeSortBy (key : α → κ) (values : Array α) :
    stableSort key values = .ok (mergeSortBy key values.toList).toArray ∧
      (mergeSortBy key values.toList).Perm values.toList ∧
      ∀ sorted, StablySorted key values.toList sorted ↔ sorted = mergeSortBy key values.toList := by
  have merge_sorted := stablySorted_mergeSortBy key values.toList
  obtain ⟨sorted, sort, stable⟩ := stableSort_spec key values.toList
  refine ⟨?_, merge_sorted.groups.perm.symm, ?_⟩
  · rw [← stable.unique merge_sorted]
    exact sort
  · intro sorted
    constructor
    · exact fun sorted_stable => sorted_stable.unique merge_sorted
    · rintro rfl
      exact merge_sorted

end DegreeTwo
