import DegreeTwo.Proofs.Sorting.Stability
import Mathlib.Data.List.Dedup
import Mathlib.Data.List.Sort

/-!
# The keys of a sequence

The keys that occur in a sequence form a strictly ascending list, which depends on nothing but the
set of them.
-/

namespace DegreeTwo

variable {α κ : Type} [LinearOrder κ]

/-- The keys that occur in a sequence, each of them once and in ascending order. -/
def distinctKeys (key : α → κ) (values : List α) : List κ :=
  (values.map key).dedup.insertionSort (· ≤ ·)

variable {key : α → κ} {values : List α}

theorem mem_distinctKeys {k : κ} : k ∈ distinctKeys key values ↔ k ∈ values.map key := by
  rw [distinctKeys, List.mem_insertionSort, List.mem_dedup]

theorem distinctKeys_strict : (distinctKeys key values).Pairwise (· < ·) := by
  have sorted : (distinctKeys key values).Pairwise (· ≤ ·) :=
    List.pairwise_insertionSort (· ≤ ·) (values.map key).dedup
  have nodup : (distinctKeys key values).Nodup :=
    (List.perm_insertionSort (· ≤ ·) (values.map key).dedup).nodup_iff.mpr (List.nodup_dedup _)
  exact (sorted.and nodup).imp fun both => lt_of_le_of_ne both.1 both.2

/-- A strictly ascending list of the keys that occur is the list of them. -/
theorem eq_distinctKeys {keys : List κ} (strict : keys.Pairwise (· < ·))
    (mem : ∀ k, k ∈ keys ↔ k ∈ values.map key) : keys = distinctKeys key values := by
  refine List.Perm.eq_of_pairwise ?_ strict distinctKeys_strict ?_
  · intro x y _ _ less greater
    exact absurd greater (lt_asymm less)
  · rw [List.perm_ext_iff_of_nodup (strict.imp ne_of_lt) (distinctKeys_strict.imp ne_of_lt)]
    intro k
    rw [mem, mem_distinctKeys]

theorem SameGroups.distinctKeys_eq {other : List α} (same : SameGroups key values other) :
    distinctKeys key values = distinctKeys key other :=
  eq_distinctKeys distinctKeys_strict fun k => by
    rw [mem_distinctKeys, (same.perm.map key).mem_iff]

/-- In an ascending sequence the key of the first element comes first. -/
theorem distinctKeys_cons {first : α} (ascend : KeysAscend key (first :: values)) :
    distinctKeys key (first :: values) =
      key first :: (distinctKeys key values).filter (· ≠ key first) := by
  have first_le : ∀ value ∈ values, key first ≤ key value := (List.pairwise_cons.mp ascend).1
  refine (eq_distinctKeys (List.pairwise_cons.mpr ⟨?_, distinctKeys_strict.filter _⟩) ?_).symm
  · intro k member
    obtain ⟨occurs, differs⟩ := List.mem_filter.mp member
    obtain ⟨value, hvalue, rfl⟩ := List.mem_map.mp (mem_distinctKeys.mp occurs)
    exact lt_of_le_of_ne (first_le value hvalue) (Ne.symm (by simpa using differs))
  · intro k
    rw [List.mem_cons, List.mem_filter, mem_distinctKeys, List.map_cons, List.mem_cons]
    by_cases same : k = key first <;> simp [same]

end DegreeTwo
