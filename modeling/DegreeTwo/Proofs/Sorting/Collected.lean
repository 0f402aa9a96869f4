import DegreeTwo.Proofs.Sorting.DistinctKeys
import DegreeTwo.Proofs.Sorting.GroupByKey
import DegreeTwo.Proofs.Sorting.Totals

/-!
# Collected sequences

A sequence with strictly ascending keys has one element for each of its keys.  If an element is
determined by its key and its weight, then such a sequence is determined by the set of its keys and
the weight of each; without elements of weight zero, the weights alone determine it.
-/

namespace DegreeTwo

variable {α κ : Type} [LinearOrder κ]

/-- The sum of the weights of the elements with a given key. -/
def totalAt (key : α → κ) (weight : α → Int) (values : List α) (k : κ) : Int :=
  (values.map fun value => if key value = k then weight value else 0).sum

variable {key : α → κ} {weight : α → Int} {values first second : List α}

theorem totalAt_cons (value : α) (k : κ) :
    totalAt key weight (value :: values) k =
      (if key value = k then weight value else 0) + totalAt key weight values k := by
  rw [totalAt, totalAt, List.map_cons, List.sum_cons]

theorem totalAt_eq_zero {k : κ} (absent : k ∉ values.map key) :
    totalAt key weight values k = 0 := by
  induction values with
  | nil => rfl
  | cons value values ih =>
      rw [List.map_cons, List.mem_cons, not_or] at absent
      rw [totalAt_cons, if_neg (Ne.symm absent.1), ih absent.2, Int.add_zero]

/-- Where keys ascend strictly, the weight of an element is the total at its key. -/
theorem totalAt_key (strict : (values.map key).Pairwise (· < ·)) {value : α}
    (member : value ∈ values) : totalAt key weight values (key value) = weight value := by
  induction values with
  | nil => cases member
  | cons head values ih =>
      rw [List.map_cons, List.pairwise_cons] at strict
      obtain ⟨head_less, values_strict⟩ := strict
      rw [totalAt_cons]
      rcases List.mem_cons.mp member with rfl | later
      · have absent : key value ∉ values.map key := fun occurs => lt_irrefl _ (head_less _ occurs)
        rw [if_pos rfl, totalAt_eq_zero absent, Int.add_zero]
      · have differs : key head ≠ key value := ne_of_lt (head_less _ (List.mem_map_of_mem later))
        rw [if_neg differs, Int.zero_add, ih values_strict later]

/-- Keys and totals determine a sequence with strictly ascending keys. -/
theorem eq_of_totals (determined : ∀ x y : α, key x = key y → weight x = weight y → x = y)
    (first_strict : (first.map key).Pairwise (· < ·))
    (second_strict : (second.map key).Pairwise (· < ·))
    (same_keys : ∀ k, k ∈ first.map key ↔ k ∈ second.map key)
    (same_totals : ∀ k, totalAt key weight first k = totalAt key weight second k) :
    first = second := by
  have keys_eq : first.map key = second.map key :=
    (eq_distinctKeys first_strict same_keys).trans
      (eq_distinctKeys second_strict fun _ => Iff.rfl).symm
  have length_eq : first.length = second.length := by simpa using congrArg List.length keys_eq
  apply List.ext_getElem length_eq
  intro i first_bound second_bound
  have key_eq : key first[i] = key second[i] := by
    have at_i := congrArg (·[i]?) keys_eq
    simpa [first_bound, second_bound] using at_i
  apply determined _ _ key_eq
  calc
    weight first[i] = totalAt key weight first (key first[i]) :=
      (totalAt_key first_strict (List.getElem_mem first_bound)).symm
    _ = totalAt key weight second (key second[i]) := by rw [same_totals, key_eq]
    _ = weight second[i] := totalAt_key second_strict (List.getElem_mem second_bound)

/-- The elements with a nonzero weight. -/
def nonzero (weight : α → Int) (values : List α) : List α :=
  values.filter fun value => weight value ≠ 0

theorem totalAt_nonzero (k : κ) :
    totalAt key weight (nonzero weight values) k = totalAt key weight values k := by
  induction values with
  | nil => rfl
  | cons value values ih =>
      rw [totalAt_cons, ← ih, nonzero]
      by_cases zero : weight value = 0
      · rw [List.filter_cons_of_neg (by simpa using zero), zero, ite_self, Int.zero_add, nonzero]
      · rw [List.filter_cons_of_pos (by simpa using zero), totalAt_cons, nonzero]

theorem mem_keys_nonzero (strict : (values.map key).Pairwise (· < ·)) {k : κ} :
    k ∈ (nonzero weight values).map key ↔ totalAt key weight values k ≠ 0 := by
  constructor
  · intro occurs
    obtain ⟨value, member, rfl⟩ := List.mem_map.mp occurs
    obtain ⟨member, nonzero⟩ := List.mem_filter.mp member
    rw [totalAt_key strict member]
    simpa using nonzero
  · intro nonzero_total
    by_contra absent
    rw [← totalAt_nonzero, totalAt_eq_zero absent] at nonzero_total
    exact nonzero_total rfl

/-- Totals alone determine what is left without zeros. -/
theorem nonzero_eq_of_totals (determined : ∀ x y : α, key x = key y → weight x = weight y → x = y)
    (first_strict : (first.map key).Pairwise (· < ·))
    (second_strict : (second.map key).Pairwise (· < ·))
    (same_totals : ∀ k, totalAt key weight first k = totalAt key weight second k) :
    nonzero weight first = nonzero weight second := by
  apply eq_of_totals determined
  · exact first_strict.sublist (List.filter_sublist.map key)
  · exact second_strict.sublist (List.filter_sublist.map key)
  · intro k
    rw [mem_keys_nonzero first_strict, mem_keys_nonzero second_strict, same_totals]
  · intro k
    rw [totalAt_nonzero, totalAt_nonzero, same_totals]

/-! ## Merged sequences -/

section Merged

variable {ι : Type} {weights : ι → α → Int} {combine : α → α → Except Fault α} {merged : List α}

omit [LinearOrder κ] in
theorem AddsWeights.preservesKey (adds : AddsWeights key weights combine) :
    PreservesKey key combine := by
  intro left right same
  rw [returns_except_iff]
  intro combined succeeds
  exact ((adds left right same).result succeeds).1

theorem PreservesKey.keys_of_merge (preserves : PreservesKey key combine)
    (merge : mergeByKey key combine values = .ok merged) :
    merged.map key = distinctKeys key values := by
  have keys := preserves.mergeByKey_keys values
  rw [returns_except_iff] at keys
  exact keys merged merge

end Merged

end DegreeTwo
