import DegreeTwo.Proofs.Sorting.Runs
import Mathlib.Algebra.BigOperators.Group.List.Basic
import Mathlib.Algebra.Ring.Int.Defs

/-!
# Totals of merged sequences

A weight that combining adds up has the same total before and after merging by key: the runs are
folded without a loss, and sorting only rearranges the sequence.
-/

namespace DegreeTwo

variable {α κ ι : Type} [LinearOrder κ] {key : α → κ} {combine : α → α → Except Fault α}

/-- Combining two elements with one key returns an element with this key and the sum of the
weights. -/
def AddsWeights (key : α → κ) (weight : ι → α → Int) (combine : α → α → Except Fault α) : Prop :=
  ∀ left right, key left = key right →
    Yields (combine left right) fun merged =>
      key merged = key left ∧ ∀ i, weight i merged = weight i left + weight i right

variable {weight : ι → α → Int}

theorem AddsWeights.foldNeighbours_yields (adds : AddsWeights key weight combine) (current : α)
    (rest : List α) :
    Yields (foldNeighbours key combine current rest) fun folded =>
      ∀ i, (folded.map (weight i)).sum = weight i current + (rest.map (weight i)).sum := by
  induction rest generalizing current with
  | nil => exact .pure fun i => by simp
  | cons next rest ih =>
      rw [foldNeighbours]
      split
      · rename_i same
        apply (adds current next same.symm).bind
        rintro merged ⟨-, merged_weight⟩
        apply (ih merged).imp
        intro folded total i
        rw [total i, merged_weight i, List.map_cons, List.sum_cons, Int.add_assoc]
      · apply (ih next).bind
        intro others total
        refine .pure fun i => ?_
        rw [List.map_cons, List.sum_cons, total i, List.map_cons, List.sum_cons]

theorem AddsWeights.mergeByKey_yields (adds : AddsWeights key weight combine) (values : List α) :
    Yields (mergeByKey key combine values) fun merged =>
      ∀ i, (merged.map (weight i)).sum = (values.map (weight i)).sum := by
  obtain ⟨sorted, stable, merge⟩ := mergeByKey_eq_foldAllNeighbours key combine values
  have rearranged : ∀ i, (sorted.map (weight i)).sum = (values.map (weight i)).sum := fun i =>
    ((stable.groups.perm.map (weight i)).sum_eq).symm
  rw [merge]
  cases sorted with
  | nil => exact .pure rearranged
  | cons first rest =>
      apply (adds.foldNeighbours_yields first rest).imp
      intro folded total i
      rw [total i, ← rearranged i, List.map_cons, List.sum_cons]

end DegreeTwo
