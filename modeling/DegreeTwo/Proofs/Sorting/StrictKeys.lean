import DegreeTwo.Proofs.Sorting.Reference
import DegreeTwo.Proofs.Sorting.Runs
import DegreeTwo.Sorting.Ascending

/-!
# Strictly ascending keys

Comparing neighbours decides whether the keys of a whole sequence ascend strictly.  Where they do,
the sequence is its own stable sort and no two neighbours have a common key, so that merging by key
combines nothing and moves nothing.
-/

namespace DegreeTwo

variable {α κ : Type} [LinearOrder κ]

/-- The comparison of neighbours speaks of all pairs. -/
theorem ascendsStrictly_iff {keys : List κ} :
    ascendsStrictly keys = true ↔ keys.Pairwise (· < ·) := by
  rw [← List.isChain_iff_pairwise]
  induction keys using ascendsStrictly.induct with
  | case1 first second rest ih =>
      rw [ascendsStrictly, List.isChain_cons_cons, ← ih, Bool.and_eq_true, Bool.not_eq_true',
        decide_eq_false_iff_not, not_le]
  | case2 keys short =>
      -- Fewer than two keys have no neighbours.
      match keys, short with
      | [], _ => simp [ascendsStrictly]
      | [key], _ => simp [ascendsStrictly]
      | first :: second :: rest, short => exact (short first second rest rfl).elim

variable {m : Type → Type} [Monad m] [LawfulMonad m] {key : α → κ} {combine : α → α → m α}

theorem foldNeighbours_of_strict {current : α} {rest : List α}
    (strict : ((current :: rest).map key).Pairwise (· < ·)) :
    foldNeighbours key combine current rest = pure (current :: rest) := by
  induction rest generalizing current with
  | nil => rfl
  | cons next rest ih =>
      rw [List.map_cons, List.pairwise_cons] at strict
      have differ : key next ≠ key current := ne_of_gt (strict.1 _ List.mem_cons_self)
      rw [foldNeighbours, if_neg differ, ih strict.2, pure_bind]

theorem foldAllNeighbours_of_strict {values : List α}
    (strict : (values.map key).Pairwise (· < ·)) :
    foldAllNeighbours key combine values = pure values := by
  cases values with
  | nil => rfl
  | cons first rest => exact foldNeighbours_of_strict strict

/-- Merging by key leaves a sequence with strictly ascending keys as it is. -/
theorem mergeByKey_of_strict [MonadLiftT (Except Fault) m] [LawfulMonadLiftT (Except Fault) m]
    {values : List α} (strict : (values.map key).Pairwise (· < ·)) :
    mergeByKey key combine values = pure values := by
  have ascend : KeysAscend key values := (List.pairwise_map.mp strict).imp le_of_lt
  obtain ⟨sorted, stable, merge⟩ := mergeByKey_eq_foldAllNeighbours key combine values
  rw [merge, stable.unique (.of_ascend ascend), foldAllNeighbours_of_strict strict]

end DegreeTwo
