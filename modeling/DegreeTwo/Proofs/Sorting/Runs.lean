import DegreeTwo.Proofs.Sorting.StableSort

/-!
# Folding runs of equal keys

The scan that combines equal keys works inside the sorted array: kept elements stand in front, stale
ones between them and the part that is still to be read.  It computes the same as a recursion on the
list, which combines neighbours and forgets stale elements.
-/

namespace DegreeTwo

variable {α κ : Type} {m : Type → Type} [Monad m]

/-- Combine each run of neighbours with one key from left to right; `current` is the result so far
of the run that is being read. -/
def foldNeighbours [DecidableEq κ] (key : α → κ) (combine : α → α → m α) :
    (current : α) → List α → m (List α)
  | current, [] => pure [current]
  | current, next :: rest =>
      if key next = key current then do
        let merged ← combine current next
        foldNeighbours key combine merged rest
      else do
        let others ← foldNeighbours key combine next rest
        pure (current :: others)

/-- Combine each run of neighbours of a sequence. -/
def foldAllNeighbours [DecidableEq κ] (key : α → κ) (combine : α → α → m α) : List α → m (List α)
  | [] => pure []
  | first :: rest => foldNeighbours key combine first rest

variable [LinearOrder κ] [MonadLiftT (Except Fault) m] [LawfulMonadLiftT (Except Fault) m]

theorem liftM_ok (value : α) : (liftM (Except.ok value : Except Fault α) : m α) = pure value :=
  liftM_pure value

variable [LawfulMonad m]

/-- An element that is swapped past stale elements leaves as many of them behind it. -/
theorem swap_past_stale (kept stale : List α) (next : α) (rest : List α) :
    ∃ stale', stale'.length = stale.length ∧
      Slots.swap (kept ++ (stale ++ next :: rest)).toArray kept.length
          (kept.length + stale.length) =
        .ok (kept ++ next :: (stale' ++ rest)).toArray := by
  cases stale with
  | nil => exact ⟨[], rfl, Slots.swap_self kept next rest⟩
  | cons oldest stale =>
      refine ⟨stale ++ [oldest], by simp, ?_⟩
      have swapped := Slots.swap_between kept oldest stale next rest
      rw [Nat.add_assoc, Nat.add_comm 1] at swapped
      simpa using swapped

/-- Stale elements stand between the kept ones and the part still to be read, and are never read. -/
theorem foldRuns_eq (key : α → κ) (combine : α → α → m α) (kept : List α) (current : α)
    (stale rest : List α) :
    foldRuns key combine rest.length kept.length (kept.length + 1 + stale.length)
        (kept ++ current :: (stale ++ rest)).toArray =
      (fun folded => (kept ++ folded).toArray) <$> foldNeighbours key combine current rest := by
  induction rest generalizing kept current stale with
  | nil =>
      have kept_part : (kept ++ current :: stale).take (kept.length + 1) = kept ++ [current] := by
        rw [List.take_length_add_append]
        rfl
      simp [foldRuns, foldNeighbours, kept_part]
  | cons next rest ih =>
      have read_next : Slots.read (kept ++ current :: (stale ++ next :: rest)).toArray
          (kept.length + 1 + stale.length) = .ok next := by
        have position : kept.length + 1 + stale.length = (kept ++ current :: stale).length := by
          simp
          omega
        have shape : kept ++ current :: (stale ++ next :: rest) =
            (kept ++ current :: stale) ++ next :: rest := by simp
        rw [position, shape, Slots.read_between]
      have read_current : Slots.read (kept ++ current :: (stale ++ next :: rest)).toArray
          kept.length = .ok current := Slots.read_between _ _ _
      rw [List.length_cons, foldRuns, read_next, read_current, liftM_ok, liftM_ok, pure_bind,
        pure_bind, foldNeighbours]
      by_cases same : key next = key current
      · rw [if_pos same, if_pos same, map_bind]
        congr 1
        funext merged
        rw [Slots.write_between, liftM_ok, pure_bind]
        simpa [Nat.add_assoc] using ih kept merged (stale ++ [next])
      · rw [if_neg same, if_neg same]
        obtain ⟨stale', same_length, swap⟩ := swap_past_stale (kept ++ [current]) stale next rest
        have swapped : Slots.swap (kept ++ current :: (stale ++ next :: rest)).toArray
            (kept.length + 1) (kept.length + 1 + stale.length) =
              .ok (kept ++ current :: next :: (stale' ++ rest)).toArray := by
          simpa using swap
        have folded := ih (kept ++ [current]) next stale'
        have position : (kept ++ [current]).length + 1 + stale'.length =
            kept.length + 1 + stale.length + 1 := by
          rw [List.length_append, List.length_singleton, same_length]
          omega
        rw [position] at folded
        rw [swapped, liftM_ok, pure_bind]
        simpa using folded

/-- Merging by key folds the runs of the stable sort. -/
theorem mergeByKey_eq_foldAllNeighbours (key : α → κ) (combine : α → α → m α) (values : List α) :
    ∃ sorted, StablySorted key values sorted ∧
      mergeByKey key combine values = foldAllNeighbours key combine sorted := by
  obtain ⟨sorted, sort, stable⟩ := stableSort_spec key values
  refine ⟨sorted, stable, ?_⟩
  have same_length := stable.groups.perm.length_eq
  rw [mergeByKey]
  cases sorted with
  | nil =>
      have values_empty : values = [] := List.eq_nil_of_length_eq_zero same_length
      simp [values_empty, foldAllNeighbours]
  | cons first rest =>
      have values_filled : values.isEmpty = false := by
        cases values with
        | nil => simp at same_length
        | cons value values => rfl
      rw [values_filled, sort, liftM_ok]
      have folded := foldRuns_eq key combine [] first [] rest
      simp only [List.length_nil, List.nil_append, Nat.zero_add] at folded
      simp [folded, foldAllNeighbours]

end DegreeTwo
