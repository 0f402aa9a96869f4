import DegreeTwo.Proofs.Sorting.DistinctKeys
import DegreeTwo.Proofs.Sorting.Runs

/-!
# Grouping by key

Merging by key computes, for each key that occurs, the left fold of the elements with this key in
the order of the sequence.  The result is stated as an equation between computations: in whatever
way combining can fail or have other effects, its calls are made for the least key first, and for
one key in the order of the elements.
-/

namespace DegreeTwo

variable {α β κ : Type} {m : Type → Type} [Monad m]

/-- The left fold of a sequence that starts with its first element; an empty sequence has none. -/
def foldFirst (combine : α → α → m α) : List α → m (Option α)
  | [] => pure none
  | first :: rest => some <$> rest.foldlM combine first

/-- The values that a computation can return have a property: it is a computation of values together
with proofs of the property. -/
def Returns (property : α → Prop) (computation : m α) : Prop :=
  ∃ proved : m { value // property value }, Subtype.val <$> proved = computation

/-- Combining two elements with one key can only return elements with this key. -/
def PreservesKey (key : α → κ) (combine : α → α → m α) : Prop :=
  ∀ left right, key left = key right →
    Returns (fun merged => key merged = key left) (combine left right)

variable [LawfulMonad m] {key : α → κ} {combine : α → α → m α}

/-! ## Values that can be returned -/

namespace Returns

variable {p : α → Prop} {q : β → Prop} {computation : m α}

theorem pure {value : α} (holds : p value) : Returns p (Pure.pure value : m α) :=
  ⟨Pure.pure ⟨value, holds⟩, map_pure Subtype.val _⟩

theorem bind {next : α → m β} (returns : Returns p computation)
    (next_returns : ∀ value, p value → Returns q (next value)) :
    Returns q (computation >>= next) := by
  obtain ⟨proved, rfl⟩ := returns
  choose next_proved next_eq using next_returns
  refine ⟨proved >>= fun value => next_proved value.val value.property, ?_⟩
  rw [map_bind, bind_map_left]
  exact bind_congr fun value => next_eq value.val value.property

theorem map {f : α → β} (returns : Returns p computation) (maps : ∀ value, p value → q (f value)) :
    Returns q (f <$> computation) := by
  rw [map_eq_pure_bind]
  exact returns.bind fun value holds => .pure (maps value holds)

/-- What follows a computation matters only for the values that it can return. -/
theorem bind_congr {f g : α → m β} (returns : Returns p computation)
    (same : ∀ value, p value → f value = g value) : computation >>= f = computation >>= g := by
  obtain ⟨proved, rfl⟩ := returns
  rw [bind_map_left, bind_map_left]
  congr 1
  funext value
  exact same value.val value.property

end Returns

theorem returns_except_iff {ε : Type} {p : α → Prop} {computation : Except ε α} :
    Returns p computation ↔ ∀ value, computation = .ok value → p value := by
  constructor
  · rintro ⟨proved, rfl⟩ value returned
    cases proved with
    | error failure => cases returned
    | ok result =>
        cases returned
        exact result.property
  · intro holds
    cases computation with
    | error failure => exact ⟨.error failure, rfl⟩
    | ok value => exact .pure (holds value rfl)

/-! ## Folds of the elements of one key -/

theorem filterMapM_congr {f g : β → m (Option α)} {inputs : List β}
    (same : ∀ input ∈ inputs, f input = g input) : inputs.filterMapM f = inputs.filterMapM g := by
  induction inputs with
  | nil => rfl
  | cons input inputs ih =>
      rw [List.filterMapM_cons, List.filterMapM_cons, same input List.mem_cons_self,
        ih fun other member => same other (List.mem_cons_of_mem input member)]

/-- The fold over elements with one key has this key. -/
theorem PreservesKey.foldlM (preserves : PreservesKey key combine) {first : α} {rest : List α}
    (same : ∀ value ∈ rest, key value = key first) :
    Returns (fun merged => key merged = key first) (rest.foldlM combine first) := by
  induction rest generalizing first with
  | nil => exact Returns.pure rfl
  | cons next rest ih =>
      rw [List.foldlM_cons]
      apply (preserves first next (same next List.mem_cons_self).symm).bind
      intro merged merged_key
      rw [← merged_key]
      apply ih
      intro value member
      rw [merged_key, same value (List.mem_cons_of_mem next member)]

variable [LinearOrder κ]

/-- The fold over the elements of a key that occurs is an element with this key. -/
theorem PreservesKey.fold_group (preserves : PreservesKey key combine) {values : List α} {k : κ}
    (occurs : k ∈ values.map key) :
    Returns (fun folded => ∃ merged, folded = some merged ∧ key merged = k)
      (foldFirst combine (withKey key values k)) := by
  have in_group : ∀ value ∈ withKey key values k, key value = k := fun value member =>
    (mem_withKey.mp member).2
  cases group : withKey key values k with
  | nil =>
      obtain ⟨value, member, value_key⟩ := List.mem_map.mp occurs
      have absent : value ∈ withKey key values k := mem_withKey.mpr ⟨member, value_key⟩
      simp [group] at absent
  | cons first rest =>
      rw [group] at in_group
      have first_key := in_group first List.mem_cons_self
      have one_key : ∀ value ∈ rest, key value = key first := by
        intro value member
        rw [first_key, in_group value (List.mem_cons_of_mem first member)]
      apply (preserves.foldlM one_key).map
      intro merged merged_key
      exact ⟨merged, rfl, merged_key.trans first_key⟩

/-- The first element only matters for the fold of its own key. -/
theorem filterMapM_fold_cons {first : α} {rest : List α} {keys : List κ}
    (differ : ∀ k ∈ keys, k ≠ key first) :
    keys.filterMapM (fun k => foldFirst combine (withKey key (first :: rest) k)) =
      keys.filterMapM fun k => foldFirst combine (withKey key rest k) := by
  apply filterMapM_congr
  intro k member
  rw [withKey_cons_of_ne (differ k member).symm]

/-- Folding the runs of an ascending sequence folds the elements of each key. -/
theorem foldNeighbours_eq (preserves : PreservesKey key combine) {current : α} {rest : List α}
    (ascend : KeysAscend key (current :: rest)) :
    foldNeighbours key combine current rest = (do
      let merged ← (withKey key rest (key current)).foldlM combine current
      let others ← ((distinctKeys key rest).filter (· ≠ key current)).filterMapM fun k =>
        foldFirst combine (withKey key rest k)
      pure (merged :: others)) := by
  induction rest generalizing current with
  | nil => simp [foldNeighbours, distinctKeys]
  | cons next rest ih =>
      obtain ⟨current_le, rest_ascend⟩ := List.pairwise_cons.mp ascend
      rw [foldNeighbours, distinctKeys_cons rest_ascend]
      by_cases same : key next = key current
      · have keys : (key next :: (distinctKeys key rest).filter (· ≠ key next)).filter
            (· ≠ key current) = (distinctKeys key rest).filter (· ≠ key current) := by
          simp [same]
        have other_keys : ∀ k ∈ (distinctKeys key rest).filter (· ≠ key current),
            k ≠ key next := by
          intro k member
          rw [same]
          simpa using (List.mem_filter.mp member).2
        rw [if_pos same, keys, withKey_cons_self same, List.foldlM_cons, bind_assoc,
          filterMapM_fold_cons other_keys]
        -- Only a merged element with the same key leaves the rest of the sequence ascending.
        apply (preserves current next same.symm).bind_congr
        intro merged merged_key
        have merged_ascend : KeysAscend key (merged :: rest) := by
          refine List.pairwise_cons.mpr ⟨?_, (List.pairwise_cons.mp rest_ascend).2⟩
          intro value member
          rw [merged_key]
          exact current_le value (List.mem_cons_of_mem next member)
        rw [ih merged_ascend, merged_key]
      · have current_less : ∀ value ∈ next :: rest, key current < key value := by
          have next_less := lt_of_le_of_ne (current_le next List.mem_cons_self) (Ne.symm same)
          intro value member
          rcases List.mem_cons.mp member with rfl | member
          · exact next_less
          · exact next_less.trans_le ((List.pairwise_cons.mp rest_ascend).1 value member)
        have current_group : withKey key (next :: rest) (key current) = [] :=
          withKey_eq_nil fun value member => ne_of_gt (current_less value member)
        have keys : (key next :: (distinctKeys key rest).filter (· ≠ key next)).filter
            (· ≠ key current) = key next :: (distinctKeys key rest).filter (· ≠ key next) := by
          rw [List.filter_eq_self]
          intro k member
          rw [← distinctKeys_cons rest_ascend, mem_distinctKeys] at member
          obtain ⟨value, hvalue, rfl⟩ := List.mem_map.mp member
          simpa using ne_of_gt (current_less value hvalue)
        have other_keys : ∀ k ∈ (distinctKeys key rest).filter (· ≠ key next), k ≠ key next := by
          intro k member
          simpa using (List.mem_filter.mp member).2
        rw [if_neg same, current_group, keys, List.foldlM_nil, pure_bind, List.filterMapM_cons,
          withKey_cons_self rfl, filterMapM_fold_cons other_keys, ih rest_ascend]
        simp [foldFirst]

theorem foldAllNeighbours_eq (preserves : PreservesKey key combine) {sorted : List α}
    (ascend : KeysAscend key sorted) :
    foldAllNeighbours key combine sorted =
      (distinctKeys key sorted).filterMapM fun k => foldFirst combine (withKey key sorted k) := by
  cases sorted with
  | nil => simp [foldAllNeighbours, distinctKeys]
  | cons first rest =>
      have other_keys : ∀ k ∈ (distinctKeys key rest).filter (· ≠ key first), k ≠ key first := by
        intro k member
        simpa using (List.mem_filter.mp member).2
      rw [foldAllNeighbours, foldNeighbours_eq preserves ascend, distinctKeys_cons ascend,
        List.filterMapM_cons, withKey_cons_self rfl, filterMapM_fold_cons other_keys]
      simp [foldFirst]

theorem PreservesKey.filterMapM_foldFirst (preserves : PreservesKey key combine) {values : List α}
    {keys : List κ} (occur : ∀ k ∈ keys, k ∈ values.map key) :
    Returns (fun result => result.map key = keys)
      (keys.filterMapM fun k => foldFirst combine (withKey key values k)) := by
  induction keys with
  | nil => exact Returns.pure rfl
  | cons k keys ih =>
      rw [List.filterMapM_cons]
      apply (preserves.fold_group (occur k List.mem_cons_self)).bind
      rintro folded ⟨merged, rfl, merged_key⟩
      apply (ih fun other member => occur other (List.mem_cons_of_mem k member)).bind
      intro others others_keys
      exact Returns.pure (by rw [List.map_cons, merged_key, others_keys])

variable [MonadLiftT (Except Fault) m] [LawfulMonadLiftT (Except Fault) m]

theorem mergeByKey_eq_filterMapM (preserves : PreservesKey key combine) (values : List α) :
    mergeByKey key combine values =
      (distinctKeys key values).filterMapM fun k => foldFirst combine (withKey key values k) := by
  obtain ⟨sorted, stable, merge⟩ := mergeByKey_eq_foldAllNeighbours key combine values
  rw [merge, foldAllNeighbours_eq preserves stable.ascend, stable.groups.distinctKeys_eq]
  congr 1
  funext k
  rw [stable.groups k]

/-- Every result has one element for each key that occurs, in ascending order. -/
theorem PreservesKey.mergeByKey_keys (preserves : PreservesKey key combine) (values : List α) :
    Returns (fun result => result.map key = distinctKeys key values)
      (mergeByKey key combine values) := by
  rw [mergeByKey_eq_filterMapM preserves values]
  exact preserves.filterMapM_foldFirst fun k member => mem_distinctKeys.mp member

/-- Merging by key is the computation that folds, for one key after the other in ascending order,
the elements with this key in the order of the sequence.  The keys of every result are exactly those
that occur, each of them once and in ascending order. -/
theorem mergeByKey_folds_each_key (key : α → κ) (combine : α → α → m α) (values : List α)
    (preserves : PreservesKey key combine) :
    mergeByKey key combine values =
        (distinctKeys key values).filterMapM (fun k => foldFirst combine (withKey key values k)) ∧
      Returns (fun result => result.map key = distinctKeys key values)
        (mergeByKey key combine values) ∧
      (distinctKeys key values).Pairwise (· < ·) ∧
      ∀ k, k ∈ distinctKeys key values ↔ k ∈ values.map key :=
  ⟨mergeByKey_eq_filterMapM preserves values, preserves.mergeByKey_keys values,
    distinctKeys_strict, fun _ => mem_distinctKeys⟩

/-- A sum that is refused above ten, with the two summands in the refusal. -/
def cappedSum (left right : Nat × Nat) : Except Fault (Nat × Nat) :=
  if left.2 + right.2 ≤ 10 then .ok (left.1, left.2 + right.2)
  else .error (.indexOutOfRange left.2 right.2)

theorem cappedSum_preservesKey : PreservesKey Prod.fst cappedSum := by
  intro left right _
  rw [returns_except_iff]
  intro merged sum
  unfold cappedSum at sum
  split at sum
  · cases sum
    rfl
  · cases sum

/-- Sums fail for two keys; the lesser key decides, although its elements stand behind. -/
theorem mergeByKey_folds_each_key_capped :
    PreservesKey Prod.fst cappedSum ∧
      mergeByKey Prod.fst cappedSum [(2, 9), (1, 3), (2, 5), (1, 4), (0, 8), (1, 6)] =
        .error (.indexOutOfRange 7 6) :=
  ⟨cappedSum_preservesKey,
    (mergeByKey_folds_each_key Prod.fst cappedSum [(2, 9), (1, 3), (2, 5), (1, 4), (0, 8), (1, 6)]
      cappedSum_preservesKey).1.trans (by rfl)⟩

end DegreeTwo
