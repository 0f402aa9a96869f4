import DegreeTwo.Proofs.Sorting.Merge
import Mathlib.Data.List.Induction

/-!
# The stable sort

Sorting succeeds on every array and yields its stable sort.  Insertion sorts each block, and every
pass over the blocks keeps the elements of each key in order while it doubles the length up to which
the array is known to be sorted.
-/

namespace DegreeTwo

/-- The watch has nothing against the positions of an array, nor against the sums that are computed
while it is sorted: the end of a block may lie behind the array, and so may a pair of blocks. -/
structure Watch.PermitsSort (watch : Watch) (length : Nat) : Prop
    extends watch.Permits 0 length where
  /-- A block may begin anywhere. -/
  block : ∀ start, start < length → watch.sum (start + blockLength) = .ok ()
  /-- A pair of blocks that are not longer than the array may be formed. -/
  pair : ∀ sum, sum ≤ 2 * length → watch.sum sum = .ok ()

theorem Watch.trivial_permitsSort (length : Nat) : trivial.PermitsSort length where
  toPermits := trivial_permits 0 length
  block _ _ := rfl
  pair _ _ := rfl

theorem Watch.words_permitsSort {length : Nat} (fits : 2 * length < Index.limit) :
    words.PermitsSort length where
  toPermits := words_permits fits
  block start inside := if_pos (by simp only [blockLength, Index.limit] at fits ⊢; omega)
  pair sum small := if_pos (by omega)

variable {α κ : Type} [LinearOrder κ] {key : α → κ} {watch : Watch} {length : Nat}

theorem keyLess_neighbours (permits : watch.Permits 0 length) (front : List α) (left right : α)
    (back : List α) (inside : front.length + 1 < length) :
    keyLess watch key (front ++ left :: right :: back).toArray (front.length + 1) front.length =
      .ok (decide (key right < key left)) :=
  keyLess_eq_ok permits (by omega) (by omega) (by simp) (by simp)

theorem swap_neighbours (front : List α) (left right : α) (back : List α) :
    Slots.swap (front ++ left :: right :: back).toArray (front.length + 1) front.length =
      .ok (front ++ right :: left :: back).toArray := by
  rw [Slots.swap_comm _ (by simp) (by simp)]
  exact Slots.swap_between front left [] right back

/-- An element that stands behind an ascending run is moved to its place in the run. -/
theorem sink_spec (permits : watch.Permits 0 length) (front : List α) {run : List α} (x : α)
    (back : List α) (inside : front.length + run.length < length)
    (run_ascends : KeysAscend key run) :
    ∃ inserted,
      sink watch key front.length (front.length + run.length) (front ++ run ++ x :: back).toArray =
        .ok (front ++ inserted ++ back).toArray ∧
      StablySorted key (run ++ [x]) inserted := by
  induction run using List.reverseRecOn generalizing back with
  | nil =>
      refine ⟨[x], ?_, .of_ascend (List.pairwise_singleton _ x)⟩
      cases front with
      | nil => simp [sink, pure, Except.pure]
      | cons first front => simp [sink, pure, Except.pure]
  | append_singleton run last ih =>
      obtain ⟨init_ascends, le_last⟩ := keysAscend_concat.mp run_ascends
      have position : front.length + (run ++ [last]).length = (front ++ run).length + 1 := by
        simp [Nat.add_assoc]
      have shape : front ++ (run ++ [last]) ++ x :: back = (front ++ run) ++ last :: x :: back := by
        simp
      have after_start : front.length < (front ++ run).length + 1 := by
        rw [List.length_append]
        omega
      rw [position] at inside
      rw [position, shape, sink, if_pos after_start, keyLess_neighbours permits _ _ _ _ inside,
        ok_bind]
      by_cases less : key x < key last
      · -- The element passes the last one, which then stands behind the shorter run.
        have run_inside : front.length + run.length < length := by
          rw [List.length_append] at inside
          omega
        obtain ⟨inserted, sunk, sorted⟩ := ih (last :: back) run_inside init_ascends
        have moved : SameGroups key (run ++ [last] ++ [x]) (run ++ [x] ++ [last]) := by
          have exchanged : SameGroups key ([last] ++ [x]) ([x] ++ [last]) := by
            apply SameGroups.exchange
            intro y hy z hz
            rw [List.mem_singleton.mp hy, List.mem_singleton.mp hz]
            exact ne_of_gt less
          simpa using (SameGroups.refl run).append exchanged
        have behind : ∀ y ∈ run ++ [x], ∀ z ∈ [last], key y ≤ key z := by
          intro y hy z hz
          rw [List.mem_singleton.mp hz]
          rcases List.mem_append.mp hy with hy | hy
          · exact le_last y hy
          · rw [List.mem_singleton.mp hy]
            exact le_of_lt less
        refine ⟨inserted ++ [last], ?_,
          .of_groups moved (sorted.append (.of_ascend (List.pairwise_singleton _ last)) behind)⟩
        rw [if_pos (by simpa using less), swap_neighbours, ok_bind, List.length_append, sunk]
        simp
      · refine ⟨run ++ [last] ++ [x], ?_, .of_ascend (keysAscend_concat.mpr ⟨run_ascends, ?_⟩)⟩
        · simp [less, pure, Except.pure]
        · intro y hy
          rcases List.mem_append.mp hy with hy | hy
          · exact le_trans (le_last y hy) (not_lt.mp less)
          · rw [List.mem_singleton.mp hy]
            exact not_lt.mp less

theorem insertFrom_spec (permits : watch.Permits 0 length) (front : List α) {run : List α}
    (todo back : List α) (inside : front.length + run.length + todo.length ≤ length)
    (run_ascends : KeysAscend key run) :
    ∃ sorted,
      insertFrom watch key front.length todo.length (front.length + run.length)
          (front ++ run ++ todo ++ back).toArray =
        .ok (front ++ sorted ++ back).toArray ∧
      StablySorted key (run ++ todo) sorted := by
  induction todo generalizing run with
  | nil =>
      exact ⟨run, by simp [insertFrom, pure, Except.pure], by simpa using .of_ascend run_ascends⟩
  | cons x todo ih =>
      rw [List.length_cons] at inside
      obtain ⟨inserted, sunk, inserted_sorted⟩ :=
        sink_spec permits front x (todo ++ back) (by omega) run_ascends
      have position : front.length + run.length + 1 = front.length + inserted.length := by
        simp [← inserted_sorted.groups.perm.length_eq, Nat.add_assoc]
      obtain ⟨sorted, rest, sorted_sorted⟩ := ih (by omega) inserted_sorted.ascend
      refine ⟨sorted, ?_, .of_groups ?_ sorted_sorted⟩
      · rw [List.length_cons, insertFrom, List.append_assoc, List.cons_append, sunk, ok_bind,
          position, ← List.append_assoc]
        exact rest
      · simpa using inserted_sorted.groups.append (.refl todo)

theorem insertionSort_spec (permits : watch.Permits 0 length) (key : α → κ)
    (front block back : List α) (inside : front.length + block.length ≤ length) :
    ∃ sorted,
      insertionSort watch key front.length (front.length + block.length)
          (front ++ block ++ back).toArray =
        .ok (front ++ sorted ++ back).toArray ∧
      StablySorted key block sorted := by
  cases block with
  | nil => exact ⟨[], by simp [insertionSort, insertFrom, pure, Except.pure], .of_ascend .nil⟩
  | cons x block =>
      have count : front.length + (x :: block).length - (front.length + 1) = block.length := by
        simp
        omega
      rw [insertionSort, count]
      rw [List.length_cons] at inside
      have first_inside : front.length + [x].length + block.length ≤ length := by
        rw [List.length_singleton]
        omega
      simpa using
        insertFrom_spec permits front block back first_inside (List.pairwise_singleton _ x)

/-- Every block of the given length ascends, and so does the shorter one at the end. -/
inductive BlocksAscend (key : α → κ) (block : Nat) : List α → Prop
  /-- What is not longer than a block is a block. -/
  | last {values : List α} (short : values.length ≤ block) (ascends : KeysAscend key values) :
      BlocksAscend key block values
  /-- A block of full length stands before other blocks. -/
  | full {first rest : List α} (length_eq : first.length = block)
      (ascends : KeysAscend key first) (blocks : BlocksAscend key block rest) :
      BlocksAscend key block (first ++ rest)

namespace BlocksAscend

variable {block : Nat} {values : List α}

theorem ascends_of_length_le (blocks : BlocksAscend key block values)
    (short : values.length ≤ block) : KeysAscend key values := by
  cases blocks with
  | last _ ascends => exact ascends
  | @full first rest length_eq ascends _ =>
      have rest_empty : rest = [] := by
        apply List.eq_nil_of_length_eq_zero
        simp only [List.length_append] at short
        omega
      simpa [rest_empty] using ascends

theorem exists_first (blocks : BlocksAscend key block values) (long : block ≤ values.length) :
    ∃ first rest, values = first ++ rest ∧ first.length = block ∧ KeysAscend key first ∧
      BlocksAscend key block rest := by
  cases blocks with
  | last short ascends =>
      exact ⟨values, [], (List.append_nil values).symm, Nat.le_antisymm short long, ascends,
        .last (Nat.zero_le block) .nil⟩
  | full length_eq ascends blocks => exact ⟨_, _, rfl, length_eq, ascends, blocks⟩

theorem exists_pair (blocks : BlocksAscend key block values) (long : 2 * block ≤ values.length) :
    ∃ left right rest, values = left ++ right ++ rest ∧ left.length = block ∧
      right.length = block ∧ KeysAscend key left ∧ KeysAscend key right ∧
      BlocksAscend key block rest := by
  obtain ⟨left, others, rfl, left_length, left_ascends, others_blocks⟩ :=
    blocks.exists_first (by omega)
  rw [List.length_append] at long
  obtain ⟨right, rest, rfl, right_length, right_ascends, rest_blocks⟩ :=
    others_blocks.exists_first (by omega)
  exact ⟨left, right, rest, (List.append_assoc left right rest).symm, left_length, right_length,
    left_ascends, right_ascends, rest_blocks⟩

theorem exists_last_pair (blocks : BlocksAscend key block values) (long : block < values.length)
    (short : values.length ≤ 2 * block) :
    ∃ left right, values = left ++ right ∧ left.length = block ∧ right ≠ [] ∧
      KeysAscend key left ∧ KeysAscend key right := by
  obtain ⟨left, right, rfl, left_length, left_ascends, right_blocks⟩ :=
    blocks.exists_first (by omega)
  rw [List.length_append] at long short
  exact ⟨left, right, rfl, left_length, List.ne_nil_of_length_pos (by omega), left_ascends,
    right_blocks.ascends_of_length_le (by omega)⟩

end BlocksAscend

theorem sortBlocks_spec (permits : watch.PermitsSort length) (key : α → κ) (front todo : List α)
    (whole : front.length + todo.length = length) :
    ∃ sorted,
      sortBlocks watch key length front.length (front ++ todo).toArray =
        .ok (front ++ sorted).toArray ∧
      SameGroups key todo sorted ∧ BlocksAscend key blockLength sorted := by
  induction size_eq : todo.length using Nat.strongRecOn generalizing front todo with
  | ind size ih =>
      rw [size_eq] at whole
      rw [sortBlocks]
      by_cases remaining : 0 < size
      · obtain ⟨block, rest, rfl, block_length⟩ :
            ∃ block rest, todo = block ++ rest ∧ block.length = min blockLength todo.length :=
          ⟨todo.take blockLength, todo.drop blockLength,
            (List.take_append_drop blockLength todo).symm, List.length_take⟩
        rw [size_eq] at block_length
        rw [List.length_append] at size_eq
        have block_pos : 0 < blockLength := by decide
        obtain ⟨sorted, sort, block_sorted⟩ :=
          insertionSort_spec permits.toPermits key front block rest (by omega)
        have sorted_length := block_sorted.groups.perm.length_eq
        have next : (front ++ sorted).length = front.length + block.length := by
          rw [List.length_append, sorted_length]
        obtain ⟨others, sort_others, same, blocks⟩ :=
          ih rest.length (by omega) (front ++ sorted) rest (by omega) rfl
        have stop : min (front.length + blockLength) length = front.length + block.length := by
          omega
        refine ⟨sorted ++ others, ?_, block_sorted.groups.append same, ?_⟩
        · rw [if_pos (by omega), permits.block front.length (by omega), ok_bind, stop]
          dsimp only
          rw [← List.append_assoc, sort, ok_bind]
          rw [next] at sort_others
          simpa using sort_others
        · by_cases short : size ≤ blockLength
          · have others_empty : others = [] := by
              apply List.eq_nil_of_length_eq_zero
              rw [← same.perm.length_eq]
              omega
            rw [others_empty, List.append_nil]
            exact .last (by omega) block_sorted.ascend
          · exact .full (by omega) block_sorted.ascend blocks
      · have todo_empty : todo = [] := List.eq_nil_of_length_eq_zero (by omega)
        refine ⟨[], ?_, by rw [todo_empty]; exact .refl [], .last (Nat.zero_le _) .nil⟩
        rw [if_neg (by omega), todo_empty]
        rfl

/-- A pass merges the blocks pair by pair, so that blocks of twice the length ascend after it. -/
theorem mergePass_spec (permits : watch.PermitsSort length) {block : Nat} (block_pos : 0 < block)
    (shorter : block < length) (front : List α) {todo : List α}
    (whole : front.length + todo.length = length)
    (started : front.length = 0 ∨ 2 * block ≤ front.length)
    (blocks : BlocksAscend key block todo) :
    ∃ merged,
      mergePass watch key length block block_pos front.length (front ++ todo).toArray =
        .ok (front ++ merged).toArray ∧
      SameGroups key todo merged ∧ BlocksAscend key (2 * block) merged := by
  induction size_eq : todo.length using Nat.strongRecOn generalizing front todo with
  | ind size ih =>
      rw [size_eq] at whole
      rw [mergePass, permits.pair (2 * block) (by omega), ok_bind,
        permits.pair (front.length + 2 * block) (by omega), ok_bind]
      by_cases two : 2 * block ≤ size
      · obtain ⟨left, right, rest, rfl, left_length, right_length, left_ascends, right_ascends,
          rest_blocks⟩ := blocks.exists_pair (by omega)
        rw [List.length_append, List.length_append] at size_eq
        obtain ⟨merged, merge, merged_sorted⟩ :=
          mergesRuns front rest (permits.mono (Nat.zero_le _) (by omega))
            (List.ne_nil_of_length_pos (by omega)) (List.ne_nil_of_length_pos (by omega))
            left_ascends right_ascends
        have merged_length : merged.length = 2 * block := by
          rw [← merged_sorted.groups.perm.length_eq, List.length_append]
          omega
        have next : (front ++ merged).length = front.length + 2 * block := by
          rw [List.length_append, merged_length]
        obtain ⟨others, merge_others, same, others_blocks⟩ :=
          ih rest.length (by omega) (front ++ merged) (by omega) (.inr (by omega)) rest_blocks rfl
        refine ⟨merged ++ others, ?_, merged_sorted.groups.append same,
          .full merged_length merged_sorted.ascend others_blocks⟩
        rw [left_length, right_length, Nat.add_assoc, ← Nat.two_mul] at merge
        rw [if_pos (by omega), ← List.append_assoc, ← List.append_assoc, merge, ok_bind]
        rw [next] at merge_others
        simpa using merge_others
      · rw [if_neg (by omega), permits.pair (front.length + block) (by omega), ok_bind]
        by_cases one : block < size
        · obtain ⟨left, right, rfl, left_length, right_ne, left_ascends, right_ascends⟩ :=
            blocks.exists_last_pair (by omega) (by omega)
          rw [List.length_append] at size_eq
          obtain ⟨merged, merge, merged_sorted⟩ :=
            mergesRuns front [] (permits.mono (Nat.zero_le _) (by omega))
              (List.ne_nil_of_length_pos (by omega)) right_ne left_ascends right_ascends
          have merged_length := merged_sorted.groups.perm.length_eq
          rw [List.length_append] at merged_length
          have stop : front.length + block + right.length = length := by omega
          refine ⟨merged, ?_, merged_sorted.groups, .last (by omega) merged_sorted.ascend⟩
          rw [left_length, stop] at merge
          rw [if_pos (by omega)]
          simpa using merge
        · have ascends := blocks.ascends_of_length_le (by omega)
          exact ⟨todo, by rw [if_neg (by omega)]; rfl, .refl todo, .last (by omega) ascends⟩

theorem mergePasses_spec (permits : watch.PermitsSort length) {block : Nat} (block_pos : 0 < block)
    {values : List α} (whole : values.length = length) (blocks : BlocksAscend key block values) :
    ∃ sorted, mergePasses watch key length block block_pos values.toArray = .ok sorted.toArray ∧
      StablySorted key values sorted := by
  induction gap : length - block using Nat.strongRecOn generalizing block values with
  | ind gap ih =>
      rw [mergePasses]
      by_cases several : block < length
      · obtain ⟨merged, pass, same, merged_blocks⟩ :=
          mergePass_spec permits block_pos several [] (by simpa using whole) (.inl rfl) blocks
        obtain ⟨sorted, passes, merged_sorted⟩ :=
          ih (length - 2 * block) (by omega) (Nat.mul_pos Nat.two_pos block_pos)
            (same.perm.length_eq.symm.trans whole) merged_blocks rfl
        refine ⟨sorted, ?_, .of_groups same merged_sorted⟩
        have pass' : mergePass watch key length block block_pos 0 values.toArray =
            .ok merged.toArray := by simpa using pass
        rw [if_pos several, pass', ok_bind, permits.pair (2 * block) (by omega), ok_bind]
        exact passes
      · refine ⟨values, ?_, .of_ascend (blocks.ascends_of_length_le (by omega))⟩
        rw [if_neg several]
        rfl

/-- Sorting succeeds, under every watch that permits it, and the result is the stable sort. -/
theorem sortWatched_spec (key : α → κ) (values : List α)
    (permits : watch.PermitsSort values.length) :
    ∃ sorted, sortWatched watch key values.toArray = .ok sorted.toArray ∧
      StablySorted key values sorted := by
  obtain ⟨ordered, sort_blocks, same, blocks⟩ :=
    sortBlocks_spec permits key [] values (by simp)
  obtain ⟨sorted, passes, ordered_sorted⟩ :=
    mergePasses_spec permits (by decide) same.perm.length_eq.symm blocks
  refine ⟨sorted, ?_, .of_groups same ordered_sorted⟩
  have sort_blocks' :
      sortBlocks watch key values.length 0 values.toArray = .ok ordered.toArray := by
    simpa using sort_blocks
  rw [sortWatched, List.size_toArray, sort_blocks', ok_bind]
  exact passes

theorem stableSort_spec (key : α → κ) (values : List α) :
    ∃ sorted, stableSort key values.toArray = .ok sorted.toArray ∧
      StablySorted key values sorted :=
  sortWatched_spec key values (Watch.trivial_permitsSort _)

end DegreeTwo
