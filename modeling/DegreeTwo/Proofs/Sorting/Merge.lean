import DegreeTwo.Proofs.Outcome
import DegreeTwo.Proofs.Sorting.Slots
import DegreeTwo.Proofs.Sorting.Stability
import DegreeTwo.Proofs.Watch

/-!
# Merging adjacent runs

Merging two adjacent ascending runs in place sorts their concatenation stably and leaves the rest of
the array alone.  The symmetric search cuts both runs so that the first parts together are as long
as the first half of the range; exchanging the second part of the left run with the first part of
the right one then leaves two shorter merges that do not interact.  None of its positions lies
outside of the range of both runs, so no watch that permits the range makes a difference.
-/

namespace DegreeTwo

variable {α κ : Type} {watch : Watch} {first last : Nat}

/-- The test holds exactly below the point that the search returns. -/
theorem partitionPoint_spec (permits : watch.Permits first last) {before : Nat → Except Fault Bool}
    {test : Nat → Prop} [DecidablePred test] {low high : Nat} (bounds : low ≤ high)
    (lower : first ≤ low) (upper : high ≤ last)
    (reads : ∀ p, low ≤ p → p < high → before p = .ok (decide (test p)))
    (initial : ∀ p q, low ≤ p → p ≤ q → q < high → test q → test p) :
    ∃ point, partitionPoint watch before low high = .ok point ∧ low ≤ point ∧ point ≤ high ∧
      (∀ p, low ≤ p → p < point → test p) ∧ ∀ p, point ≤ p → p < high → ¬ test p := by
  fun_induction partitionPoint watch before low high with
  | case1 low high inside middle ih_after ih_before =>
      have middle_bounds : low ≤ middle ∧ middle < high := by omega
      rw [reads middle middle_bounds.1 middle_bounds.2,
        permits.boundary (middle + 1) (by omega) (by omega),
        permits.boundary middle (by omega) (by omega)]
      by_cases passes : test middle
      · obtain ⟨point, search, point_lower, point_upper, below, above⟩ :=
          ih_after (by omega) (by omega) upper (fun p hlow => reads p (by omega))
            fun p q hlow => initial p q (by omega)
        refine ⟨point, by simpa [passes, bind, Except.bind] using search, by omega, point_upper, ?_,
          above⟩
        intro p hlow hpoint
        by_cases later : middle + 1 ≤ p
        · exact below p later hpoint
        · exact initial p middle hlow (by omega) middle_bounds.2 passes
      · obtain ⟨point, search, point_lower, point_upper, below, above⟩ :=
          ih_before middle_bounds.1 lower (by omega) (fun p hlow hp => reads p hlow (by omega))
            fun p q hlow hpq hq => initial p q hlow hpq (by omega)
        refine ⟨point, by simpa [passes, bind, Except.bind] using search, point_lower, by omega,
          below, ?_⟩
        intro p hpoint hp hpass
        by_cases earlier : p < middle
        · exact above p hpoint earlier hpass
        · exact passes (initial middle p middle_bounds.1 (by omega) hp hpass)
  | case2 low high outside =>
      exact ⟨low, rfl, Nat.le_refl low, bounds, fun p hlow hp => by omega,
        fun p hlow hp => by omega⟩

/-- The search between two positions that are counted from an offset. -/
theorem partitionPoint_offset (permits : watch.Permits first last)
    (before : Nat → Except Fault Bool) {test : Nat → Prop} [DecidablePred test] (offset : Nat)
    {lowest highest : Nat} (bounds : lowest ≤ highest) (lower : first ≤ offset + lowest)
    (upper : offset + highest ≤ last)
    (reads : ∀ i, lowest ≤ i → i < highest → before (offset + i) = .ok (decide (test i)))
    (initial : ∀ i j, lowest ≤ i → i ≤ j → j < highest → test j → test i) :
    ∃ split,
      partitionPoint watch before (offset + lowest) (offset + highest) = .ok (offset + split) ∧
      lowest ≤ split ∧ split ≤ highest ∧
      (∀ i, lowest ≤ i → i < split → test i) ∧ ∀ i, split ≤ i → i < highest → ¬ test i := by
  have shifted_reads : ∀ p, offset + lowest ≤ p → p < offset + highest →
      before p = .ok (decide (test (p - offset))) := by
    intro p hlow hhigh
    rw [← reads (p - offset) (by omega) (by omega), Nat.add_sub_cancel' (by omega)]
  have shifted_initial : ∀ p q, offset + lowest ≤ p → p ≤ q → q < offset + highest →
      test (q - offset) → test (p - offset) := fun p q hlow hpq hhigh =>
    initial (p - offset) (q - offset) (by omega) (by omega) (by omega)
  obtain ⟨point, search, point_lower, point_upper, below, above⟩ :=
    partitionPoint_spec permits (Nat.add_le_add_left bounds offset) lower upper shifted_reads
      shifted_initial
  obtain ⟨split, rfl⟩ := Nat.exists_eq_add_of_le (Nat.le_of_add_right_le point_lower)
  refine ⟨split, search, by omega, by omega, ?_, ?_⟩
  · intro i hlow hi
    simpa using below (offset + i) (by omega) (by omega)
  · intro i hi hhigh
    simpa using above (offset + i) (by omega) (by omega)

/-- Searching a segment splits it where the test stops to hold. -/
theorem partitionPoint_segment (permits : watch.Permits first last)
    (before : Nat → Except Fault Bool) {test : α → Prop} [DecidablePred test] {segment : List α}
    {offset : Nat} (lower : first ≤ offset) (upper : offset + segment.length ≤ last)
    (reads : ∀ i (h : i < segment.length), before (offset + i) = .ok (decide (test segment[i])))
    (initial : segment.Pairwise fun earlier later => test later → test earlier) :
    ∃ front back, segment = front ++ back ∧
      partitionPoint watch before offset (offset + segment.length) = .ok (offset + front.length) ∧
      (∀ value ∈ front, test value) ∧ ∀ value ∈ back, ¬ test value := by
  have passes_reads : ∀ i, 0 ≤ i → i < segment.length →
      before (offset + i) = .ok (decide (∀ h : i < segment.length, test segment[i])) := by
    intro i _ inside
    simpa [inside] using reads i inside
  have passes_initial : ∀ i j, 0 ≤ i → i ≤ j → j < segment.length →
      (∀ h : j < segment.length, test segment[j]) → ∀ h : i < segment.length, test segment[i] := by
    intro i j _ hij later_inside later inside
    rcases Nat.eq_or_lt_of_le hij with rfl | earlier
    · exact later inside
    · exact List.pairwise_iff_getElem.mp initial i j inside later_inside earlier
        (later later_inside)
  obtain ⟨split, search, -, split_upper, below, above⟩ :=
    partitionPoint_offset permits before offset (Nat.zero_le segment.length) lower upper
      passes_reads passes_initial
  refine ⟨segment.take split, segment.drop split, (List.take_append_drop split segment).symm,
    ?_, ?_, ?_⟩
  · rw [List.length_take, Nat.min_eq_left split_upper]
    exact search
  · intro value member
    obtain ⟨i, hi, rfl⟩ := List.mem_take_iff_getElem.mp member
    exact below i (Nat.zero_le i) (by omega) (by omega)
  · intro value member
    obtain ⟨i, hi, rfl⟩ := List.mem_drop_iff_getElem.mp member
    intro pass
    exact above (split + i) (by omega) (by omega) fun _ => pass

variable [LinearOrder κ] {key : α → κ}

theorem keyLess_eq_ok (permits : watch.Permits first last) {values : List α} {i j : Nat} {x y : α}
    (hi : first ≤ i ∧ i < last) (hj : first ≤ j ∧ j < last) (hx : values[i]? = some x)
    (hy : values[j]? = some y) :
    keyLess watch key values.toArray i j = .ok (decide (key x < key y)) := by
  rw [keyLess, permits.element i hi.1 hi.2, permits.element j hj.1 hj.2, Slots.read_eq_ok hx,
    Slots.read_eq_ok hy]
  rfl

theorem KeysAscend.getElem_le {values : List α} (ascend : KeysAscend key values) {i j : Nat}
    (hij : i ≤ j) (hi : i < values.length) (hj : j < values.length) :
    key values[i] ≤ key values[j] := by
  rcases Nat.eq_or_lt_of_le hij with rfl | earlier
  · exact le_rfl
  · exact List.pairwise_iff_getElem.mp ascend i j _ hj earlier

/-- The key of an element of the right run against the key of an element of the left one. -/
theorem keyLess_right_left (key : α → κ) (front left right back : List α)
    (permits : watch.Permits front.length (front.length + left.length + right.length)) {i j : Nat}
    (hi : i < left.length) (hj : j < right.length) :
    keyLess watch key (front ++ left ++ right ++ back).toArray (front.length + left.length + j)
        (front.length + i) =
      .ok (decide (key right[j] < key left[i])) := by
  apply keyLess_eq_ok permits (by omega) (by omega)
  · simpa using Slots.getElem?_block (front ++ left) back hj
  · simpa using Slots.getElem?_block front (right ++ back) hi

/-- Whether an element of the left run is in order with the opposite one of the right run. -/
def oppositeInOrder (watch : Watch) (key : α → κ) (values : Array α) (mirror position : Nat) :
    Except Fault Bool := do
  let ⟨opposite, _⟩ ← Index.sub mirror position
  not <$> keyLess watch key values opposite position

theorem oppositeInOrder_eq {values : Array α} {mirror position opposite : Nat}
    (h : position + opposite = mirror) :
    oppositeInOrder watch key values mirror position =
      not <$> keyLess watch key values opposite position := by
  rw [oppositeInOrder, Index.sub_eq_ok h]
  rfl

section Steps

variable {values : Array α} {a m b : Nat}

theorem mergeWatched_single_left {target : Nat} (permits : watch.Permits a b)
    (right_filled : a + 1 < b)
    (search : partitionPoint watch (fun position => keyLess watch key values position a) (a + 1) b =
      .ok target) :
    mergeWatched watch key values a (a + 1) b = Slots.rotate values a (a + 1) target := by
  rw [mergeWatched, permits.boundary a le_rfl (by omega),
    permits.boundary (a + 1) (by omega) (by omega), permits.boundary b (by omega) le_rfl,
    Index.sub_eq_ok rfl]
  simp only [ok_bind, if_true, search]

theorem mergeWatched_single_right {leftLength target : Nat} (permits : watch.Permits a (m + 1))
    (hm : a + leftLength = m) (left_several : leftLength ≠ 1)
    (search : partitionPoint watch (fun position => not <$> keyLess watch key values m position) a
      m = .ok target) :
    mergeWatched watch key values a m (m + 1) = Slots.rotate values target m (m + 1) := by
  rw [mergeWatched, permits.boundary a le_rfl (by omega), permits.boundary m (by omega) (by omega),
    permits.boundary (m + 1) (by omega) le_rfl, Index.sub_eq_ok hm, Index.sub_eq_ok rfl]
  simp only [ok_bind, left_several, if_false, if_true, search]

/-- One level of the symmetric merge, with every position that it computes. -/
theorem mergeWatched_several {exchanged merged result : Array α}
    {leftLength rightLength span low high mirror start stop : Nat} (permits : watch.Permits a b)
    (left_filled : a < m) (right_filled : m < b)
    (hm : a + leftLength = m) (hb : m + rightLength = b) (hspan : a + span = b)
    (left_several : leftLength ≠ 1) (right_several : rightLength ≠ 1)
    (range : (a + span / 2 < m ∧ b + low = a + span / 2 + m ∧ high = a + span / 2) ∨
      (¬ a + span / 2 < m ∧ low = a ∧ high = m))
    (hmirror : 1 + mirror = a + span / 2 + m) (hstop : start + stop = a + span / 2 + m)
    (search : partitionPoint watch (oppositeInOrder watch key values mirror) low high = .ok start)
    (stop_lower : a ≤ stop) (stop_upper : stop ≤ b)
    (exchange : (if start < m ∧ m < stop then Slots.rotate values start m stop else pure values) =
      .ok exchanged)
    (merge_first : (if a < start ∧ start < a + span / 2 then
        mergeWatched watch key exchanged a start (a + span / 2) else pure exchanged) = .ok merged)
    (merge_second : (if a + span / 2 < stop ∧ stop < b then
        mergeWatched watch key merged (a + span / 2) stop b else pure merged) = .ok result) :
    mergeWatched watch key values a m b = .ok result := by
  unfold oppositeInOrder at search
  rw [mergeWatched, permits.boundary a le_rfl (by omega), permits.boundary m (by omega) (by omega),
    permits.boundary b (by omega) le_rfl, Index.sub_eq_ok hm, Index.sub_eq_ok hb,
    Index.sub_eq_ok hspan]
  have middle_permitted := permits.boundary (a + span / 2) (by omega) (by omega)
  have total_permitted := permits.sum (a + span / 2 + m) (by omega)
  have low_permitted := permits.boundary low (by omega) (by omega)
  have high_permitted := permits.boundary high (by omega) (by omega)
  have stop_permitted := permits.boundary stop stop_lower stop_upper
  rcases range with ⟨inside, hlow, rfl⟩ | ⟨outside, rfl, rfl⟩
  · simp only [ok_bind, left_several, right_several, middle_permitted, total_permitted, inside,
      Index.sub_eq_ok hlow, low_permitted, Index.sub_eq_ok hmirror, search, Index.sub_eq_ok hstop,
      stop_permitted, if_false, if_true, pure_bind, dite_eq_ite, ite_bind_else, exchange,
      merge_first, merge_second]
  · simp only [ok_bind, left_several, right_several, middle_permitted, total_permitted, outside,
      low_permitted, high_permitted, Index.sub_eq_ok hmirror, search, Index.sub_eq_ok hstop,
      stop_permitted, if_false, pure_bind, dite_eq_ite, ite_bind_else, exchange, merge_first,
      merge_second]

end Steps

/-- The runs between `front` and `back` can be merged in place. -/
def MergesRuns (watch : Watch) (key : α → κ) (front left right back : List α) : Prop :=
  ∃ merged,
    mergeWatched watch key (front ++ left ++ right ++ back).toArray front.length
        (front.length + left.length) (front.length + left.length + right.length) =
      .ok (front ++ merged ++ back).toArray ∧
    StablySorted key (left ++ right) merged

/-- An element stands in order between the elements up to it and the elements from it on. -/
theorem keysAscend_insert {below above : List α} {x : α} (ascend : KeysAscend key (below ++ above))
    (below_le : ∀ y ∈ below, key y ≤ key x) (le_above : ∀ y ∈ above, key x ≤ key y) :
    KeysAscend key (below ++ ([x] ++ above)) := by
  obtain ⟨below_ascends, above_ascends, below_le_above⟩ := keysAscend_append.mp ascend
  refine keysAscend_append.mpr
    ⟨below_ascends, List.pairwise_cons.mpr ⟨le_above, above_ascends⟩, ?_⟩
  intro y hy z hz
  rcases List.mem_cons.mp hz with rfl | hz
  · exact below_le y hy
  · exact below_le_above y hy z hz

theorem mergesRuns_single_left (front : List α) (x : α) {right : List α} (back : List α)
    (permits : watch.Permits front.length (front.length + 1 + right.length))
    (right_ne : right ≠ []) (right_ascends : KeysAscend key right) :
    MergesRuns watch key front [x] right back := by
  have right_pos := List.length_pos_of_ne_nil right_ne
  have reads : ∀ i (h : i < right.length),
      keyLess watch key (front ++ [x] ++ right ++ back).toArray (front.length + 1 + i)
          front.length =
        .ok (decide (key right[i] < key x)) := fun i h =>
    keyLess_right_left key front [x] right back permits Nat.zero_lt_one h
  have initial : right.Pairwise fun earlier later => key later < key x → key earlier < key x :=
    right_ascends.imp fun le less => lt_of_le_of_lt le less
  obtain ⟨below, above, rfl, search, below_less, above_not_less⟩ :=
    partitionPoint_segment permits
      (fun position =>
        keyLess watch key (front ++ [x] ++ right ++ back).toArray position front.length)
      (Nat.le_add_right front.length 1) le_rfl reads initial
  refine ⟨below ++ ([x] ++ above), ?_, ?_, ?_⟩
  · have rotated := Slots.rotate_blocks front [x] below (above ++ back)
    rw [List.length_singleton, mergeWatched_single_left permits (by omega) search]
    simpa using rotated
  · apply keysAscend_insert right_ascends
    · intro y hy
      exact le_of_lt (below_less y hy)
    · intro y hy
      exact not_lt.mp (above_not_less y hy)
  · rw [← List.append_assoc, ← List.append_assoc]
    refine SameGroups.append (SameGroups.exchange ?_) (.refl above)
    intro first hfirst second hsecond
    rw [List.mem_singleton.mp hfirst]
    exact ne_of_gt (below_less second hsecond)

theorem mergesRuns_single_right (front : List α) {left : List α} (x : α) (back : List α)
    (permits : watch.Permits front.length (front.length + left.length + 1))
    (left_several : left.length ≠ 1) (left_ascends : KeysAscend key left) :
    MergesRuns watch key front left [x] back := by
  have reads : ∀ i (h : i < left.length),
      not <$> keyLess watch key (front ++ left ++ [x] ++ back).toArray (front.length + left.length)
          (front.length + i) =
        .ok (decide (key left[i] ≤ key x)) := by
    intro i h
    have comparison := keyLess_right_left key front left [x] back permits h Nat.zero_lt_one
    rw [Nat.add_zero] at comparison
    rw [comparison]
    simp [Functor.map, Except.map, ← decide_not]
  have initial : left.Pairwise fun earlier later => key later ≤ key x → key earlier ≤ key x :=
    left_ascends.imp fun le later_le => le_trans le later_le
  obtain ⟨below, above, rfl, search, below_le, above_not_le⟩ :=
    partitionPoint_segment permits
      (fun position =>
        not <$> keyLess watch key (front ++ left ++ [x] ++ back).toArray
          (front.length + left.length) position)
      le_rfl (Nat.le_add_right _ 1) reads initial
  refine ⟨below ++ ([x] ++ above), ?_, ?_, ?_⟩
  · have rotated := Slots.rotate_blocks (front ++ below) above [x] back
    rw [List.length_singleton, mergeWatched_single_right permits rfl left_several search]
    simpa [Nat.add_assoc] using rotated
  · apply keysAscend_insert left_ascends below_le
    intro y hy
    exact le_of_lt (not_le.mp (above_not_le y hy))
  · rw [List.append_assoc]
    refine SameGroups.append (.refl below) (SameGroups.exchange ?_)
    intro first hfirst second hsecond
    rw [List.mem_singleton.mp hsecond]
    exact ne_of_gt (not_le.mp (above_not_le first hfirst))

/-- A cut of two runs into parts such that the first parts belong before the second ones, and fill
half of the range. -/
structure SymmetricCut (key : α → κ)
    (left right firstLeft secondLeft firstRight secondRight : List α) : Prop where
  /-- The parts of the left run. -/
  left_eq : left = firstLeft ++ secondLeft
  /-- The parts of the right run. -/
  right_eq : right = firstRight ++ secondRight
  /-- The first parts fill half of the range. -/
  balanced : firstLeft.length + firstRight.length = (left.length + right.length) / 2
  /-- The first part of the left run belongs before the second part of the right one. -/
  first_le : ∀ x ∈ firstLeft, ∀ y ∈ secondRight, key x ≤ key y
  /-- The first part of the right run has to pass the second part of the left one. -/
  lt_second : ∀ x ∈ secondLeft, ∀ y ∈ firstRight, key y < key x

namespace SymmetricCut

variable {left right firstLeft secondLeft firstRight secondRight : List α}

/-- The first parts stay below the second ones. -/
theorem first_le_second
    (cut : SymmetricCut key left right firstLeft secondLeft firstRight secondRight)
    (left_ascends : KeysAscend key left) (right_ascends : KeysAscend key right) :
    ∀ x ∈ firstLeft ++ firstRight, ∀ y ∈ secondLeft ++ secondRight, key x ≤ key y := by
  rw [cut.left_eq] at left_ascends
  rw [cut.right_eq] at right_ascends
  obtain ⟨-, -, left_ordered⟩ := keysAscend_append.mp left_ascends
  obtain ⟨-, -, right_ordered⟩ := keysAscend_append.mp right_ascends
  intro x hx y hy
  rcases List.mem_append.mp hx with hx | hx <;> rcases List.mem_append.mp hy with hy | hy
  · exact left_ordered x hx y hy
  · exact cut.first_le x hx y hy
  · exact le_of_lt (cut.lt_second y hy x hx)
  · exact right_ordered x hx y hy

/-- The inner parts have no key in common, so that exchanging them is stable. -/
theorem sameGroups
    (cut : SymmetricCut key left right firstLeft secondLeft firstRight secondRight) :
    SameGroups key (left ++ right) (firstLeft ++ firstRight ++ (secondLeft ++ secondRight)) := by
  have inner : SameGroups key (secondLeft ++ firstRight) (firstRight ++ secondLeft) :=
    .exchange fun x hx y hy => ne_of_gt (cut.lt_second x hx y hy)
  simpa [cut.left_eq, cut.right_eq] using
    (SameGroups.refl firstLeft).append (inner.append (.refl secondRight))

end SymmetricCut

/-- A split of the left run cuts symmetrically if it separates the pairs of opposite elements that
are in order from those that are not. -/
theorem symmetricCut_of_split {left right : List α} (left_ascends : KeysAscend key left)
    (right_ascends : KeysAscend key right) {half : Nat} (split : Nat)
    (half_eq : half = (left.length + right.length) / 2) (split_left : split ≤ left.length)
    (split_half : split ≤ half) (split_right : half ≤ split + right.length)
    (in_order : ∀ i j (hi : i < left.length) (hj : j < right.length), i + j + 1 = half →
      (key left[i] ≤ key right[j] ↔ i < split)) :
    SymmetricCut key left right (left.take split) (left.drop split) (right.take (half - split))
      (right.drop (half - split)) where
  left_eq := (List.take_append_drop split left).symm
  right_eq := (List.take_append_drop (half - split) right).symm
  balanced := by
    simp only [List.length_take]
    omega
  first_le := by
    intro x hx y hy
    obtain ⟨i, hi, rfl⟩ := List.mem_take_iff_getElem.mp hx
    obtain ⟨j, hj, rfl⟩ := List.mem_drop_iff_getElem.mp hy
    have last_in_order :=
      (in_order (split - 1) (half - split) (by omega) (by omega) (by omega)).mpr (by omega)
    calc
      key left[i] ≤ key left[split - 1] :=
        left_ascends.getElem_le (by omega) (by omega) (by omega)
      _ ≤ key right[half - split] := last_in_order
      _ ≤ key right[half - split + j] :=
        right_ascends.getElem_le (by omega) (by omega) (by omega)
  lt_second := by
    intro x hx y hy
    obtain ⟨i, hi, rfl⟩ := List.mem_drop_iff_getElem.mp hx
    obtain ⟨j, hj, rfl⟩ := List.mem_take_iff_getElem.mp hy
    have first_out_of_order :=
      mt (in_order split (half - 1 - split) (by omega) (by omega) (by omega)).mp
        (Nat.lt_irrefl split)
    calc
      key right[j] ≤ key right[half - 1 - split] :=
        right_ascends.getElem_le (by omega) (by omega) (by omega)
      _ < key left[split] := not_le.mp first_out_of_order
      _ ≤ key left[split + i] := left_ascends.getElem_le (by omega) (by omega) (by omega)

/-- The element at a position of the left run is in order with the opposite one, if there is any. -/
def InOrder (key : α → κ) (left right : List α) (half i : Nat) : Prop :=
  ∀ j (hi : i < left.length) (hj : j < right.length), i + j + 1 = half →
    key left[i] ≤ key right[j]

theorem inOrder_iff {left right : List α} {half i j : Nat} (hi : i < left.length)
    (hj : j < right.length) (opposite : i + j + 1 = half) :
    InOrder key left right half i ↔ key left[i] ≤ key right[j] := by
  constructor
  · intro in_order
    exact in_order j hi hj opposite
  · intro le j' hi' hj' opposite'
    obtain rfl : j' = j := by omega
    exact le

theorem InOrder.of_later {left right : List α} {half i i' : Nat}
    (left_ascends : KeysAscend key left) (right_ascends : KeysAscend key right) (hii' : i ≤ i')
    (hi' : i' < left.length) (hhalf : i' < half)
    (later : InOrder key left right half i') : InOrder key left right half i := by
  intro j hi hj opposite
  calc
    key left[i] ≤ key left[i'] := left_ascends.getElem_le hii' hi hi'
    _ ≤ key right[half - 1 - i'] := later _ hi' (by omega) (by omega)
    _ ≤ key right[j] := right_ascends.getElem_le (by omega) (by omega) hj

/-- The search ends at a symmetric cut, provided that it starts from positions whose opposites lie
in the right run. -/
theorem symmetricCut_of_search (front : List α) {left right : List α} (back : List α)
    (permits : watch.Permits front.length (front.length + left.length + right.length))
    (left_ascends : KeysAscend key left) (right_ascends : KeysAscend key right)
    {half mirror : Nat} (lowest highest : Nat) (half_eq : half = (left.length + right.length) / 2)
    (ordered : lowest ≤ highest) (highest_le : highest ≤ left.length)
    (highest_half : highest ≤ half) (opposite_le : half ≤ lowest + right.length)
    (lowest_end : lowest = 0 ∨ half = lowest + right.length)
    (highest_end : highest = left.length ∨ highest = half)
    (hmirror : 1 + mirror = front.length + half + (front.length + left.length)) :
    ∃ firstLeft secondLeft firstRight secondRight,
      SymmetricCut key left right firstLeft secondLeft firstRight secondRight ∧
      partitionPoint watch
          (oppositeInOrder watch key (front ++ left ++ right ++ back).toArray mirror)
          (front.length + lowest) (front.length + highest) =
        .ok (front.length + firstLeft.length) := by
  classical
  have reads : ∀ i, lowest ≤ i → i < highest →
      oppositeInOrder watch key (front ++ left ++ right ++ back).toArray mirror
          (front.length + i) =
        .ok (decide (InOrder key left right half i)) := by
    intro i hlow hhigh
    have hi : i < left.length := hhigh.trans_le highest_le
    obtain ⟨j, opposite⟩ := Nat.exists_eq_add_of_lt (hhigh.trans_le highest_half)
    have hj : j < right.length := by omega
    have mirrored : front.length + i + (front.length + left.length + j) = mirror := by omega
    rw [oppositeInOrder_eq mirrored, keyLess_right_left key front left right back permits hi hj]
    simp [inOrder_iff hi hj opposite.symm, Functor.map, Except.map, ← decide_not]
  have initial : ∀ i i', lowest ≤ i → i ≤ i' → i' < highest → InOrder key left right half i' →
      InOrder key left right half i := fun i i' _ hii' hhigh =>
    .of_later left_ascends right_ascends hii' (hhigh.trans_le highest_le)
      (hhigh.trans_le highest_half)
  obtain ⟨split, search, lower, upper, below, above⟩ :=
    partitionPoint_offset permits _ front.length ordered (by omega) (by omega) reads initial
  refine ⟨_, _, _, _, symmetricCut_of_split left_ascends right_ascends split half_eq (by omega)
    (by omega) (by omega) ?_, ?_⟩
  · intro i j hi hj opposite
    rw [← inOrder_iff hi hj opposite]
    constructor
    · intro in_order
      by_contra later
      exact above i (by omega) (by omega) in_order
    · intro earlier
      exact below i (by omega) (by omega)
  · rw [search, List.length_take, Nat.min_eq_left (by omega)]

/-- Exchanging the inner parts brings both first parts to the front, also where one of the inner
parts is empty and nothing is moved. -/
theorem exchange_inner (front firstLeft secondLeft firstRight secondRight back : List α)
    (start m stop : Nat) (hstart : start = front.length + firstLeft.length)
    (hm : m = start + secondLeft.length) (hstop : stop = m + firstRight.length) :
    (if start < m ∧ m < stop then
        Slots.rotate
          (front ++ (firstLeft ++ secondLeft) ++ (firstRight ++ secondRight) ++ back).toArray
          start m stop
      else
        pure (front ++ (firstLeft ++ secondLeft) ++ (firstRight ++ secondRight) ++ back).toArray) =
      .ok (front ++ firstLeft ++ firstRight ++ (secondLeft ++ secondRight ++ back)).toArray := by
  subst hstart hm hstop
  split
  · have rotated :=
      Slots.rotate_blocks (front ++ firstLeft) secondLeft firstRight (secondRight ++ back)
    simpa using rotated
  · rename_i trivial
    have empty : secondLeft = [] ∨ firstRight = [] := by
      rcases secondLeft with _ | ⟨x, secondLeft⟩
      · exact .inl rfl
      · rcases firstRight with _ | ⟨y, firstRight⟩
        · exact .inr rfl
        · exact absurd (by simp) trivial
    rcases empty with rfl | rfl <;> simp [pure, Except.pure]

/-- An empty run needs no merge. -/
theorem merge_if_both (front back : List α) {left right : List α} (a start stop : Nat)
    (ha : a = front.length) (hstart : start = a + left.length) (hstop : stop = start + right.length)
    (left_ascends : KeysAscend key left) (right_ascends : KeysAscend key right)
    (merges : left ≠ [] → right ≠ [] → MergesRuns watch key front left right back) :
    ∃ merged,
      (if a < start ∧ start < stop then
          mergeWatched watch key (front ++ left ++ right ++ back).toArray a start stop
        else pure (front ++ left ++ right ++ back).toArray) =
        .ok (front ++ merged ++ back).toArray ∧
      StablySorted key (left ++ right) merged := by
  subst ha hstart hstop
  rcases left with _ | ⟨x, left⟩
  · exact ⟨right, by simp [pure, Except.pure], by simpa using StablySorted.of_ascend right_ascends⟩
  · rcases right with _ | ⟨y, right⟩
    · exact ⟨x :: left, by simp [pure, Except.pure],
        by simpa using StablySorted.of_ascend left_ascends⟩
    · obtain ⟨merged, merge, sorted⟩ := merges (by simp) (by simp)
      exact ⟨merged, by simpa using merge, sorted⟩

/-- The search of the symmetric merge finds a cut, in both of its starting ranges. -/
theorem exists_symmetricCut (front : List α) {left right : List α} (back : List α)
    (permits : watch.Permits front.length (front.length + left.length + right.length))
    (left_ascends : KeysAscend key left) (right_ascends : KeysAscend key right)
    {half mirror : Nat} (half_eq : half = (left.length + right.length) / 2)
    (hmirror : 1 + mirror = front.length + half + (front.length + left.length)) :
    ∃ low high firstLeft secondLeft firstRight secondRight,
      ((front.length + half < front.length + left.length ∧
          front.length + left.length + right.length + low =
            front.length + half + (front.length + left.length) ∧ high = front.length + half) ∨
        (¬ front.length + half < front.length + left.length ∧ low = front.length ∧
          high = front.length + left.length)) ∧
      SymmetricCut key left right firstLeft secondLeft firstRight secondRight ∧
      partitionPoint watch
          (oppositeInOrder watch key (front ++ left ++ right ++ back).toArray mirror) low high =
        .ok (front.length + firstLeft.length) := by
  by_cases inside : half < left.length
  · obtain ⟨firstLeft, secondLeft, firstRight, secondRight, cut, search⟩ :=
      symmetricCut_of_search front back permits left_ascends right_ascends (half - right.length)
        half half_eq (by omega) (by omega) (by omega) (by omega) (by omega) (by omega) hmirror
    exact ⟨_, _, firstLeft, secondLeft, firstRight, secondRight, .inl (by omega), cut, search⟩
  · obtain ⟨firstLeft, secondLeft, firstRight, secondRight, cut, search⟩ :=
      symmetricCut_of_search front back permits left_ascends right_ascends 0 left.length half_eq
        (by omega) (by omega) (by omega) (by omega) (by omega) (by omega) hmirror
    exact ⟨_, _, firstLeft, secondLeft, firstRight, secondRight, .inr (by omega), cut, search⟩

/-- Every two adjacent ascending runs can be merged in place. -/
theorem mergesRuns (front : List α) {left right : List α} (back : List α)
    (permits : watch.Permits front.length (front.length + left.length + right.length))
    (left_ne : left ≠ []) (right_ne : right ≠ []) (left_ascends : KeysAscend key left)
    (right_ascends : KeysAscend key right) : MergesRuns watch key front left right back := by
  -- Both halves of a symmetric cut are shorter than the range, wherever the cut falls.
  induction size_eq : left.length + right.length using Nat.strongRecOn
    generalizing front left right back with
  | ind size ih =>
      by_cases left_several : left.length = 1
      · obtain ⟨x, rfl⟩ := List.length_eq_one_iff.mp left_several
        exact mergesRuns_single_left front x back permits right_ne right_ascends
      by_cases right_several : right.length = 1
      · obtain ⟨x, rfl⟩ := List.length_eq_one_iff.mp right_several
        exact mergesRuns_single_right front x back permits left_several left_ascends
      have left_pos := List.length_pos_of_ne_nil left_ne
      have right_pos := List.length_pos_of_ne_nil right_ne
      have hmirror : 1 + (front.length + size / 2 + (front.length + left.length) - 1) =
          front.length + size / 2 + (front.length + left.length) := by omega
      obtain ⟨low, high, firstLeft, secondLeft, firstRight, secondRight, range, cut, search⟩ :=
        exists_symmetricCut front back permits left_ascends right_ascends (by rw [size_eq]) hmirror
      have left_length : left.length = firstLeft.length + secondLeft.length := by
        rw [cut.left_eq, List.length_append]
      have right_length : right.length = firstRight.length + secondRight.length := by
        rw [cut.right_eq, List.length_append]
      have balanced := cut.balanced
      obtain ⟨firstLeft_ascends, secondLeft_ascends, -⟩ :=
        keysAscend_append.mp (cut.left_eq ▸ left_ascends)
      obtain ⟨firstRight_ascends, secondRight_ascends, -⟩ :=
        keysAscend_append.mp (cut.right_eq ▸ right_ascends)
      have first_permits :
          watch.Permits front.length (front.length + firstLeft.length + firstRight.length) :=
        permits.mono le_rfl (by omega)
      obtain ⟨first, first_merge, first_sorted⟩ :=
        merge_if_both front (secondLeft ++ secondRight ++ back) front.length
          (front.length + firstLeft.length) (front.length + size / 2) rfl rfl (by omega)
          firstLeft_ascends firstRight_ascends fun firstLeft_ne firstRight_ne =>
            ih _ (by omega) front _ first_permits firstLeft_ne firstRight_ne firstLeft_ascends
              firstRight_ascends rfl
      have first_length : first.length = size / 2 := by
        rw [← first_sorted.groups.perm.length_eq, List.length_append, balanced, size_eq]
      have second_start : (front ++ first).length = front.length + size / 2 := by
        rw [List.length_append, first_length]
      have second_permits : watch.Permits (front ++ first).length
          ((front ++ first).length + secondLeft.length + secondRight.length) :=
        permits.mono (by omega) (by omega)
      obtain ⟨second, second_merge, second_sorted⟩ :=
        merge_if_both (front ++ first) back (front.length + size / 2)
          (front.length + left.length + firstRight.length)
          (front.length + left.length + right.length) second_start.symm
          (by omega) (by omega) secondLeft_ascends secondRight_ascends
          fun secondLeft_ne secondRight_ne =>
            ih _ (by omega) (front ++ first) _ second_permits secondLeft_ne secondRight_ne
              secondLeft_ascends secondRight_ascends rfl
      have exchanged := exchange_inner front firstLeft secondLeft firstRight secondRight back
        (front.length + firstLeft.length) (front.length + left.length)
        (front.length + left.length + firstRight.length) rfl (by omega) rfl
      rw [← cut.left_eq, ← cut.right_eq] at exchanged
      refine ⟨first ++ second, ?_, .of_groups cut.sameGroups ?_⟩
      · refine mergeWatched_several permits (by omega) (by omega) rfl rfl
          (by rw [Nat.add_assoc, size_eq]) left_several right_several range hmirror (by omega)
          search (by omega) (by omega) exchanged first_merge ?_
        simpa using second_merge
      · exact first_sorted.append second_sorted
          (cut.first_le_second left_ascends right_ascends)

end DegreeTwo
