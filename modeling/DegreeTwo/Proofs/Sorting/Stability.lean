import DegreeTwo.Sorting.ByKey
import Mathlib.Data.List.Perm.Basic
import Mathlib.Order.Lattice

/-!
# Stable rearrangements

A rearrangement is stable if the elements of each key keep their order.  It is enough to look at the
elements of one key at a time: two sequences that agree on them are rearrangements of each other,
and exchanging two adjacent blocks without a common key changes none of them.
-/

namespace DegreeTwo

variable {α κ : Type} [LinearOrder κ] {key : α → κ}

/-- The elements with a given key, in the order of the sequence. -/
def withKey (key : α → κ) (values : List α) (k : κ) : List α :=
  values.filter fun value => key value = k

@[simp]
theorem withKey_nil (k : κ) : withKey key [] k = [] := rfl

@[simp]
theorem withKey_append (left right : List α) (k : κ) :
    withKey key (left ++ right) k = withKey key left k ++ withKey key right k :=
  List.filter_append left right

theorem withKey_cons_self {value : α} {values : List α} {k : κ} (same : key value = k) :
    withKey key (value :: values) k = value :: withKey key values k :=
  List.filter_cons_of_pos (by simpa using same)

theorem withKey_cons_of_ne {value : α} {values : List α} {k : κ} (differs : key value ≠ k) :
    withKey key (value :: values) k = withKey key values k :=
  List.filter_cons_of_neg (by simpa using differs)

theorem withKey_eq_nil {values : List α} {k : κ} (h : ∀ value ∈ values, key value ≠ k) :
    withKey key values k = [] := by
  simpa [withKey, List.filter_eq_nil_iff] using h

theorem mem_withKey {values : List α} {k : κ} {value : α} :
    value ∈ withKey key values k ↔ value ∈ values ∧ key value = k := by
  simp [withKey]

/-- No element has a greater key than a later one. -/
def KeysAscend (key : α → κ) (values : List α) : Prop :=
  values.Pairwise fun earlier later => key earlier ≤ key later

theorem keysAscend_append {left right : List α} :
    KeysAscend key (left ++ right) ↔
      KeysAscend key left ∧ KeysAscend key right ∧
        ∀ x ∈ left, ∀ y ∈ right, key x ≤ key y :=
  List.pairwise_append

theorem keysAscend_concat {values : List α} {x : α} :
    KeysAscend key (values ++ [x]) ↔ KeysAscend key values ∧ ∀ y ∈ values, key y ≤ key x := by
  rw [keysAscend_append]
  constructor
  · rintro ⟨ascend, -, le_x⟩
    exact ⟨ascend, fun y hy => le_x y hy x (List.mem_singleton_self x)⟩
  · rintro ⟨ascend, le_x⟩
    refine ⟨ascend, List.pairwise_singleton _ x, ?_⟩
    intro y hy z hz
    rw [List.mem_singleton.mp hz]
    exact le_x y hy

/-- The elements of each key are the same ones in the same order. -/
def SameGroups (key : α → κ) (before after : List α) : Prop :=
  ∀ k, withKey key before k = withKey key after k

namespace SameGroups

variable {before middle after left right left' right' : List α}

theorem refl (values : List α) : SameGroups key values values := fun _ => rfl

theorem trans (first : SameGroups key before middle) (second : SameGroups key middle after) :
    SameGroups key before after := fun k => (first k).trans (second k)

theorem append (hleft : SameGroups key left left') (hright : SameGroups key right right') :
    SameGroups key (left ++ right) (left' ++ right') := by
  intro k
  rw [withKey_append, withKey_append, hleft k, hright k]

/-- Blocks without a common key may be exchanged. -/
theorem exchange (apart : ∀ x ∈ left, ∀ y ∈ right, key x ≠ key y) :
    SameGroups key (left ++ right) (right ++ left) := by
  intro k
  rw [withKey_append, withKey_append]
  by_cases inLeft : ∃ x ∈ left, key x = k
  · obtain ⟨x, hx, rfl⟩ := inLeft
    rw [withKey_eq_nil fun y hy => (apart x hx y hy).symm]
    simp
  · have none_left : withKey key left k = [] :=
      withKey_eq_nil fun x hx hk => inLeft ⟨x, hx, hk⟩
    simp [none_left]

theorem mem_iff (h : SameGroups key before after) {value : α} : value ∈ before ↔ value ∈ after := by
  have inGroup : ∀ values : List α, value ∈ values ↔ value ∈ withKey key values (key value) := by
    simp [mem_withKey]
  rw [inGroup before, inGroup after, h (key value)]

theorem perm (h : SameGroups key before after) : before.Perm after := by
  classical
  have count_group : ∀ (values : List α) (value : α),
      (withKey key values (key value)).count value = values.count value := by
    intro values value
    exact List.count_filter (by simp)
  rw [List.perm_iff_count]
  intro value
  rw [← count_group before, ← count_group after, h (key value)]

end SameGroups

/-- The second sequence is the stable sort of the first one. -/
structure StablySorted (key : α → κ) (before after : List α) : Prop where
  /-- The keys ascend. -/
  ascend : KeysAscend key after
  /-- Elements with equal keys keep their order. -/
  groups : SameGroups key before after

namespace StablySorted

variable {before middle after left right left' right' : List α}

theorem of_ascend (h : KeysAscend key before) : StablySorted key before before :=
  ⟨h, .refl before⟩

theorem of_groups (same : SameGroups key before middle) (sorted : StablySorted key middle after) :
    StablySorted key before after :=
  ⟨sorted.ascend, same.trans sorted.groups⟩

/-- Blocks that are in order are sorted one by one. -/
theorem append (hleft : StablySorted key left left') (hright : StablySorted key right right')
    (inOrder : ∀ x ∈ left, ∀ y ∈ right, key x ≤ key y) :
    StablySorted key (left ++ right) (left' ++ right') := by
  refine ⟨keysAscend_append.mpr ⟨hleft.ascend, hright.ascend, ?_⟩,
    hleft.groups.append hright.groups⟩
  intro x hx y hy
  exact inOrder x (hleft.groups.mem_iff.mpr hx) y (hright.groups.mem_iff.mpr hy)

end StablySorted

end DegreeTwo
