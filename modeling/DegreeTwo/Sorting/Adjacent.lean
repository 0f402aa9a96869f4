import DegreeTwo.Index

/-!
# Merging in place

Two adjacent ascending runs are merged by symmetric comparisons: a binary search around the middle
of the whole range finds the blocks that have to change sides, a rotation exchanges them, and both
halves are merged in turn.  A run of one element is inserted directly.  Elements with equal keys
keep their order.
-/

namespace DegreeTwo

variable {α κ : Type} [LT κ] [DecidableLT κ]

/-- Whether the key at position `i` is less than the key at position `j`. -/
def keyLess (watch : Watch) (key : α → κ) (values : Array α) (i j : Nat) : Except Fault Bool := do
  watch.element i
  watch.element j
  let left ← Slots.read values i
  let right ← Slots.read values j
  pure (decide (key left < key right))

/--
The first position from `low` on, but not beyond `high`, at which `before` stops to hold, for a test
that holds up to some position and fails from there on.
-/
def partitionPoint (watch : Watch) (before : Nat → Except Fault Bool) (low high : Nat) :
    Except Fault Nat :=
  if low < high then do
    let middle := low + (high - low) / 2
    if ← before middle then
      watch.boundary (middle + 1)
      partitionPoint watch before (middle + 1) high
    else
      watch.boundary middle
      partitionPoint watch before low middle
  else pure low
termination_by high - low

/-- Merge the ascending runs from `a` to `m` and from `m` to `b`, neither of which is empty, under a
watch on the positions. -/
def mergeWatched (watch : Watch) (key : α → κ) (values : Array α) (a m b : Nat) :
    Except Fault (Array α) := do
  watch.boundary a
  watch.boundary m
  watch.boundary b
  let ⟨leftLength, _⟩ ← Index.sub m a
  if leftLength = 1 then
    let target ← partitionPoint watch (fun position => keyLess watch key values position a) m b
    watch.boundary (a + 1)
    Slots.rotate values a (a + 1) target
  else
    let ⟨rightLength, _⟩ ← Index.sub b m
    if rightLength = 1 then
      let target ←
        partitionPoint watch (fun position => not <$> keyLess watch key values m position) a m
      watch.boundary (m + 1)
      Slots.rotate values target m (m + 1)
    else
      let ⟨span, _⟩ ← Index.sub b a
      let middle := a + span / 2
      watch.boundary middle
      let total := middle + m
      watch.sum total
      let (low, high) ←
        if middle < m then do
          let ⟨low, _⟩ ← Index.sub total b
          pure (low, middle)
        else pure (a, m)
      watch.boundary low
      watch.boundary high
      let ⟨mirror, _⟩ ← Index.sub total 1
      let start ← partitionPoint watch (fun position => do
        let ⟨opposite, _⟩ ← Index.sub mirror position
        not <$> keyLess watch key values opposite position) low high
      let ⟨stop, _⟩ ← Index.sub total start
      watch.boundary stop
      let values ← if start < m ∧ m < stop then Slots.rotate values start m stop else pure values
      let values ←
        if _h : a < start ∧ start < middle then mergeWatched watch key values a start middle
        else pure values
      if _h : middle < stop ∧ stop < b then mergeWatched watch key values middle stop b
      else pure values
termination_by b - a

/-- Merge the ascending runs from `a` to `m` and from `m` to `b`, neither of which is empty. -/
def mergeAdjacent (key : α → κ) (values : Array α) (a m b : Nat) : Except Fault (Array α) :=
  mergeWatched .trivial key values a m b

end DegreeTwo
