import DegreeTwo.Sorting.Adjacent

/-!
# Stable sorting in place

Short blocks are sorted by insertion, and then neighbouring blocks are merged in place while their
length doubles.  Nothing beside the array is needed, and elements with equal keys keep their order.
-/

namespace DegreeTwo

variable {α κ : Type} [LT κ] [DecidableLT κ]

/-- Move the element at a position left past the greater elements, at most as far as `start`. -/
def sink (watch : Watch) (key : α → κ) (start : Nat) : Nat → Array α → Except Fault (Array α)
  | 0, values => pure values
  | position + 1, values =>
      if start < position + 1 then do
        if ← keyLess watch key values (position + 1) position then
          let values ← Slots.swap values (position + 1) position
          sink watch key start position values
        else pure values
      else pure values

/-- Insert the `count` elements from `position` on into the sorted run that begins at `start`. -/
def insertFrom (watch : Watch) (key : α → κ) (start : Nat) :
    (count position : Nat) → Array α → Except Fault (Array α)
  | 0, _, values => pure values
  | count + 1, position, values => do
      let values ← sink watch key start position values
      insertFrom watch key start count (position + 1) values

/-- Sort the elements from `start` to `stop` by insertion. -/
def insertionSort (watch : Watch) (key : α → κ) (start stop : Nat) (values : Array α) :
    Except Fault (Array α) :=
  insertFrom watch key start (stop - (start + 1)) (start + 1) values

/-- The length of the blocks that are sorted by insertion. -/
def blockLength : Nat := 20

/-- Sort the blocks from `start` on, each by itself. -/
def sortBlocks (watch : Watch) (key : α → κ) (length start : Nat) (values : Array α) :
    Except Fault (Array α) :=
  if start < length then do
    watch.sum (start + blockLength)
    let stop := min (start + blockLength) length
    let values ← insertionSort watch key start stop values
    sortBlocks watch key length stop values
  else pure values
termination_by length - start
decreasing_by simp only [blockLength]; omega

/-- Merge each pair of neighbouring sorted blocks from `start` on. -/
def mergePass (watch : Watch) (key : α → κ) (length block : Nat) (block_pos : 0 < block)
    (start : Nat) (values : Array α) : Except Fault (Array α) := do
  watch.sum (2 * block)
  watch.sum (start + 2 * block)
  if start + 2 * block ≤ length then
    let values ← mergeWatched watch key values start (start + block) (start + 2 * block)
    mergePass watch key length block block_pos (start + 2 * block) values
  else
    watch.sum (start + block)
    if start + block < length then
      mergeWatched watch key values start (start + block) length
    else pure values
termination_by length - start

/-- Merge blocks of doubling length until one block is left. -/
def mergePasses (watch : Watch) (key : α → κ) (length block : Nat) (block_pos : 0 < block)
    (values : Array α) : Except Fault (Array α) :=
  if block < length then do
    let values ← mergePass watch key length block block_pos 0 values
    watch.sum (2 * block)
    mergePasses watch key length (2 * block) (Nat.mul_pos Nat.two_pos block_pos) values
  else pure values
termination_by length - block

/-- Sort an array by key, under a watch on the positions. -/
def sortWatched (watch : Watch) (key : α → κ) (values : Array α) : Except Fault (Array α) := do
  let values' ← sortBlocks watch key values.size 0 values
  mergePasses watch key values.size blockLength (by decide) values'

/-- Sort an array by key. -/
def stableSort (key : α → κ) (values : Array α) : Except Fault (Array α) :=
  sortWatched .trivial key values

end DegreeTwo
