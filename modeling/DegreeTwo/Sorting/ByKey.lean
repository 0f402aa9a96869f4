import DegreeTwo.Sorting.StableSort

/-!
# Merging equal keys

A sequence is sorted by key, and each run of equal keys is folded into its first element.  The fold
takes the elements in the order in which they stood before, so its result is determined also where
combining is neither commutative nor associative.
-/

namespace DegreeTwo

variable {α κ : Type} [LT κ] [DecidableLT κ] [DecidableEq κ]
variable {m : Type → Type} [Monad m] [MonadLiftT (Except Fault) m]

/--
Scan the `remaining` elements from position `next` on.  An element with the key of the last kept
one, at `kept`, is combined into it; any other element becomes the next kept one.
-/
def foldRuns (key : α → κ) (combine : α → α → m α) :
    (remaining kept next : Nat) → Array α → m (Array α)
  | 0, kept, _, values => pure (values.take (kept + 1))
  | remaining + 1, kept, next, values => do
      let right ← Slots.read values next
      let left ← Slots.read values kept
      if key right = key left then
        let merged ← combine left right
        let values ← Slots.write values kept merged
        foldRuns key combine remaining kept (next + 1) values
      else
        let values ← Slots.swap values (kept + 1) next
        foldRuns key combine remaining (kept + 1) (next + 1) values

/-- Sort a sequence by key and combine the elements of equal keys. -/
def mergeByKey (key : α → κ) (combine : α → α → m α) (values : List α) : m (List α) :=
  if values.isEmpty then pure values
  else do
    let sorted ← stableSort key values.toArray
    let combined ← foldRuns key combine (sorted.size - 1) 0 1 sorted
    pure combined.toList

end DegreeTwo
