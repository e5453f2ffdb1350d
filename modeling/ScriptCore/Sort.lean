/-!
A stable sort whose comparisons are steps of a computation.

Every comparison may act, answer anything and fail; the first failure ends the sort. Short lists
are sorted by insertion, longer ones in two halves that are merged. An element moves ahead of an
earlier one only when the comparison of the two, the earlier one first, answers `gt`.
-/

namespace ScriptCore.Sort

variable {m : Type → Type} [Monad m] {α : Type}

/-- Lists up to this length are sorted by insertion. -/
def insertionThreshold : Nat := 8

/-- Moves an element back over those that are greater. The list is sorted and stands in reverse, so
that its last element is compared first. -/
def sink (cmp : α → α → m Ordering) (x : α) : List α → m (List α)
  | [] => pure [x]
  | last :: before => do
    if (← cmp last x) = .gt then
      let rest ← sink cmp x before
      pure (last :: rest)
    else pure (x :: last :: before)

/-- Sinks the elements one after another into a reversed sorted list. -/
def sinkAll (cmp : α → α → m Ordering) (done : List α) : List α → m (List α)
  | [] => pure done
  | x :: rest => do
    let done ← sink cmp x done
    sinkAll cmp done rest

/-- Sorts by inserting each element from the right into the sorted elements before it. -/
def insertionSort (cmp : α → α → m Ordering) (xs : List α) : m (List α) := do
  let reversed ← sinkAll cmp [] xs
  pure reversed.reverse

/-- Merges two sorted lists; the right one gives an element only when that of the left one is
greater. -/
def merge (cmp : α → α → m Ordering) : List α → List α → m (List α)
  | [], ys => pure ys
  | xs, [] => pure xs
  | x :: xs, y :: ys => do
    if (← cmp x y) = .gt then
      let rest ← merge cmp (x :: xs) ys
      pure (y :: rest)
    else
      let rest ← merge cmp xs (y :: ys)
      pure (x :: rest)
termination_by xs ys => xs.length + ys.length

/-- Sorts with at most the given number of halvings on top of one another. -/
def sortWithin (cmp : α → α → m Ordering) : Nat → List α → m (List α)
  | 0, xs => insertionSort cmp xs
  | halvings + 1, xs =>
    if xs.length ≤ insertionThreshold then insertionSort cmp xs
    else do
      let left ← sortWithin cmp halvings (xs.take (xs.length / 2))
      let right ← sortWithin cmp halvings (xs.drop (xs.length / 2))
      merge cmp left right

/-- Sorts a list stably by a comparison that is a step of a computation. -/
def stableSort (cmp : α → α → m Ordering) (xs : List α) : m (List α) :=
  sortWithin cmp xs.length xs

end ScriptCore.Sort
