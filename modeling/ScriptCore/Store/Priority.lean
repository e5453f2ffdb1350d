import ScriptCore.Value

/-!
The store behind a PriorityQueue: values with a priority each. The value that leaves first is the
most urgent one, and among values of one priority the one that came first.

The waiting values stand in a tree in which no entry leaves before the one above it. Two trees are
joined along their right parts, which change sides on the way, so that long ones do not last.
-/

namespace ScriptCore

/-- Which end of the priorities is popped first. -/
inductive QueueOrder where
  | min
  | max
  deriving DecidableEq, Repr

/-- The name of the order, as programs give it. -/
def QueueOrder.text : QueueOrder → String
  | min => "min"
  | max => "max"

/-- A value waiting in a queue. The greater its rank the sooner it leaves; the arrival counts the
values that came before it. -/
structure QueueEntry where
  rank : Int
  arrival : Nat
  value : Value
  deriving DecidableEq, Repr

/-- Whether an entry leaves before another one. -/
def QueueEntry.precedes (a b : QueueEntry) : Bool :=
  decide (b.rank < a.rank) || (decide (a.rank = b.rank) && decide (a.arrival < b.arrival))

/-- Entries below one another. -/
inductive QueueTree where
  | empty
  | node (entry : QueueEntry) (left right : QueueTree)
  deriving DecidableEq, Repr

namespace QueueTree

/-- Adds the entries to a list, in no order of interest. -/
def entriesOnto : QueueTree → List QueueEntry → List QueueEntry
  | empty, entries => entries
  | node entry left right, entries => left.entriesOnto (right.entriesOnto (entry :: entries))

def count : QueueTree → Nat
  | empty => 0
  | node _ left right => left.count + right.count + 1

/-- The entry above all others. -/
def top? : QueueTree → Option QueueEntry
  | empty => none
  | node entry _ _ => some entry

/-- Joins the tree of an entry and two parts with another tree, given how its right part is joined
with a tree. -/
def joinNode (entry : QueueEntry) (left right : QueueTree) (joinRight : QueueTree → QueueTree) :
    QueueTree → QueueTree
  | empty => node entry left right
  | node other otherLeft otherRight =>
    if other.precedes entry then
      node other (joinNode entry left right joinRight otherRight) otherLeft
    else node entry (joinRight (node other otherLeft otherRight)) left

/-- The tree of the entries of two trees. -/
def join : QueueTree → QueueTree → QueueTree
  | empty => fun other => other
  | node entry left right => joinNode entry left right (join right)

/-- The tree without the entry above all others. -/
def rest : QueueTree → QueueTree
  | empty => empty
  | node _ left right => left.join right

theorem count_joinNode (entry : QueueEntry) (left right : QueueTree)
    {joinRight : QueueTree → QueueTree}
    (count_joinRight : ∀ other, (joinRight other).count = right.count + other.count)
    (other : QueueTree) :
    (joinNode entry left right joinRight other).count =
      (node entry left right).count + other.count := by
  induction other with
  | empty => rfl
  | node other otherLeft otherRight _ ih =>
    rw [joinNode]
    split
    · simp only [count, ih]; omega
    · simp only [count, count_joinRight]; omega

theorem count_join (tree other : QueueTree) :
    (tree.join other).count = tree.count + other.count := by
  induction tree generalizing other with
  | empty => simp [join, count]
  | node entry left right _ ih => exact count_joinNode entry left right ih other

theorem count_rest (tree : QueueTree) : tree.rest.count = tree.count - 1 := by
  cases tree with
  | empty => rfl
  | node entry left right => simp [rest, count_join, count]

end QueueTree

/-- The values waiting in a queue, their number, and how many came so far. -/
structure PriorityStore where
  order : QueueOrder
  waiting : QueueTree
  size : Nat
  arrivals : Nat
  size_eq : size = waiting.count
  deriving DecidableEq, Repr

namespace PriorityStore

/-- The store of the values in a tree, of which as many came so far. -/
def ofTree (order : QueueOrder) (waiting : QueueTree) : PriorityStore :=
  { order, waiting, size := waiting.count, arrivals := waiting.count, size_eq := rfl }

def empty (order : QueueOrder) : PriorityStore := ofTree order .empty

/-- The rank of a priority: its place in the total order of numbers, or that of its negative where
the smallest is popped first. Both zeros have the same rank. -/
def rank (order : QueueOrder) (priority : Binary64) : Int :=
  let priority := if priority.isZero then Binary64.zero else priority
  match order with
  | .min => priority.neg.totalKey
  | .max => priority.totalKey

/-- The entries, in no order of interest. -/
def entries (store : PriorityStore) : List QueueEntry := store.waiting.entriesOnto []

def isEmpty (store : PriorityStore) : Bool := store.size == 0

/-- Lets a value wait. -/
def push (store : PriorityStore) (value : Value) (priority : Binary64) : PriorityStore :=
  let entry : QueueEntry := ⟨rank store.order priority, store.arrivals, value⟩
  { order := store.order
    waiting := store.waiting.join (.node entry .empty .empty)
    size := store.size + 1
    arrivals := store.arrivals + 1
    size_eq := by simp [QueueTree.count_join, QueueTree.count, store.size_eq] }

/-- The most urgent value. -/
def peek? (store : PriorityStore) : Option Value := store.waiting.top?.map QueueEntry.value

/-- Takes the most urgent value away. -/
def pop (store : PriorityStore) : PriorityStore :=
  { store with
    waiting := store.waiting.rest
    size := store.size - 1
    size_eq := by rw [QueueTree.count_rest, store.size_eq] }

/-- Takes all values away. -/
def clear (store : PriorityStore) : PriorityStore := empty store.order

end PriorityStore

end ScriptCore
