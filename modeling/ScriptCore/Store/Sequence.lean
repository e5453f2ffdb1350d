import ScriptCore.Value

/-!
The stores behind a Stack and a Deque: plain sequences of values. A stack works on its end alone, a
deque on both of its ends.

A stack keeps its values from the top down, a deque its first values from the front on and the
others from the back on, so that each end is at hand. What a program sees is the sequence `items`.
-/

namespace ScriptCore

/-- Values on top of one another, and their number. -/
structure StackStore where
  /-- The values from top to bottom. -/
  pile : List Value
  size : Nat
  size_eq : size = pile.length
  deriving DecidableEq, Repr

namespace StackStore

/-- The store of values that stand from top to bottom. -/
def ofPile (pile : List Value) : StackStore := { pile, size := pile.length, size_eq := rfl }

def empty : StackStore := ofPile []

/-- The values from bottom to top. -/
def items (store : StackStore) : List Value := store.pile.reverse

def isEmpty (store : StackStore) : Bool := store.size == 0

/-- Puts values on top, in their order. -/
def push (store : StackStore) (values : List Value) : StackStore :=
  { pile := values.reverse ++ store.pile
    size := store.size + values.length
    size_eq := by simp [store.size_eq, Nat.add_comm] }

def peek? (store : StackStore) : Option Value := store.pile.head?

/-- Takes the top value off. -/
def pop (store : StackStore) : StackStore :=
  { pile := store.pile.tail
    size := store.size - 1
    size_eq := by simp [store.size_eq] }

/-! ### The sequence -/

theorem items_push (store : StackStore) (values : List Value) :
    (store.push values).items = store.items ++ values := by simp [push, items]

theorem items_pop (store : StackStore) : store.pop.items = store.items.dropLast := by
  simp [pop, items]

theorem peek?_eq_getLast? (store : StackStore) : store.peek? = store.items.getLast? := by
  simp [peek?, items]

theorem size_eq_length (store : StackStore) : store.size = store.items.length := by
  simp [items, store.size_eq]

end StackStore

/-- Values between two ends, and their number. -/
structure DequeStore where
  /-- The first values, from the front on. -/
  front : List Value
  /-- The other values, from the back on. -/
  back : List Value
  size : Nat
  size_eq : size = front.length + back.length
  deriving DecidableEq, Repr

namespace DequeStore

/-- The store of values that stand from the front on and from the back on. -/
def ofEnds (front back : List Value) : DequeStore :=
  { front, back, size := front.length + back.length, size_eq := rfl }

def empty : DequeStore := ofEnds [] []

/-- The values from front to back. -/
def items (store : DequeStore) : List Value := store.front ++ store.back.reverse

def isEmpty (store : DequeStore) : Bool := store.size == 0

/-- The number of values that an end keeps when it shares them with the other end. -/
def share (values : List Value) : Nat := (values.length + 1) / 2

/-- Shares the values between the ends if one has two or more of them and the other has none. -/
def balance (store : DequeStore) : DequeStore :=
  match store with
  | { front := [], back := first :: second :: rest, size, size_eq } =>
    let values := first :: second :: rest
    { front := (values.drop (share values)).reverse
      back := values.take (share values)
      size
      size_eq := by simp [size_eq, share, values]; omega }
  | { front := first :: second :: rest, back := [], size, size_eq } =>
    let values := first :: second :: rest
    { front := values.take (share values)
      back := (values.drop (share values)).reverse
      size
      size_eq := by simp [size_eq, share, values]; omega }
  | _ => store

/-- Adds values behind the back, in their order. -/
def pushBack (store : DequeStore) (values : List Value) : DequeStore :=
  balance
    { front := store.front
      back := values.reverse ++ store.back
      size := store.size + values.length
      size_eq := by simp [store.size_eq]; omega }

/-- Adds values before the front; they keep their order, so the first one comes first. -/
def pushFront (store : DequeStore) (values : List Value) : DequeStore :=
  balance
    { front := values ++ store.front
      back := store.back
      size := store.size + values.length
      size_eq := by simp [store.size_eq]; omega }

def front? (store : DequeStore) : Option Value := store.front.head? <|> store.back.getLast?

def back? (store : DequeStore) : Option Value := store.back.head? <|> store.front.getLast?

/-- Takes the value at the front away. -/
def popFront (store : DequeStore) : DequeStore :=
  match store with
  | { front := _ :: rest, back, size, size_eq } =>
    balance { front := rest, back, size := size - 1, size_eq := by grind }
  | { front := [], back, size, size_eq } =>
    balance { front := [], back := back.dropLast, size := size - 1, size_eq := by simp [size_eq] }

/-- Takes the value at the back away. -/
def popBack (store : DequeStore) : DequeStore :=
  match store with
  | { front, back := _ :: rest, size, size_eq } =>
    balance { front, back := rest, size := size - 1, size_eq := by grind }
  | { front, back := [], size, size_eq } =>
    balance { front := front.dropLast, back := [], size := size - 1, size_eq := by simp [size_eq] }

/-! ### The sequence -/

theorem items_balance (store : DequeStore) : store.balance.items = store.items := by
  unfold balance
  split
  · simp [items, ← List.reverse_append]
  · simp [items]
  · rfl

theorem items_pushBack (store : DequeStore) (values : List Value) :
    (store.pushBack values).items = store.items ++ values := by
  rw [pushBack, items_balance]
  simp [items]

theorem items_pushFront (store : DequeStore) (values : List Value) :
    (store.pushFront values).items = values ++ store.items := by
  rw [pushFront, items_balance]
  simp [items]

theorem items_popFront (store : DequeStore) : store.popFront.items = store.items.tail := by
  unfold popFront
  split <;> rw [items_balance] <;> simp [items]

theorem items_popBack (store : DequeStore) : store.popBack.items = store.items.dropLast := by
  unfold popBack
  split <;> rw [items_balance] <;> simp [items]

theorem front?_eq_head? (store : DequeStore) : store.front? = store.items.head? := by
  cases h : store.front <;> simp [front?, items, h]

theorem back?_eq_getLast? (store : DequeStore) : store.back? = store.items.getLast? := by
  cases h : store.back <;> simp [back?, items, h]

theorem size_eq_length (store : DequeStore) : store.size = store.items.length := by
  simp [items, store.size_eq]

end DequeStore

end ScriptCore
