import ScriptCore.Key

/-!
The store behind a Set: members known by the key that they had when they were added. Adding a
member whose key is present changes nothing, so the first stored member stays.
-/

namespace ScriptCore

/-- Members in the order in which they were added. -/
structure SetStore where
  members : OrderedIndex Key Value := .empty
  deriving DecidableEq, Repr

namespace SetStore

def empty : SetStore := {}

def contains (store : SetStore) (k : Key) : Bool := store.members.contains k

/-- Adds a member unless its key is present. -/
def insert (store : SetStore) (k : Key) (member : Value) : SetStore :=
  if store.contains k then store else ⟨store.members.set k member⟩

/-- Adds members one after another, each under the key that it has now. -/
def insertAll (store : SetStore) (keyOf : Value → Key) (members : List Value) : SetStore :=
  members.foldl (fun store member => store.insert (keyOf member) member) store

/-- Removes a member, if there is one. -/
def erase (store : SetStore) (k : Key) : SetStore := ⟨store.members.remove k⟩

def values (store : SetStore) : List Value := store.members.values

def size (store : SetStore) : Nat := store.members.size

/-- The entries whose stored key passes a test, under their stored keys. -/
def filterKeys (store : SetStore) (keep : Key → Bool) : SetStore :=
  ⟨OrderedIndex.ofList (store.members.toList.filter fun entry => keep entry.1)⟩

/-- The members of both stores, each added under the key that it has now. -/
def union (a b : SetStore) (keyOf : Value → Key) : SetStore :=
  empty.insertAll keyOf (a.values ++ b.values)

/-- The members whose stored key the other store has too. -/
def intersection (a b : SetStore) : SetStore := a.filterKeys b.contains

/-- The members whose stored key the other store does not have. -/
def difference (a b : SetStore) : SetStore := a.filterKeys fun k => !b.contains k

end SetStore

end ScriptCore
