import ScriptCore.Key

/-!
The store behind a Map: pairs of a key value and a value, known by the key that the key value had
when the pair was stored. A later change to a stored key value moves nothing.
-/

namespace ScriptCore

/-- Pairs in the order in which their keys were first stored. -/
structure MapStore where
  entries : OrderedIndex Key (Value × Value) := .empty
  deriving DecidableEq, Repr

namespace MapStore

def empty : MapStore := {}

/-- Stores a pair. For a present key both parts of the old pair are replaced, in its place. -/
def insert (store : MapStore) (k : Key) (key value : Value) : MapStore :=
  ⟨store.entries.set k (key, value)⟩

def get? (store : MapStore) (k : Key) : Option Value := (store.entries.get? k).map Prod.snd

def contains (store : MapStore) (k : Key) : Bool := store.entries.contains k

/-- Removes a pair, if there is one. -/
def erase (store : MapStore) (k : Key) : MapStore := ⟨store.entries.remove k⟩

def pairs (store : MapStore) : List (Value × Value) := store.entries.values

def keys (store : MapStore) : List Value := store.pairs.map Prod.fst

def values (store : MapStore) : List Value := store.pairs.map Prod.snd

def size (store : MapStore) : Nat := store.entries.size

end MapStore

end ScriptCore
