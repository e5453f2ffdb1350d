import ScriptCore.Native.Receiver
import ScriptCore.Order
import ScriptCore.Sort

/-!
Sorting by the default order or by a comparator function, and `keysSorted`, which sorts the keys of
any container.
-/

namespace ScriptCore.Native

/-- The order of two values by a comparator, or by the default order. -/
def compareBy (re : Reentry) (comparator : Option (Ref .function)) (a b : Value) :
    Action Ordering :=
  match comparator with
  | some f => do
    let result ← re.invoke f [a, b] none
    Action.check result.comparatorOrder
  | none => pure (a.defaultCompare b)

/-- The entry under which an object holds the pairs of a map. -/
def pairsName : String := "__data"

/-- A key to sort, which stands for itself. -/
def selfKeyed (keys : List Value) : List (Value × Value) := keys.map fun key => (key, key)

/-- The key of a pair: the first element of an array that has one. -/
def keyOfPair (h : Heap) (item : Value) : Except Cause Value :=
  match item with
  | .array r =>
    match h.items r with
    | key :: _ => .ok key
    | [] => .error (.typeMismatch "keysSorted" "[key, value] pair" "empty array")
  | other => .error (.mismatch "keysSorted" "[key, value] pair" other)

/-- The keys of a container, each with the value by which it is sorted: the indices of an array with
the elements, the keys of an object, a Map or a Set with themselves. An object that holds an array
of pairs has the keys of those pairs. -/
def sortableKeys (h : Heap) (container : Value) : Except Cause (List (Value × Value)) :=
  let unsuitable := Cause.mismatch "keysSorted" "array, object, Map or Set" container
  match container with
  | .array r => .ok ((h.items r).zipIdx.map fun (item, place) => (.ofNat place, item))
  | .object r =>
    match (h.entries r).get? pairsName with
    | some (.array pairs) => do
      let keys ← (h.items pairs).mapM (keyOfPair h)
      pure (selfKeyed keys)
    | _ => .ok (selfKeyed ((h.entries r).keys.map Value.text))
  | .inst r =>
    match h.store? .map r, h.store? .set r with
    | some store, _ => .ok (selfKeyed store.keys)
    | none, some store => .ok (selfKeyed store.values)
    | none, none => .error unsuitable
  | _ => .error unsuitable

/-- The keys of a container in sorted order. -/
def keysSorted (re : Reentry) (args : List Value) : Action Value := do
  Action.check (Arguments.between "keysSorted" 1 2 args.length)
  let comparator ← Action.check (Arguments.function? "keysSorted" args 1)
  let entries ← Action.viewHeap fun h => sortableKeys h (args.getD 0 .null)
  let re := (re.holding (entries.map Prod.fst)).holding (entries.map Prod.snd)
  let sorted ← Sort.stableSort (fun a b => compareBy re comparator a.2 b.2) entries
  Action.newArray (sorted.map Prod.fst)

end ScriptCore.Native
