import ScriptCore.Native.Receiver

/-!
Map: an insertion-ordered mapping from any value to any value.
-/

namespace ScriptCore

namespace MapMethod

/-- The methods in the order in which the class defines them. -/
def all : List MapMethod :=
  [construct, set, get, has, delete, size, clear, keys, values, entries, forEach]

def name : MapMethod → String
  | construct => "constructor"
  | set => "set"
  | get => "get"
  | has => "has"
  | delete => "delete"
  | size => "size"
  | clear => "clear"
  | keys => "keys"
  | values => "values"
  | entries => "entries"
  | forEach => "forEach"

/-- The name of the method in messages. -/
def label (method : MapMethod) : String := "Map." ++ method.name

end MapMethod

namespace MapStore

/-- The pair that an array of two elements stands for. -/
def pairOf (h : Heap) (label : String) (item : Value) : Except Cause (Value × Value) :=
  match item with
  | .array r =>
    match h.items r with
    | [key, value] => .ok (key, value)
    | _ => .error (.mismatch label "[key, value] pair" item)
  | other => .error (.mismatch label "[key, value] pair" other)

/-- The store of the pairs that arrays of two elements stand for, stored one after another. -/
def ofPairs (h : Heap) (label : String) (items : List Value) : Except Cause MapStore :=
  items.foldlM
    (fun store item => do
      let (key, value) ← pairOf h label item
      pure (store.insert (h.keyOf key) key value))
    MapStore.empty

/-- The store that a constructor's argument stands for: an array of pairs, or nothing. -/
def ofArgument (h : Heap) (label : String) (arg : Option Value) : Except Cause MapStore :=
  match arg with
  | none | some .null => .ok .empty
  | some (.array r) => ofPairs h label (h.items r)
  | some other => .error (.mismatch label "array of [key, value] pairs" other)

end MapStore

/-- Calls a method of Map. -/
def MapMethod.call (re : Reentry) (method : MapMethod) (this : Option Value) (args : List Value) :
    Action Value := do
  let label := method.label
  match method with
  | construct =>
    Action.check (Arguments.between label 0 1 args.length)
    let store ← Action.viewHeap fun h => MapStore.ofArgument h label args[0]?
    Native.attachToReceiver label this (.map store)
  | set =>
    Action.check (Arguments.exactly label 2 args.length)
    let key := args.getD 0 .null
    let k ← Action.readHeap fun h => h.keyOf key
    let r ← Action.check (Arguments.receiver label this)
    Action.useStore .map label r (fun _ => .inst r) fun store =>
      store.insert k key (args.getD 1 .null)
  | get =>
    Action.check (Arguments.exactly label 1 args.length)
    let k ← Action.readHeap fun h => h.keyOf (args.getD 0 .null)
    Native.readStore .map label this fun store => Native.orNull (store.get? k)
  | has =>
    Action.check (Arguments.exactly label 1 args.length)
    let k ← Action.readHeap fun h => h.keyOf (args.getD 0 .null)
    Native.readStore .map label this fun store => .boolean (store.contains k)
  | delete =>
    Action.check (Arguments.exactly label 1 args.length)
    let k ← Action.readHeap fun h => h.keyOf (args.getD 0 .null)
    Native.useStore .map label this (fun store => .boolean (store.contains k)) fun store =>
      store.erase k
  | size =>
    Action.check (Arguments.exactly label 0 args.length)
    Native.readStore .map label this fun store => .ofNat store.size
  | clear =>
    Action.check (Arguments.exactly label 0 args.length)
    Native.changeStore .map label this fun _ => .empty
  | keys =>
    Action.check (Arguments.exactly label 0 args.length)
    let keys ← Native.readStore .map label this MapStore.keys
    Action.newArray keys
  | values =>
    Action.check (Arguments.exactly label 0 args.length)
    let values ← Native.readStore .map label this MapStore.values
    Action.newArray values
  | entries =>
    Action.check (Arguments.exactly label 0 args.length)
    let pairs ← Native.readStore .map label this MapStore.pairs
    let rows ← pairs.mapM fun (key, value) => Action.newArray [key, value]
    Action.newArray rows
  | forEach =>
    Action.check (Arguments.exactly label 1 args.length)
    let callback ← Action.check (Arguments.function label args 0)
    let pairs ← Native.readStore .map label this MapStore.pairs
    Invocation.callEach re callback (pairs.map fun (key, value) => [value, key])
    pure .null

/-- The class Map. -/
def newMapClass : Action (Ref .cls) :=
  Native.newClass "Map" (MapMethod.all.map fun method => (method.name, .map method))

end ScriptCore
