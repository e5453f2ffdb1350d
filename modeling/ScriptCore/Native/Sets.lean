import ScriptCore.Native.Receiver

/-!
Set: an insertion-ordered collection of distinct values.

Union, intersection and difference give new Sets and take instances of exactly the Set class as
operands; another class that owns a Set's store does not do.
-/

namespace ScriptCore

namespace SetMethod

def name : SetMethod → String
  | construct => "constructor"
  | add => "add"
  | has => "has"
  | delete => "delete"
  | size => "size"
  | clear => "clear"
  | values => "values"
  | forEach => "forEach"

/-- The name of the method in messages. -/
def label (method : SetMethod) : String := "Set." ++ method.name

/-- The names under which the class defines the methods, in order; `keys` is another name of
`values`. -/
def table : List (String × SetMethod) :=
  [construct, add, has, delete, size, clear, values].map (fun method => (method.name, method)) ++
    [("keys", values), (forEach.name, forEach)]

end SetMethod

/-- The store that a constructor's argument stands for: an array of members, or nothing. -/
def SetStore.ofArgument (h : Heap) (label : String) (arg : Option Value) : Except Cause SetStore :=
  match arg with
  | none | some .null => .ok .empty
  | some (.array r) => .ok (SetStore.empty.insertAll h.keyOf (h.items r))
  | some other => .error (.mismatch label "array" other)

/-- Calls a method of Set. -/
def SetMethod.call (re : Reentry) (method : SetMethod) (this : Option Value) (args : List Value) :
    Action Value := do
  let label := method.label
  match method with
  | construct =>
    Action.check (Arguments.between label 0 1 args.length)
    let store ← Action.viewHeap fun h => SetStore.ofArgument h label args[0]?
    Native.attachToReceiver label this (.set store)
  | add =>
    Action.check (Arguments.exactly label 1 args.length)
    let member := args.getD 0 .null
    let k ← Action.readHeap fun h => h.keyOf member
    let r ← Action.check (Arguments.receiver label this)
    Action.useStore .set label r (fun _ => .inst r) fun store => store.insert k member
  | has =>
    Action.check (Arguments.exactly label 1 args.length)
    let k ← Action.readHeap fun h => h.keyOf (args.getD 0 .null)
    Native.readStore .set label this fun store => .boolean (store.contains k)
  | delete =>
    Action.check (Arguments.exactly label 1 args.length)
    let k ← Action.readHeap fun h => h.keyOf (args.getD 0 .null)
    Native.useStore .set label this (fun store => .boolean (store.contains k)) fun store =>
      store.erase k
  | size =>
    Action.check (Arguments.exactly label 0 args.length)
    Native.readStore .set label this fun store => .ofNat store.size
  | clear =>
    Action.check (Arguments.exactly label 0 args.length)
    Native.changeStore .set label this fun _ => .empty
  | values =>
    Action.check (Arguments.exactly label 0 args.length)
    let values ← Native.readStore .set label this SetStore.values
    Action.newArray values
  | forEach =>
    Action.check (Arguments.exactly label 1 args.length)
    let callback ← Action.check (Arguments.function label args 0)
    let values ← Native.readStore .set label this SetStore.values
    Invocation.callEach re callback (values.map fun value => [value])
    pure .null

namespace SetAlgebra

/-- The operations in the order in which the class defines them. -/
def all : List SetAlgebra := [union, intersection, difference]

def name : SetAlgebra → String
  | union => "union"
  | intersection => "intersection"
  | difference => "difference"

/-- The name of the method in messages. -/
def label (operation : SetAlgebra) : String := "Set." ++ operation.name

/-- The store that an operation makes of two stores. -/
def combine (operation : SetAlgebra) (keyOf : Value → Key) (mine theirs : SetStore) : SetStore :=
  match operation with
  | union => mine.union theirs keyOf
  | intersection => mine.intersection theirs
  | difference => mine.difference theirs

/-- The operand, which has to be an instance of exactly the class. -/
def operand (h : Heap) (label : String) (cls : Ref .cls) (arg : Value) :
    Except Cause (Ref .inst) :=
  match arg with
  | .inst r =>
    if (h.inst r).cls = cls then .ok r
    else .error (.typeMismatch label "Set" (h.instanceClassName r))
  | other => .error (.mismatch label "Set" other)

/-- Why an operand is refused: while the class is in use, for what the operand is, and afterwards
because there is no class. An instance of the class would keep it in use. -/
def refusal (re : Reentry) (m : Machine) (cls : Ref .cls) (cause : Cause) : Cause :=
  if re.keeps m cls.identity then cause else .setClassGone

/-- Combines the receiver's members with those of another Set into a new Set. -/
def call (re : Reentry) (operation : SetAlgebra) (cls : Ref .cls) (this : Option Value)
    (args : List Value) : Action Value := do
  let label := operation.label
  Action.check (Arguments.exactly label 1 args.length)
  let m ← get
  let other ← Action.check
    ((operand m.heap label cls (args.getD 0 .null)).mapError (refusal re m cls))
  let mine ← Native.readStore .set label this id
  let theirs ← Action.viewHeap fun h => h.store .set label other
  let result ← Action.readHeap fun h => operation.combine h.keyOf mine theirs
  let r ← Action.onHeap fun h => h.newInstance cls
  Action.attach r (.set result)
  pure (.inst r)

end SetAlgebra

/-- The class Set. Its algebra refers to the class itself. -/
def newSetClass : Action (Ref .cls) := do
  let cls ← Native.newClass "Set" (SetMethod.table.map fun (name, method) => (name, .set method))
  SetAlgebra.all.forM fun operation => do
    let f ← Action.newNative operation.label (.setAlgebra operation cls)
    Action.modifyHeap fun h => h.setMethod cls operation.name f
  pure cls

end ScriptCore
