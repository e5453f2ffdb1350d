import ScriptCore.Describe
import ScriptCore.Packages

/-!
What the operations of the expression language do with their operands.
-/

namespace ScriptCore

/-- The result of an operation on two numbers. -/
def NumericOperation.apply (op : NumericOperation) (x y : Binary64) : Value :=
  match op with
  | add => .number (x.add y)
  | sub => .number (x.sub y)
  | mul => .number (x.mul y)
  | lt => .boolean (x.numLt y)

/-- An order as -1, 0 or 1. -/
def Value.ofOrdering (o : Ordering) : Value :=
  .number (Binary64.ofInt (match o with
    | .lt => -1
    | .eq => 0
    | .gt => 1))

/-- The element of an array at a whole number, or the entry of an object under a string; null if it
is absent. -/
def Heap.element (h : Heap) (container key : Value) : Except Cause Value :=
  let unsuitable := Cause.mismatch "idx" "array or object" container
  match container, key with
  | .array r, .number n =>
    match n.toInt? with
    | some (.ofNat place) => .ok ((h.elements r).getD place .null)
    | _ => .error unsuitable
  | .object r, .text name => .ok (((h.entries r).get? name).getD .null)
  | _, _ => .error unsuitable

/-- The number of elements of an array or of entries of an object. -/
def Heap.length (h : Heap) (container : Value) : Except Cause Nat :=
  match container with
  | .array r => .ok (h.elements r).size
  | .object r => .ok (h.entries r).size
  | other => .error (.mismatch "len" "array or object" other)

namespace Operations

/-- Gives no value of interest. -/
def silently (action : Action Unit) : Action Value := do
  action
  pure .null

/-- A new array of strings. -/
def newTexts (strings : List String) : Action Value := Action.newArray (strings.map Value.text)

/-- The function that an operand is. -/
def functionOf (v : Value) : Except Cause (Ref .function) :=
  match v with
  | .function f => .ok f
  | other => .error (.notCallable other.typeName)

/-- The array that an operand is. -/
def arrayOf (operation : String) (v : Value) : Except Cause (Ref .array) :=
  match v with
  | .array r => .ok r
  | other => .error (.mismatch operation "array" other)

/-- The object that an operand is. -/
def objectOf (operation : String) (v : Value) : Except Cause (Ref .object) :=
  match v with
  | .object r => .ok r
  | other => .error (.mismatch operation "object" other)

/-- The class that an operand is. -/
def classOf (operation : String) (v : Value) : Except Cause (Ref .cls) :=
  match v with
  | .cls r => .ok r
  | other => .error (.mismatch operation "class" other)

/-- The instance that an operand is. -/
def instanceOf (operation : String) (v : Value) : Except Cause (Ref .inst) :=
  match v with
  | .inst r => .ok r
  | other => .error (.mismatch operation "instance" other)

/-- The promise that an operand is. -/
def promiseOf (operation : String) (v : Value) : Except Cause (Ref .promise) :=
  match v with
  | .promise r => .ok r
  | other => .error (.mismatch operation "promise" other)

/-- The value of an entry of an object, or null. -/
def entryOf (r : Ref .object) (key : String) : Action Value :=
  Action.readHeap fun h => ((h.entries r).get? key).getD .null

/-- Sets an entry of an object and gives the value that it had, or null. -/
def setEntry (r : Ref .object) (key : String) (value : Value) : Action Value := do
  let old ← entryOf r key
  Action.modifyHeap fun h => h.modifyEntries r fun entries => entries.set key value
  pure old

/-- Removes an entry of an object and gives the value that it had, or null. -/
def removeEntry (r : Ref .object) (key : String) : Action Value := do
  let old ← entryOf r key
  Action.modifyHeap fun h => h.modifyEntries r fun entries => entries.remove key
  pure old

/-- Adds the image of a value to the output. -/
def record (v : Value) : Action Value := do
  modify fun m => { m with output := m.heap.image v :: m.output }
  pure v

/-- A new class with functions as its methods. -/
def newClass (name : String) (native : Bool) (names : List String) (methods : List Value) :
    Action Value := do
  let functions ← Action.check (methods.mapM functionOf)
  let cls ← Action.onHeap fun h =>
    h.newClass { name, native, methods := OrderedIndex.ofList (names.zip functions) }
  pure (.cls cls)

/-- What a class is, as an array: name, whether it is native, the method names, and whether it has
a method of each of these names. -/
def describeClass (cls : Ref .cls) : Action Value := do
  let info ← Action.readHeap fun h => h.classInfo cls
  let names ← Action.readHeap fun h => Describe.methodNames h cls
  let namesArray ← newTexts names
  Action.newArray
    [.text info.name, .boolean info.native, namesArray, .boolean (names.all info.methods.contains)]

/-- The resource of an instance, which has to be of the given kind, in words. -/
def describeResource (r : Ref .inst) (kind : ResourceKind) (operation : String) :
    Action Value := do
  let content ← Action.readHeap fun h => h.inst r
  let className ← Action.readHeap fun h => h.instanceClassName r
  match content.resource with
  | some resource =>
    if resource.kind = kind then
      if kind = .token then pure (.text "token")
      else
        newTexts [kind.className, toString resource.size, Describe.booleanText (resource.size == 0)]
    else Action.fail (.typeMismatch operation kind.typeName className)
  | none => Action.fail (.typeMismatch operation kind.typeName className)

/-- The state of a promise, as an array: its name, whether it is pending, and the value or null. -/
def describePromise (r : Ref .promise) : Action Value := do
  let state ← Action.readHeap fun h => h.promise r
  Action.newArray [.text state.stateName, .boolean state.isPending, state.value?.getD .null]

end Operations

/-- What an operand has to be. -/
inductive Need where
  /-- A value of the named type; the operation is named in the message. -/
  | typed (operation typeName : String)
  | callable
  deriving DecidableEq, Repr

/-- Fails on a value that is not what is needed. -/
def Need.check (need : Need) (v : Value) : Except Cause Unit :=
  match need with
  | .typed operation typeName =>
    if v.typeName = typeName then .ok () else .error (.mismatch operation typeName v)
  | .callable => (Operations.functionOf v).map fun _ => ()

/-- What the operand at a place has to be, if that is checked as soon as the operand has a value and
not only when the operation runs. -/
def Operation.need? (op : Operation) (place : Nat) : Option Need :=
  match op, place with
  | .append, 0 => some (.typed "push" "array")
  | .setEntry _, 0 => some (.typed "put" "object")
  | .removeEntry _, 0 => some (.typed "del" "object")
  | .newClass .., _ => some .callable
  | .defineMethod _, 0 => some (.typed "defmethod" "class")
  | .defineMethod _, 1 => some .callable
  | .describeClass, 0 => some (.typed "classinfo" "class")
  | .classMethod _, 0 => some (.typed "classmethod" "class")
  | .isInstance, 0 => some (.typed "isa" "instance")
  | .isInstance, 1 => some (.typed "isa" "class")
  | .readField _, 0 => some (.typed "field" "instance")
  | .writeField _, 0 => some (.typed "setfield" "instance")
  | .fieldNames, 0 => some (.typed "fields" "instance")
  | .attach _, 0 => some (.typed "attach" "instance")
  | .ownsResource, 0 => some (.typed "hasnative" "instance")
  | .resourceIs _, 0 => some (.typed "nativeis" "instance")
  | .describeResource .., 0 => some (.typed "withnative" "instance")
  | .fulfill, 0 => some (.typed "fulfill" "promise")
  | .reject, 0 => some (.typed "reject" "promise")
  | .promiseState, 0 => some (.typed "pstate" "promise")
  | .onSignal _, 0 => some .callable
  | _, _ => none

/-- What an operation holds of the operands evaluated so far, the latest first. One that gathers its
operands under names sets each of them as soon as it is there. -/
def Operation.hold (op : Operation) (latest : List Value) : Hold :=
  match op with
  | .object keys => .named keys latest
  | .newClass _ _ methods => .named methods latest
  | _ => .values latest

/-- Runs an operation on its operands, in the scope of the expression. -/
def Operation.apply (re : Reentry) (scope : Ref .scope) (op : Operation) (operands : List Value) :
    Action Value := do
  let a := operands.getD 0 .null
  let b := operands.getD 1 .null
  match op with
  | .array => Action.newArray operands
  | .object keys => Action.newObject (OrderedIndex.ofList (keys.zip operands))
  | .displayText => Action.readHeap fun h => .text (h.display a)
  | .typeName => pure (.text a.typeName)
  | .truthy => pure (.boolean a.isTruthy)
  | .negation => pure (.boolean !a.isTruthy)
  | .concat => Action.readHeap fun h => .text (String.join (operands.map h.display))
  | .equal => Action.readHeap fun h => .boolean (h.equal a b)
  | .sameReference => pure (.boolean (a.sameReference b))
  | .sameKey => Action.readHeap fun h => .boolean (decide (h.keyOf a = h.keyOf b))
  | .compare => pure (.ofOrdering (a.defaultCompare b))
  | .comparatorOrder => do
    let order ← Action.check a.comparatorOrder
    pure (.ofOrdering order)
  | .numeric op => do
    let x ← Action.check (Arguments.number op.text operands 0)
    let y ← Action.check (Arguments.number op.text operands 1)
    pure (op.apply x y)
  | .length => do
    let n ← Action.viewHeap fun h => h.length a
    pure (.ofNat n)
  | .element => Action.viewHeap fun h => h.element a b
  | .append => do
    let r ← Action.check (Operations.arrayOf "push" a)
    Operations.silently (Action.modifyHeap fun h => h.append r operands.tail)
  | .setEntry key => do
    let r ← Action.check (Operations.objectOf "put" a)
    Operations.setEntry r key b
  | .removeEntry key => do
    let r ← Action.check (Operations.objectOf "del" a)
    Operations.removeEntry r key
  | .throwValue => do
    let cause ← Action.readHeap fun h => h.thrown a
    Action.fail cause
  | .fail cause => Action.fail cause
  | .record => Operations.record a
  | .readName name => Action.viewHeap fun h => h.readName scope name
  | .define name => Operations.silently (Action.modifyHeap fun h => h.define scope name a)
  | .assign name => Operations.silently (Action.assign scope name a)
  | .defineGlobal name => do
    let m ← get
    Operations.silently (Action.modifyHeap fun h => h.define m.globals name a)
  | .localNames => do
    let names ← Action.readHeap fun h => h.localNames scope
    Operations.newTexts names
  | .scopeDepth => Action.readHeap fun h => .ofNat (h.scopeDepth scope)
  | .call => Invocation.callValue re a operands.tail
  | .send name => Invocation.callMethod re a name operands.tail
  | .resolve name => do
    let f ← Action.viewHeap fun h => h.resolve a name
    pure (.function f)
  | .callBound => do
    let f ← Action.check (Operations.functionOf a)
    re.invoke f (operands.drop 2) (some b)
  | .describeFunction => do
    let f ← Action.check (Operations.functionOf a)
    let parts ← Action.readHeap fun h => Describe.functionParts h f
    Operations.newTexts parts
  | .callDepth => do
    let m ← get
    pure (.ofNat m.calls.depth)
  | .configuration => do
    let m ← get
    let depth := match m.config.maxCallDepth with
      | some n => .text (toString n)
      | none => .null
    Action.newArray [depth, .boolean m.config.signalPolling]
  | .debugText => do
    let m ← get
    pure (.text (Describe.value m a))
  | .newClass name native methods => Operations.newClass name native methods operands
  | .defineMethod name => do
    let cls ← Action.check (Operations.classOf "defmethod" a)
    let f ← Action.check (Operations.functionOf b)
    Operations.silently (Action.modifyHeap fun h => h.setMethod cls name f)
  | .describeClass => do
    let cls ← Action.check (Operations.classOf "classinfo" a)
    Operations.describeClass cls
  | .classMethod name => do
    let cls ← Action.check (Operations.classOf "classmethod" a)
    Action.readHeap fun h => ((h.method? cls name).map Value.function).getD .null
  | .isInstance => do
    let r ← Action.check (Operations.instanceOf "isa" a)
    let cls ← Action.check (Operations.classOf "isa" b)
    Action.readHeap fun h => .boolean (decide ((h.inst r).cls = cls))
  | .readField name => do
    let r ← Action.check (Operations.instanceOf "field" a)
    Action.readHeap fun h => ((h.inst r).fields.get? name).getD .null
  | .writeField name => do
    let r ← Action.check (Operations.instanceOf "setfield" a)
    Operations.silently (Action.modifyHeap fun h => h.setField r name b)
  | .fieldNames => do
    let r ← Action.check (Operations.instanceOf "fields" a)
    let names ← Action.readHeap fun h => (h.inst r).fields.keys
    Operations.newTexts names
  | .attach kind => do
    let r ← Action.check (Operations.instanceOf "attach" a)
    Operations.silently (Action.attach r (.fresh kind))
  | .ownsResource => do
    let r ← Action.check (Operations.instanceOf "hasnative" a)
    Action.readHeap fun h => .boolean (h.inst r).resource.isSome
  | .resourceIs kind => do
    let r ← Action.check (Operations.instanceOf "nativeis" a)
    Action.readHeap fun h => .boolean (decide ((h.inst r).resource.map Resource.kind = some kind))
  | .describeResource kind operation => do
    let r ← Action.check (Operations.instanceOf "withnative" a)
    Operations.describeResource r kind operation
  | .newPromise => Action.onHeap fun h => h.newPromise .pending
  | .fulfill => do
    let r ← Action.check (Operations.promiseOf "fulfill" a)
    Operations.silently (Action.settle r (.fulfilled b))
  | .reject => do
    let r ← Action.check (Operations.promiseOf "reject" a)
    Operations.silently (Action.settle r (.rejected b))
  | .promiseState => do
    let r ← Action.check (Operations.promiseOf "pstate" a)
    Operations.describePromise r
  | .importPackage name => Packages.importPackage re name
  | .isRegistered name => do
    let m ← get
    pure (.boolean (m.registry.isRegistered name))
  | .registerSymbol package name => Operations.silently (Packages.registerSymbol package name a)
  | .safePoint => Operations.silently (Invocation.safePoint re)
  | .isPending signal => do
    let pending ← Signalling.isPending signal
    pure (.boolean pending)
  | .onSignal signal => do
    let f ← Action.check (Operations.functionOf a)
    Operations.silently (Signalling.register signal f)
  | .clearSignal signal => do
    let removed ← Signalling.clear signal
    pure (.boolean removed)
  | .raiseSignal signal => Operations.silently (Signalling.raise signal)

end ScriptCore
