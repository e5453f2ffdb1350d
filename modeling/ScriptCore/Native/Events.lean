import ScriptCore.Native.Receiver

/-!
EventBus: named signals with ordered listeners, and `connect`, which subscribes one bus to another.

Emission runs the listeners that a signal has when it begins. A slot given by name is resolved when
it is connected, and from then on its listener runs the method found with the receiver bound.
-/

namespace ScriptCore

namespace BusMethod

/-- The methods in the order in which the class defines them. -/
def all : List BusMethod := [construct, receive, emit, off, listenerCount, signals]

def name : BusMethod → String
  | construct => "constructor"
  | receive => "receive"
  | emit => "emit"
  | off => "off"
  | listenerCount => "listenerCount"
  | signals => "signals"

/-- The name of the method in messages. -/
def label (method : BusMethod) : String := "EventBus." ++ method.name

/-- How many arguments a method takes. -/
def checkCount (method : BusMethod) (got : Nat) : Except Cause Unit :=
  match method with
  | construct | signals => Arguments.exactly method.label 0 got
  | receive => Arguments.exactly method.label 2 got
  | emit => Arguments.atLeast method.label 1 got
  | off => Arguments.between method.label 1 2 got
  | listenerCount => Arguments.exactly method.label 1 got

/-- Calls listeners one after another with the same arguments and without a receiver. All of them
are held meanwhile. -/
def emitTo (re : Reentry) (listeners : List (Ref .function)) (args : List Value) : Action Unit :=
  let re := re.holding (listeners.map Value.function)
  listeners.forM fun listener => discard (re.invoke listener args none)

/-- Calls a method of EventBus. -/
def call (re : Reentry) (method : BusMethod) (this : Option Value) (args : List Value) :
    Action Value := do
  let label := method.label
  Action.check (method.checkCount args.length)
  match method with
  | construct => Native.attachToReceiver label this (.listeners .empty)
  | receive =>
    let signal ← Action.check (Arguments.text label args 0)
    let listener ← Action.check (Arguments.function label args 1)
    Native.changeStore .listeners label this fun table => table.add signal listener
  | emit =>
    let signal ← Action.check (Arguments.text label args 0)
    let listeners ← Native.readStore .listeners label this fun table => table.listeners signal
    emitTo re listeners args.tail
    pure .null
  | off =>
    let signal ← Action.check (Arguments.text label args 0)
    let listener ← Action.check (Arguments.function? label args 1)
    Native.useStore .listeners label this
      (fun table => .ofNat (table.removable signal listener))
      (fun table => table.remove signal listener)
  | listenerCount =>
    let signal ← Action.check (Arguments.text label args 0)
    Native.readStore .listeners label this fun table => .ofNat (table.count signal)
  | signals =>
    let names ← Native.readStore .listeners label this fun table => table.signalNames
    Action.newArray (names.map Value.text)

end BusMethod

/-- The class EventBus. -/
def newBusClass : Action (Ref .cls) :=
  Native.newClass "EventBus" (BusMethod.all.map fun method => (method.name, .bus method))

namespace Connection

/-- An instance that owns a listener table, whatever its class. -/
def busArgument (h : Heap) (role : String) (arg : Value) : Except Cause (Ref .inst) :=
  let operation := "connect " ++ role
  match arg with
  | .inst r =>
    match h.store? .listeners r with
    | some _ => .ok r
    | none => .error (.typeMismatch operation "EventBus" (h.instanceClassName r))
  | other => .error (.mismatch operation "EventBus" other)

/-- The listener for a slot: a function itself, or for a method name a new function that runs the
method found now, with the receiver bound. -/
def slotListener (receiver slot : Value) : Action (Ref .function) :=
  match slot with
  | .text name => do
    let method ← Action.viewHeap fun h => h.resolve receiver name
    Action.newNative (name ++ " (connected)") (.bound method receiver)
  | .function f => pure f
  | other => Action.fail (.mismatch "connect" "method name or function" other)

/-- Subscribes a slot of the receiver to a signal of the sender. -/
def connect (args : List Value) : Action Value := do
  Action.check (Arguments.exactly "connect" 4 args.length)
  let receiver := args.getD 2 .null
  let sender ← Action.viewHeap fun h => busArgument h "sender" (args.getD 0 .null)
  let signal ← Action.check (Arguments.text "connect" args 1)
  discard (Action.viewHeap fun h => busArgument h "receiver" receiver)
  let listener ← slotListener receiver (args.getD 3 .null)
  Action.useStore .listeners "connect" sender (fun _ => .null) fun table =>
    table.add signal listener

end Connection

end ScriptCore
