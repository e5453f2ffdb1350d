import ScriptCore.Arguments
import ScriptCore.Machine

/-!
The invocation protocol.

Every call goes through it, whoever makes it: it polls for pending signals, enters the call unless
too many are active, runs the function, gives a fault its trace and leaves the call. The functions
here are written over the ways back into the interpreter, so that what they do can be stated
whatever the functions called do.
-/

namespace ScriptCore

/-- What an evaluation under way holds on to. -/
inductive Hold where
  | values (values : List Value)
  /-- The values of several lists. -/
  | lists (lists : List (List Value))
  /-- Values set under names one after another, the latest first; a name lets go of its value when
  it gets another. -/
  | named (names : List String) (latest : List Value)
  | scope (scope : Ref .scope)
  deriving DecidableEq, Repr

/-- The cells that a hold refers to. -/
def Hold.referents : Hold → List Identity
  | values vs => Value.referents vs
  | lists vss => Value.referents vss.flatten
  | named names vs => Table.referents (OrderedIndex.ofList (names.zip vs.reverse))
  | scope s => [s.identity]

/-- The ways back into the interpreter: calling a function with arguments and perhaps a receiver,
and requesting the bindings of a package. Both are given what the evaluations under way hold, which
is known here as well. -/
structure Reentry where
  holds : List Hold
  call : List Hold → Ref .function → List Value → Option Value → Action Value
  request : List Hold → String → Action Table

namespace Reentry

/-- Calls a function. -/
def invoke (re : Reentry) (callee : Ref .function) (args : List Value) (this : Option Value) :
    Action Value :=
  re.call re.holds callee args this

/-- Requests the bindings of a package. -/
def ensure (re : Reentry) (name : String) : Action Table := re.request re.holds name

/-- The same ways back with one more hold. -/
def adding (re : Reentry) (hold : Hold) : Reentry := { re with holds := hold :: re.holds }

/-- The same ways back while values are held as well. -/
def holding (re : Reentry) (values : List Value) : Reentry := re.adding (.values values)

/-- The same ways back while a scope is held as well. -/
def within (re : Reentry) (scope : Ref .scope) : Reentry := re.adding (.scope scope)

/-- Whether a cell is in use: by the machine or by an evaluation under way. -/
def keeps (re : Reentry) (m : Machine) (cell : Identity) : Bool :=
  m.heap.inUse (m.referents ++ re.holds.flatMap Hold.referents) cell

end Reentry

/-- The name under which a call finds its receiver. -/
def receiverName : String := "this"

/-- The name of the method that sets up a new instance. -/
def constructorName : String := "constructor"

namespace Invocation

/-! ### Safe points -/

/-- Clears the mark of a pending signal and then calls its handler, if it has one. -/
def dispatchSignal (re : Reentry) (signal : OsSignal) : Action Unit := do
  let m ← get
  if m.signals.isPending signal then
    let handler := m.signals.handler? signal
    set { m with signals := m.signals.take signal }
    Action.journal (.taken signal handler)
    match handler with
    | some f => discard (re.invoke f [.text signal.name] none)
    | none => pure ()

/-- Dispatches every signal that is pending when its turn comes. The first handler that fails ends
the dispatch. -/
def dispatchPending (re : Reentry) : Action Unit := OsSignal.all.forM (dispatchSignal re)

/-- Dispatches pending signals, unless a dispatch is under way. -/
def safePoint (re : Reentry) : Action Unit := do
  if (← get).dispatching then pure ()
  else
    modify fun m => { m with dispatching := true, journal := .dispatchBegan :: m.journal }
    (dispatchPending re).ending fun m =>
      { m with dispatching := false, journal := .dispatchEnded :: m.journal }

/-- A safe point, if the machine polls for signals. -/
def poll (re : Reentry) : Action Unit := do
  if (← get).polling then safePoint re else pure ()

/-! ### Calls -/

/-- Enters a call, unless the limit is reached. -/
def enter (callee : Ref .function) : Action Unit := do
  let m ← get
  match m.calls.push (m.heap.functionName callee) with
  | .ok calls => set { m with calls, journal := .entered callee calls.depth :: m.journal }
  | .error cause => do
    Action.journal (.refused callee m.calls.depth)
    Action.fail cause

/-- Leaves the most recent call. -/
def leave (callee : Ref .function) (m : Machine) : Machine :=
  { m with calls := m.calls.pop, journal := .left callee m.calls.depth :: m.journal }

/-- Gives a fault that has no trace the trace of the calls active when it comes through. -/
def traced {α : Type} (action : Action α) : Action α := fun m =>
  match action m with
  | (.error (.fault fault), m) => (.error (.fault (m.calls.attachTrace fault)), m)
  | other => other

/-- A call of a function whose work is the given action. -/
def call (re : Reentry) (callee : Ref .function) (work : Action Value) : Action Value := do
  poll re
  enter callee
  (traced work).ending (leave callee)

/-! ### Scopes of calls -/

/-- How many arguments a script function needs, and whether it takes more. -/
def checkCount (name : String) (params : List String) (rest : Option Nat) (got : Nat) :
    Except Cause Unit :=
  match rest with
  | some place => Arguments.atLeast name place got
  | none => Arguments.exactly name params.length got

/-- What the parameters before the rest parameter are bound to. -/
def fixedBindings (params : List String) (rest : Option Nat) (args : List Value) :
    List (String × Value) :=
  match rest with
  | some place => (params.take place).zip args
  | none => params.zip args

/-- Binds the arguments of a script function in a new scope below its closure: the parameters from
left to right, the remaining arguments as a new array under the rest parameter, and at last the
receiver. -/
def bindArguments (name : String) (params : List String) (rest : Option Nat)
    (closure : Ref .scope) (args : List Value) (this : Option Value) : Action (Ref .scope) := do
  Action.check (checkCount name params rest args.length)
  let scope ← Action.onHeap fun h => h.childScope closure
  Action.modifyHeap fun h => h.defineAll scope (fixedBindings params rest args)
  match rest with
  | some place =>
    match params[place]? with
    | some restName => do
      let remaining ← Action.newArray (args.drop place)
      Action.modifyHeap fun h => h.define scope restName remaining
    | none => pure ()
  | none => pure ()
  match this with
  | some receiver => Action.modifyHeap fun h => h.define scope receiverName receiver
  | none => pure ()
  pure scope

/-- The scope of a call of a native function: the global scope, or a new scope below it that holds
the receiver. -/
def nativeScope (this : Option Value) : Action (Ref .scope) := do
  let m ← get
  match this with
  | none => pure m.globals
  | some receiver => do
    let scope ← Action.onHeap fun h => h.childScope m.globals
    Action.modifyHeap fun h => h.define scope receiverName receiver
    pure scope

/-- The receiver that a native function finds in the scope of its call. -/
def scopeReceiver (scope : Ref .scope) : Action (Option Value) :=
  Action.readHeap fun h => h.lookupLocal scope receiverName

/-! ### Construction -/

/-- A new instance of a class, set up by the constructor if the class has one. A class without a
constructor takes no arguments. -/
def construct (re : Reentry) (cls : Ref .cls) (args : List Value) : Action Value := do
  let r ← Action.onHeap fun h => h.newInstance cls
  let constructor ← Action.readHeap fun h => h.method? cls constructorName
  match constructor with
  | some method => discard (re.invoke method args (some (.inst r)))
  | none => do
    let name ← Action.readHeap fun h => h.className cls
    Action.check (Arguments.exactly name 0 args.length)
  pure (.inst r)

/-- Calls a function, or constructs an instance of a class. -/
def callValue (re : Reentry) (callee : Value) (args : List Value) : Action Value :=
  match callee with
  | .function f => re.invoke f args none
  | .cls cls => construct re cls args
  | other => Action.fail (.notCallable other.typeName)

/-- Calls a function with one list of arguments after another. Those still to come are held. -/
def callEach (re : Reentry) (callee : Ref .function) : List (List Value) → Action Unit
  | [] => pure ()
  | args :: rest => do
    discard ((re.adding (.lists rest)).invoke callee args none)
    callEach re callee rest

/-- Calls a method of a receiver. -/
def callMethod (re : Reentry) (receiver : Value) (name : String) (args : List Value) :
    Action Value := do
  let method ← Action.viewHeap fun h => h.resolve receiver name
  re.invoke method args (some receiver)

end Invocation

end ScriptCore
