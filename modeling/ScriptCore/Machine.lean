import ScriptCore.CallStack
import ScriptCore.Config
import ScriptCore.Heap.Content
import ScriptCore.Heap.Scopes
import ScriptCore.Registry
import ScriptCore.Signals

/-!
The state of a run, and computations on it.

A machine is everything that a script operation can read or change. A computation takes a machine
to a result and a machine, on failure as on success. An action fails with a fault of the script or
because the bound on nested calls is used up; the execution of a body can also end early with the
result of the enclosing function.

The journal of a machine records what a run did, most recent first. No operation reads it; it is
there so that statements about when things happen can be made.
-/

namespace ScriptCore

/-- What a run did. -/
inductive Event where
  /-- A call was entered; the depth counts it. -/
  | entered (callee : Ref .function) (depth : Nat)
  /-- A call was left; the depth counted it. -/
  | left (callee : Ref .function) (depth : Nat)
  /-- A call was refused because so many were active. -/
  | refused (callee : Ref .function) (depth : Nat)
  | raised (signal : OsSignal)
  | dispatchBegan
  /-- Dispatch cleared the mark of a signal that had this handler, or none. -/
  | taken (signal : OsSignal) (handler : Option (Ref .function))
  | dispatchEnded
  | packageRegistered (name : String) (initializer : Initializer)
  | symbolRegistered (package name : String) (value : Value)
  | initializerStarted (package : String) (initializer : Initializer)
  /-- An initialiser ended with the table that it filled, or with a fault. -/
  | initializerEnded (package : String) (outcome : Except Fault Table)
  deriving Repr

/-- The state of a run. -/
structure Machine where
  heap : Heap := {}
  globals : Ref .scope := ⟨0⟩
  calls : CallStack := {}
  polling : Bool := true
  /-- Set while signal handlers run, so that a safe point inside them dispatches nothing. -/
  dispatching : Bool := false
  registry : Registry := .builtin
  signals : SignalTable := {}
  /-- The images of the values that the program recorded, most recent first. -/
  output : List Datum := []
  journal : List Event := []
  deriving Repr

/-- The settings that the machine runs under. -/
def Machine.config (m : Machine) : Config := ⟨m.calls.limit, m.polling⟩

/-- The cells that the machine refers to whatever is being evaluated. -/
def Machine.referents (m : Machine) : List Identity :=
  m.globals.identity :: m.registry.referents ++ m.signals.referents

/-- Why an action did not finish with a value. -/
inductive Failure where
  | fault (fault : Fault)
  /-- The bound on nested calls was used up; no statement about the script follows. -/
  | exhausted
  deriving DecidableEq, Repr

/-- Why the execution of a body did not run to its end. -/
inductive Interruption where
  /-- The enclosing function or program ends with this result. -/
  | returned (result : Value)
  | failed (failure : Failure)
  deriving DecidableEq, Repr

/-- Computations that keep the machine when they fail. -/
abbrev Run (ε α : Type) := ExceptT ε (StateM Machine) α

/-- Computations that give a value or fail. -/
abbrev Action (α : Type) := Run Failure α

/-- The execution of a body, or of a part of one. -/
abbrev Execution (α : Type) := Run Interruption α

/-- Runs a computation from a machine. -/
def Run.on {ε α : Type} (run : Run ε α) (m : Machine) : Except ε α × Machine := run m

namespace Action

variable {α : Type}

/-- Fails with a cause, as yet without a trace. -/
def fail (cause : Cause) : Action α := throw (.fault { cause })

/-- The value of a check, or the failure with its cause. -/
def check (result : Except Cause α) : Action α :=
  match result with
  | .ok a => pure a
  | .error cause => fail cause

/-- Changes the heap and gives a value. -/
def onHeap (step : Heap → α × Heap) : Action α := do
  let m ← get
  let (a, heap) := step m.heap
  set { m with heap }
  pure a

/-- Changes the heap. -/
def modifyHeap (step : Heap → Heap) : Action Unit := modify fun m => { m with heap := step m.heap }

/-- Reads from the heap. -/
def readHeap (view : Heap → α) : Action α := do pure (view (← get).heap)

/-- Reads from the heap by a view that can fail. -/
def viewHeap (view : Heap → Except Cause α) : Action α := do check (view (← get).heap)

/-- Adds an event to the journal. -/
def journal (event : Event) : Action Unit :=
  modify fun m => { m with journal := event :: m.journal }

/-- A new array value. -/
def newArray (items : List Value) : Action Value := onHeap fun h => h.newArray items

/-- A new object value. -/
def newObject (entries : Table) : Action Value := onHeap fun h => h.newObject entries

/-- A new native function. -/
def newNative (name : String) (action : NativeAction) : Action (Ref .function) :=
  onHeap fun h => h.newFunction (.native name action)

/-- Writes to the nearest scope that binds the name. -/
def assign (s : Ref .scope) (name : String) (value : Value) : Action Unit := do
  let scope ← viewHeap fun h => h.binder s name
  modifyHeap fun h => h.define scope name value

/-- Gives an instance its resource. An instance that owns one keeps it. -/
def attach (r : Ref .inst) (resource : Resource) : Action Unit := do
  viewHeap fun h => h.checkUnowned r
  modifyHeap fun h => h.setResource r resource

/-- Settles a promise that is still pending. -/
def settle (r : Ref .promise) (outcome : Promise) : Action Unit := do
  viewHeap fun h => h.checkPending r
  modifyHeap fun h => h.setOutcome r outcome

/-- Reads from the store of the given type that an instance owns. -/
def readStore {σ : Type} (type : StoreType σ) (operation : String) (r : Ref .inst)
    (view : σ → α) : Action α := do
  let store ← viewHeap fun h => h.store type operation r
  pure (view store)

/-- Reads from the store of the given type that an instance owns, and then changes it. -/
def useStore {σ : Type} (type : StoreType σ) (operation : String) (r : Ref .inst)
    (view : σ → α) (step : σ → σ) : Action α := do
  let a ← readStore type operation r view
  modifyHeap fun h => h.changeStore type r step
  pure a

/-- Runs an action and then a change of the machine, whether the action failed or not. -/
def ending (action : Action α) (after : Machine → Machine) : Action α := fun m =>
  let (result, m) := action m
  (result, after m)

/-- An action as part of the execution of a body. -/
def exec (action : Action α) : Execution α := ExceptT.adapt .failed action

end Action

/-- The end of a body: an early result is the result of the whole. -/
def Execution.result (execution : Execution Value) : Action Value := fun m =>
  match execution m with
  | (.ok v, m) => (.ok v, m)
  | (.error (.returned v), m) => (.ok v, m)
  | (.error (.failed failure), m) => (.error failure, m)

end ScriptCore
