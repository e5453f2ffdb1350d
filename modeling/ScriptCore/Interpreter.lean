import ScriptCore.Evaluation

/-!
The interpreter: calls of functions, initialisers of packages, and runs of whole programs.

The ways back into the interpreter are tied here. Each call of a function and each request for a
package uses up one of a given number of nested steps; a run that needs more of them ends as
exhausted, which says nothing about the script.
-/

namespace ScriptCore.Interpreter

/-! ### Calls -/

/-- The scope of a native function's own body: below the scope of the call, with the arguments as
an array and the receiver or null. -/
def nativeBodyScope (scope : Ref .scope) (args : List Value) : Action (Ref .scope) := do
  let receiver ← Invocation.scopeReceiver scope
  let child ← Action.onHeap fun h => h.childScope scope
  let argsArray ← Action.newArray args
  Action.modifyHeap fun h =>
    h.defineAll child [("args", argsArray), ("self", receiver.getD .null)]
  pure child

/-- Does what a native function does, in the scope of its call. -/
def performNative (re : Reentry) (action : NativeAction) (scope : Ref .scope)
    (args : List Value) : Action Value := do
  let this ← Invocation.scopeReceiver scope
  match action with
  | .inert => pure .null
  | .body body => do
    let child ← nativeBodyScope scope args
    (evaluateBody (re.within child) body child).result
  | .constructs cls => Invocation.construct re cls args
  | .bound method receiver => re.invoke method args (some receiver)
  | .map method => method.call re this args
  | .set method => method.call re this args
  | .setAlgebra operation cls => operation.call re cls this args
  | .stack method => method.call this args
  | .deque method => method.call this args
  | .queue method => method.call this args
  | .bus method => method.call re this args
  | .keysSorted => Native.keysSorted re args
  | .connect => Connection.connect args
  | .array function => function.call re args
  | .signal function => function.call args

/-- Does what the body of a script function does, in the scope of its call. It gives null unless it
ends early with a result. -/
def performBody (re : Reentry) (body : List Expr) (scope : Ref .scope) : Action Value :=
  Execution.result do
    discard (evaluateBody (re.within scope) body scope)
    pure .null

/-- Does what a function does once it has been read: a native one its action, a script one its body
below its closure. -/
def performCallable (re : Reentry) (args : List Value) (this : Option Value) :
    Callable → Action Value
  | .native _ action => do
    let scope ← Invocation.nativeScope this
    performNative re action scope args
  | .script name params rest closure body => do
    let scope ← Invocation.bindArguments name params rest closure args this
    performBody re body scope

/-- Does what a function does. -/
def perform (re : Reentry) (callee : Ref .function) (args : List Value) (this : Option Value) :
    Action Value := do
  let callable ← Action.readHeap fun h => h.callable callee
  performCallable re args this callable

/-! ### Initialisers -/

/-- Fills the table of a package. A body sees the table as an object and adds the entries of the
object that it gives; a value that is no object adds nothing. -/
def runInitializer (re : Reentry) (initializer : Initializer) (table : Table) : Action Table :=
  match initializer with
  | .builtin package => Packages.fill package table
  | .prelude => Packages.fillPrelude re table
  | .body scope body => do
    let child ← Action.onHeap fun h => h.childScope scope
    let bindings ← Action.newObject table
    Action.modifyHeap fun h => h.define child "bindings" bindings
    let v ← (evaluateBody ((re.holding table.values).within child) body child).result
    match v with
    | .object r => Action.readHeap fun h => table.insertAll (h.entries r).toList
    | _ => pure table

/-! ### The knot -/

mutual

/-- Calls a function within a number of nested steps. The call holds the function, its arguments
and the receiver. -/
def invoke : Nat → List Hold → Ref .function → List Value → Option Value → Action Value
  | 0, _, _, _, _ => throw .exhausted
  | steps + 1, holds, callee, args, this =>
    let re : Reentry :=
      ⟨.values (.function callee :: this.toList ++ args) :: holds, invoke steps, ensure steps⟩
    Invocation.call re callee (perform re callee args this)
termination_by structural steps => steps

/-- Requests the bindings of a package within a number of nested steps. -/
def ensure : Nat → List Hold → String → Action Table
  | 0, _, _ => throw .exhausted
  | steps + 1, holds, name =>
    Packages.ensure (runInitializer ⟨holds, invoke steps, ensure steps⟩) name
termination_by structural steps => steps

end

/-- The ways back into the interpreter within a number of nested steps, from where no evaluation is
under way. -/
def reentry (steps : Nat) : Reentry := ⟨[], invoke steps, ensure steps⟩

/-- The number of nested steps that programs run with. -/
def nestingBound : Nat := 1000000

/-! ### Runs -/

/-- What an interpreter starts from: its settings, the bindings of its global scope, and whether
the prelude is defined over them. -/
structure Setup where
  config : Config := {}
  globals : List (String × Datum) := []
  withPrelude : Bool := true

/-- The machine before anything is defined: one scope, the global one, and no package
initialised. -/
def blank (config : Config) : Machine :=
  let (globals, heap) := ({} : Heap).newScope
  { heap, globals, calls := { limit := config.maxCallDepth }, polling := config.signalPolling }

/-- Defines the bindings of the global scope in order. -/
def defineGlobals (bindings : List (String × Datum)) : Action Unit :=
  bindings.forM fun (name, d) => do
    let v ← Action.onHeap fun h => Heap.build d h
    modify fun m => { m with heap := m.heap.define m.globals name v }

/-- Defines what the prelude binds in the global scope. -/
def installPrelude (re : Reentry) : Action Unit := do
  let bindings ← re.ensure Registry.preludeName
  modify fun m => { m with heap := m.heap.defineAll m.globals bindings.toList }

/-- Builds the machine of an interpreter. -/
def start (setup : Setup) : Except Failure Unit × Machine :=
  let build : Action Unit := do
    defineGlobals setup.globals
    if setup.withPrelude then installPrelude (reentry nestingBound) else pure ()
  build.on (blank setup.config)

/-- Runs an expression as a program of its own, whose result is the value of the expression. -/
def runExpression (m : Machine) (e : Expr) : Except Failure Value × Machine :=
  (runProgram (reentry nestingBound) (evaluate (reentry nestingBound) e)).on m

/-- What the program recorded since the output was last taken, in order, and the machine with its
output taken. -/
def takeOutput (m : Machine) : List Datum × Machine :=
  (m.output.reverse, { m with output := [] })

end ScriptCore.Interpreter
