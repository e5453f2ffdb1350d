import ScriptCore.Native.Arrays
import ScriptCore.Native.Events
import ScriptCore.Native.Maps
import ScriptCore.Native.Queues
import ScriptCore.Native.Sequences
import ScriptCore.Native.Sets
import ScriptCore.Native.SignalFunctions

/-!
What the built-in packages bind, and how a package is requested.
-/

namespace ScriptCore.Packages

/-- Binds a class under its name and a function that constructs its instances under another. -/
def bindClass (table : Table) (cls : Ref .cls) (functionName : String) : Action Table := do
  let className ← Action.readHeap fun h => h.className cls
  let f ← Action.newNative functionName (.constructs cls)
  pure ((table.set className (.cls cls)).set functionName (.function f))

/-- Binds a new native function under its own name. -/
def bindNative (table : Table) (name : String) (action : NativeAction) : Action Table := do
  let f ← Action.newNative name action
  pure (table.set name (.function f))

/-- Binds new native functions one after another. -/
def bindNatives (table : Table) (functions : List (String × NativeAction)) : Action Table :=
  functions.foldlM (fun table (name, action) => bindNative table name action) table

/-- Adds the bindings of a built-in package to a table. All functions and classes are new. -/
def fill (package : BuiltinPackage) (table : Table) : Action Table := do
  match package with
  | .collections =>
    let mapClass ← newMapClass
    let setClass ← newSetClass
    let stackClass ← newStackClass
    let dequeClass ← newDequeClass
    let queueClass ← newQueueClass
    let table ← bindClass table mapClass "map"
    let table ← bindClass table setClass "set"
    let table ← bindClass table stackClass "stack"
    let table ← bindClass table dequeClass "deque"
    let table ← bindClass table queueClass "priorityQueue"
    bindNative table "keysSorted" .keysSorted
  | .events =>
    let busClass ← newBusClass
    let table ← bindClass table busClass "eventBus"
    bindNative table "connect" .connect
  | .signals =>
    bindNatives table (SignalFunction.all.map fun function => (function.name, .signal function))
  | .array =>
    bindNatives table (ArrayFunction.all.map fun function => (function.name, .array function))

/-- Adds the bindings whose names the table does not have. -/
def addMissing (table : Table) (bindings : List (String × Value)) : Table :=
  bindings.foldl
    (fun table binding =>
      if table.contains binding.1 then table else table.set binding.1 binding.2)
    table

/-- Adds what the built-in packages bind, in the order in which they are listed. The first package
that binds a name wins, and what the table has already stays. The table is held meanwhile. -/
def fillPrelude (re : Reentry) (table : Table) : Action Table :=
  BuiltinPackage.all.foldlM
    (fun table package => do
      let bindings ← (re.holding table.values).ensure package.name
      pure (addMissing table bindings.toList))
    table

/-- Ends the initialisation of a package: on success the package binds the table and what was
registered meanwhile, on a fault it keeps the fault. -/
def finish (name : String) (filling : Action Table) : Action Table := fun m =>
  match filling m with
  | (.ok table, m) =>
    let (bindings, registry) := m.registry.complete name table
    (.ok bindings, { m with registry, journal := .initializerEnded name (.ok table) :: m.journal })
  | (.error (.fault fault), m) =>
    (.error (.fault fault),
      { m with registry := m.registry.abandon name fault
               journal := .initializerEnded name (.error fault) :: m.journal })
  | (.error .exhausted, m) => (.error .exhausted, m)

/-- The bindings of a package, by its initialiser if it has not been requested before. -/
def ensure (runInitializer : Initializer → Table → Action Table) (name : String) :
    Action Table := do
  let m ← get
  let (request, registry) := m.registry.request name
  set { m with registry }
  match request with
  | .refused fault => throw (.fault fault)
  | .ready bindings => pure bindings
  | .start initializer bindings => do
    Action.journal (.initializerStarted name initializer)
    finish name (runInitializer initializer bindings)

/-- The bindings of a package as a new object. -/
def importPackage (re : Reentry) (name : String) : Action Value := do
  let bindings ← re.ensure name
  Action.newObject bindings

/-- Sets the initialiser of a package. -/
def register (name : String) (initializer : Initializer) : Action Unit :=
  modify fun m =>
    { m with registry := m.registry.register name initializer
             journal := .packageRegistered name initializer :: m.journal }

/-- Binds a name in the table of a package. -/
def registerSymbol (package name : String) (value : Value) : Action Unit :=
  modify fun m =>
    { m with registry := m.registry.registerSymbol package name value
             journal := .symbolRegistered package name value :: m.journal }

end ScriptCore.Packages
