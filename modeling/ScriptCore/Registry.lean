import ScriptCore.Heap.Retention

/-!
The registry of packages.

A package has a table of bindings and a state. Its initialiser is started by the first request for
it, which takes the table out of the registry and gives it to the initialiser; meanwhile further
requests are refused and symbols registered directly gather in a new table. When the initialiser
succeeds, those symbols are set over the table that it filled. When it fails, the package keeps the
fault.
-/

namespace ScriptCore

/-- The packages that come with every registry, the prelude apart. -/
inductive BuiltinPackage where
  | collections
  | events
  | signals
  | array
  deriving DecidableEq, Repr

namespace BuiltinPackage

/-- The built-in packages in the order in which the prelude takes their bindings. -/
def all : List BuiltinPackage := [collections, events, signals, array]

def name : BuiltinPackage → String
  | collections => "collections"
  | events => "events"
  | signals => "signals"
  | array => "array"

end BuiltinPackage

/-- What fills the table of a package. -/
inductive Initializer where
  | builtin (package : BuiltinPackage)
  /-- Gathers the bindings of all built-in packages. -/
  | prelude
  /-- Evaluates a body below the given scope. -/
  | body (scope : Ref .scope) (body : List Expr)
  deriving Repr

/-- How far the initialisation of a package has come. -/
inductive PackageState where
  | unstarted (initializer : Initializer)
  | initializing
  | ready
  | failed (fault : Fault)
  deriving Repr

/-- A package that the registry knows. -/
structure Package where
  bindings : Table := .empty
  state : PackageState := .ready
  deriving Repr

/-- The packages by name. -/
structure Registry where
  packages : OrderedIndex String Package := .empty
  deriving Repr

/-- What a request for a package leads to. -/
inductive Request where
  | refused (fault : Fault)
  | ready (bindings : Table)
  /-- The initialiser has to run on this table. -/
  | start (initializer : Initializer) (bindings : Table)

/-- The cells that an initialiser refers to. -/
def Initializer.referents : Initializer → List Identity
  | body scope _ => [scope.identity]
  | _ => []

/-- The cells that a state refers to: those of an initialiser still to run, or a thrown value. -/
def PackageState.referents : PackageState → List Identity
  | unstarted initializer => initializer.referents
  | failed fault => Value.referents fault.cause.thrown?.toList
  | _ => []

/-- The cells that a package refers to. -/
def Package.referents (package : Package) : List Identity :=
  Table.referents package.bindings ++ package.state.referents

namespace Registry

/-- The cells that the registry refers to. -/
def referents (registry : Registry) : List Identity :=
  registry.packages.values.flatMap Package.referents

/-- The name of the package whose bindings every program can use. -/
def preludeName : String := "prelude"

def package? (registry : Registry) (name : String) : Option Package := registry.packages.get? name

def isRegistered (registry : Registry) (name : String) : Bool := registry.packages.contains name

def setPackage (registry : Registry) (name : String) (package : Package) : Registry :=
  ⟨registry.packages.set name package⟩

/-- Sets the initialiser of a package. Bindings that it has stay. -/
def register (registry : Registry) (name : String) (initializer : Initializer) : Registry :=
  let package := (registry.package? name).getD {}
  registry.setPackage name { package with state := .unstarted initializer }

/-- Binds a name in a package's table. An unknown package becomes one that is ready. -/
def registerSymbol (registry : Registry) (package name : String) (value : Value) : Registry :=
  let content := (registry.package? package).getD {}
  registry.setPackage package { content with bindings := content.bindings.set name value }

/-- The registry in which every built-in package and the prelude are still to be initialised. -/
def builtin : Registry :=
  let packages : Registry := BuiltinPackage.all.foldl
    (fun registry package => registry.register package.name (.builtin package)) {}
  packages.register preludeName .prelude

/-- Answers a request. If an initialiser has to run, the package gives its table away and counts as
initialising. -/
def request (registry : Registry) (name : String) : Request × Registry :=
  match registry.package? name with
  | none => (.refused { cause := .packageNotFound name }, registry)
  | some package =>
    match package.state with
    | .unstarted initializer =>
      (.start initializer package.bindings,
        registry.setPackage name { bindings := .empty, state := .initializing })
    | .initializing => (.refused { cause := .packageInitializing name }, registry)
    | .ready => (.ready package.bindings, registry)
    | .failed fault => (.refused fault, registry)

/-- Ends an initialisation that filled the given table. Symbols registered meanwhile are set over
it, and the result is what the package binds from now on. -/
def complete (registry : Registry) (name : String) (bindings : Table) : Table × Registry :=
  let meanwhile := ((registry.package? name).getD {}).bindings
  let bindings := bindings.insertAll meanwhile.toList
  (bindings, registry.setPackage name { bindings, state := .ready })

/-- Ends an initialisation that failed. -/
def abandon (registry : Registry) (name : String) (fault : Fault) : Registry :=
  let package := (registry.package? name).getD {}
  registry.setPackage name { package with state := .failed fault }

end Registry

end ScriptCore
