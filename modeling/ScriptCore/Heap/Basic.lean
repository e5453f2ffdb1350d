import ScriptCore.Store.Resource

/-!
The heap: what references name.

Cells are only ever added, so a reference stays valid once it exists and a new one differs from
all before it. There is one row of cells for each kind.
-/

namespace ScriptCore

/-- A row of cells of one kind, in the order in which they were added. -/
structure Cells (kind : CellKind) (α : Type) where
  contents : Array α := #[]
  deriving Repr

namespace Cells

variable {kind : CellKind} {α : Type}

instance : Inhabited (Cells kind α) := ⟨{}⟩

/-- Adds a cell and gives its reference. -/
def alloc (cells : Cells kind α) (content : α) : Ref kind × Cells kind α :=
  (⟨cells.contents.size⟩, ⟨cells.contents.push content⟩)

def get? (cells : Cells kind α) (r : Ref kind) : Option α := cells.contents[r.index]?

/-- Changes the content of a cell. -/
def modify (cells : Cells kind α) (r : Ref kind) (step : α → α) : Cells kind α :=
  ⟨cells.contents.modify r.index step⟩

def size (cells : Cells kind α) : Nat := cells.contents.size

end Cells

/-- A class: its name, its methods by name, and whether its instances own a native resource. -/
structure ClassInfo where
  name : String
  native : Bool
  methods : OrderedIndex String (Ref .function) := .empty
  deriving Repr

instance : Inhabited ClassInfo := ⟨⟨"", false, .empty⟩⟩

/-- An instance: its class, its fields and the resource it owns, if any. -/
structure Instance where
  cls : Ref .cls
  fields : Table := .empty
  resource : Option Resource := none
  deriving Repr

instance : Inhabited Instance := ⟨{ cls := ⟨0⟩ }⟩

/-- The content of a promise. -/
abbrev Promise := Settlement Value

/-- One scope: its own bindings and the scope around it. -/
structure Scope where
  bindings : Table := .empty
  parent : Option (Ref .scope) := none
  deriving Repr

instance : Inhabited Scope := ⟨{}⟩

/-- The cells of all kinds. -/
structure Heap where
  arrays : Cells .array (Array Value) := {}
  objects : Cells .object Table := {}
  functions : Cells .function Callable := {}
  classes : Cells .cls ClassInfo := {}
  instances : Cells .inst Instance := {}
  promises : Cells .promise Promise := {}
  scopes : Cells .scope Scope := {}
  deriving Repr

namespace Heap

instance : Inhabited Heap := ⟨{}⟩

/-! ### Reading

A reference that names no cell reads as an empty cell; operations never meet one, since every
reference they see was given out by an allocation. -/

def elements (h : Heap) (r : Ref .array) : Array Value := (h.arrays.get? r).getD #[]

/-- The elements of an array as a list. -/
def items (h : Heap) (r : Ref .array) : List Value := (h.elements r).toList

def entries (h : Heap) (r : Ref .object) : Table := (h.objects.get? r).getD .empty

def callable (h : Heap) (r : Ref .function) : Callable := (h.functions.get? r).getD default

def classInfo (h : Heap) (r : Ref .cls) : ClassInfo := (h.classes.get? r).getD default

def inst (h : Heap) (r : Ref .inst) : Instance := (h.instances.get? r).getD default

def promise (h : Heap) (r : Ref .promise) : Promise := (h.promises.get? r).getD .pending

def scope (h : Heap) (r : Ref .scope) : Scope := (h.scopes.get? r).getD default

def functionName (h : Heap) (r : Ref .function) : String := (h.callable r).name

def className (h : Heap) (r : Ref .cls) : String := (h.classInfo r).name

/-- The name of the class of an instance. -/
def instanceClassName (h : Heap) (r : Ref .inst) : String := h.className (h.inst r).cls

/-! ### Adding cells -/

def newArray (h : Heap) (items : List Value) : Value × Heap :=
  let (r, arrays) := h.arrays.alloc items.toArray
  (.array r, { h with arrays })

def newObject (h : Heap) (entries : Table) : Value × Heap :=
  let (r, objects) := h.objects.alloc entries
  (.object r, { h with objects })

def newFunction (h : Heap) (callable : Callable) : Ref .function × Heap :=
  let (r, functions) := h.functions.alloc callable
  (r, { h with functions })

def newClass (h : Heap) (info : ClassInfo) : Ref .cls × Heap :=
  let (r, classes) := h.classes.alloc info
  (r, { h with classes })

/-- A bare instance of a class: no fields, no resource, no constructor run. -/
def newInstance (h : Heap) (cls : Ref .cls) : Ref .inst × Heap :=
  let (r, instances) := h.instances.alloc { cls }
  (r, { h with instances })

def newPromise (h : Heap) (state : Promise) : Value × Heap :=
  let (r, promises) := h.promises.alloc state
  (.promise r, { h with promises })

/-! ### Writing -/

/-- Adds values at the end of an array. -/
def append (h : Heap) (r : Ref .array) (values : List Value) : Heap :=
  { h with arrays := h.arrays.modify r fun elements => elements ++ values }

/-- Changes the entries of an object. -/
def modifyEntries (h : Heap) (r : Ref .object) (step : Table → Table) : Heap :=
  { h with objects := h.objects.modify r step }

/-- Defines a method of a class, in the stead of any earlier one of that name. -/
def setMethod (h : Heap) (r : Ref .cls) (name : String) (method : Ref .function) : Heap :=
  { h with classes := h.classes.modify r fun { name := className, native, methods } =>
      { name := className, native, methods := methods.set name method } }

/-- Sets a field of an instance. -/
def setField (h : Heap) (r : Ref .inst) (name : String) (value : Value) : Heap :=
  { h with instances := h.instances.modify r fun { cls, fields, resource } =>
      { cls, fields := fields.set name value, resource } }

/-- Sets the resource of an instance. -/
def setResource (h : Heap) (r : Ref .inst) (resource : Resource) : Heap :=
  { h with instances := h.instances.modify r fun content =>
      { content with resource := some resource } }

/-- Sets the outcome of a promise. -/
def setOutcome (h : Heap) (r : Ref .promise) (outcome : Promise) : Heap :=
  { h with promises := h.promises.modify r fun _ => outcome }

/-- Changes the store of the given type that an instance owns. -/
def changeStore {σ : Type} (h : Heap) (type : StoreType σ) (r : Ref .inst) (step : σ → σ) : Heap :=
  { h with instances := h.instances.modify r fun { cls, fields, resource } =>
      { cls, fields, resource := resource.map (type.change step) } }

/-! ### Classes, instances and promises -/

/-- The method of a class, if it has one of that name. -/
def method? (h : Heap) (cls : Ref .cls) (name : String) : Option (Ref .function) :=
  (h.classInfo cls).methods.get? name

/-- Fails if an instance owns a resource. -/
def checkUnowned (h : Heap) (r : Ref .inst) : Except Cause Unit :=
  match (h.inst r).resource with
  | some _ => .error (.alreadyOwns (h.instanceClassName r))
  | none => .ok ()

/-- The store of the given type that an instance owns. -/
def store? {σ : Type} (h : Heap) (type : StoreType σ) (r : Ref .inst) : Option σ :=
  (h.inst r).resource.bind type.project

/-- The store of the given type, or the failure of an operation that needs one. -/
def store {σ : Type} (h : Heap) (type : StoreType σ) (operation : String) (r : Ref .inst) :
    Except Cause σ :=
  match h.store? type r with
  | some store => .ok store
  | none => .error (.typeMismatch operation type.kind.typeName (h.instanceClassName r))

/-- Fails if a promise is no longer pending. -/
def checkPending (h : Heap) (r : Ref .promise) : Except Cause Unit :=
  let state := h.promise r
  if state.isPending then .ok () else .error (.alreadySettled state.stateName)

/-- Looks up a method without calling it: for an instance a callable field first, then the class;
for an object a callable entry. -/
def resolve (h : Heap) (receiver : Value) (name : String) : Except Cause (Ref .function) :=
  match receiver with
  | .inst r =>
    let content := h.inst r
    match content.fields.get? name with
    | some (.function field) => .ok field
    | _ =>
      match h.method? content.cls name with
      | some method => .ok method
      | none => .error (.undefinedMethod name (h.className content.cls))
  | .object r =>
    match (h.entries r).get? name with
    | some (.function entry) => .ok entry
    | _ => .error (.undefinedMethod name "object")
  | other => .error (.undefinedMethod name other.typeName)

end Heap

end ScriptCore
