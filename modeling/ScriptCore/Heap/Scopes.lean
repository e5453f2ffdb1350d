import ScriptCore.Heap.Basic
import ScriptCore.Text.Basic

/-!
Lexical scopes.

A scope is created at the root or below another one, and names are looked up along the way to the
root. Defining a name writes to one scope; assigning writes to the nearest scope that binds the
name and never creates a binding.
-/

namespace ScriptCore.Heap

/-- A scope without a parent. -/
def newScope (h : Heap) : Ref .scope × Heap :=
  let (r, scopes) := h.scopes.alloc {}
  (r, { h with scopes })

/-- A new scope below the given one. -/
def childScope (h : Heap) (parent : Ref .scope) : Ref .scope × Heap :=
  let (r, scopes) := h.scopes.alloc { parent := some parent }
  (r, { h with scopes })

def parentScope? (h : Heap) (s : Ref .scope) : Option (Ref .scope) := (h.scope s).parent

/-- The scopes from one up towards the root, at most as many as told. -/
def ancestry (h : Heap) : Nat → Ref .scope → List (Ref .scope)
  | 0, _ => []
  | steps + 1, s =>
    s :: match h.parentScope? s with
      | some parent => ancestry h steps parent
      | none => []

/-- The scopes from one up to the root. A parent is older than its children, so the way to the root
has at most as many scopes as there were when the scope was created. -/
def chain (h : Heap) (s : Ref .scope) : List (Ref .scope) := h.ancestry (s.index + 1) s

/-- The number of scopes from one up to the root, both counted. -/
def scopeDepth (h : Heap) (s : Ref .scope) : Nat := (h.chain s).length

def lookupLocal (h : Heap) (s : Ref .scope) (name : String) : Option Value :=
  (h.scope s).bindings.get? name

/-- Whether the scope itself binds the name. -/
def bindsLocal (h : Heap) (s : Ref .scope) (name : String) : Bool :=
  (h.scope s).bindings.contains name

/-- The nearest scope that binds the name. -/
def binder? (h : Heap) (s : Ref .scope) (name : String) : Option (Ref .scope) :=
  (h.chain s).find? fun scope => h.bindsLocal scope name

/-- The value of the name in the nearest scope that binds it. -/
def lookup (h : Heap) (s : Ref .scope) (name : String) : Option Value :=
  (h.chain s).findSome? fun scope => h.lookupLocal scope name

/-- The value of a name, which has to be bound. -/
def readName (h : Heap) (s : Ref .scope) (name : String) : Except Cause Value :=
  match h.lookup s name with
  | some v => .ok v
  | none => .error (.undefinedVariable name)

/-- Binds a name in the scope itself. -/
def define (h : Heap) (s : Ref .scope) (name : String) (value : Value) : Heap :=
  { h with scopes := h.scopes.modify s fun { bindings, parent } =>
      { bindings := bindings.set name value, parent } }

/-- Binds names in the scope itself, one after another. -/
def defineAll (h : Heap) (s : Ref .scope) (bindings : List (String × Value)) : Heap :=
  bindings.foldl (fun h binding => h.define s binding.1 binding.2) h

/-- The nearest scope that binds the name, which has to be bound. -/
def binder (h : Heap) (s : Ref .scope) (name : String) : Except Cause (Ref .scope) :=
  match h.binder? s name with
  | some scope => .ok scope
  | none => .error (.undefinedVariable name)

/-- Writes to the nearest scope that binds the name. -/
def assign (h : Heap) (s : Ref .scope) (name : String) (value : Value) : Except Cause Heap := do
  let scope ← h.binder s name
  pure (h.define scope name value)

/-- The names that the scope itself binds, in alphabetical order. -/
def localNames (h : Heap) (s : Ref .scope) : List String :=
  Text.sorted (h.scope s).bindings.keys

end ScriptCore.Heap
