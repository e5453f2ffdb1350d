import ScriptCore.Invocation

/-!
What the methods of native classes have in common: giving the receiver its store, working on the
store that it owns, and defining the class itself.
-/

namespace ScriptCore.Native

/-- Gives the receiver of a constructor its resource. -/
def attachToReceiver (label : String) (this : Option Value) (resource : Resource) :
    Action Value := do
  let r ← Action.check (Arguments.receiver label this)
  Action.attach r resource
  pure .null

/-- Reads from the receiver's store of the given type. -/
def readStore {σ α : Type} (type : StoreType σ) (label : String) (this : Option Value)
    (view : σ → α) : Action α := do
  let r ← Action.check (Arguments.receiver label this)
  Action.readStore type label r view

/-- Reads from the receiver's store of the given type, and then changes it. -/
def useStore {σ α : Type} (type : StoreType σ) (label : String) (this : Option Value)
    (view : σ → α) (step : σ → σ) : Action α := do
  let r ← Action.check (Arguments.receiver label this)
  Action.useStore type label r view step

/-- Changes the receiver's store of the given type. -/
def changeStore {σ : Type} (type : StoreType σ) (label : String) (this : Option Value)
    (step : σ → σ) : Action Value :=
  useStore type label this (fun _ => .null) step

/-- The value that a store gave, or null. -/
def orNull (v : Option Value) : Value := v.getD .null

/-- A new native class with the given methods. Each of them is named after the class and the name
it has there. -/
def newClass (name : String) (methods : List (String × NativeAction)) : Action (Ref .cls) := do
  let cls ← Action.onHeap fun h => h.newClass { name, native := true }
  methods.forM fun (method, action) => do
    let f ← Action.newNative (name ++ "." ++ method) action
    Action.modifyHeap fun h => h.setMethod cls method f
  pure cls

end ScriptCore.Native
