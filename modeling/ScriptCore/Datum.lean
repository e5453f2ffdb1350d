import ScriptCore.Value

/-!
Data as trees, without a heap: the literals of programs and the images of values.

A datum shows what a value holds at one moment. Functions, classes and instances are shown by
their names only, so an image tells nothing about identity.
-/

namespace ScriptCore

/-- The outcome slot of a promise, over whatever stands for the value in it. -/
inductive Settlement (α : Type) where
  | pending
  | fulfilled (value : α)
  | rejected (reason : α)
  deriving DecidableEq, Repr

namespace Settlement

variable {α : Type}

/-- The name of the state. -/
def stateName : Settlement α → String
  | pending => "pending"
  | fulfilled _ => "fulfilled"
  | rejected _ => "rejected"

def isPending : Settlement α → Bool
  | pending => true
  | _ => false

/-- The value or the reason of a settled promise. -/
def value? : Settlement α → Option α
  | pending => none
  | fulfilled v | rejected v => some v

end Settlement

/-- A literal, or the image of a value. -/
inductive Datum where
  | null
  | boolean (b : Bool)
  | number (n : Binary64)
  | text (s : String)
  | array (items : List Datum)
  | object (entries : List (String × Datum))
  /-- A function of the given name; a literal one takes any arguments and gives null. -/
  | function (name : String) (native : Bool)
  /-- A class of the given name; a literal one is a script class without methods. -/
  | cls (name : String)
  /-- An instance of a class of the given name; a literal one has no fields. -/
  | inst (className : String)
  | pending
  | fulfilled (value : Datum)
  | rejected (reason : Datum)
  deriving Repr

instance : Inhabited Datum := ⟨.null⟩

end ScriptCore
