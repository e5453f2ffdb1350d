import ScriptCore.Number.Numeral
import ScriptCore.OrderedIndex

/-!
Script values.

Null, booleans, numbers and strings are values by themselves. All other values are references: what
an array holds or how a function runs is kept in the heap, and the value names the cell. Two
references are the same value exactly when they name the same cell of the same kind.
-/

namespace ScriptCore

/-- The kinds of cells that the heap keeps. -/
inductive CellKind where
  | array
  | object
  | function
  | cls
  | inst
  | promise
  | scope
  deriving DecidableEq, Repr, Hashable

/-- Names one cell of the given kind. -/
structure Ref (kind : CellKind) where
  index : Nat
  deriving DecidableEq, Repr

/-- What a reference is, apart from what its cell holds. -/
structure Identity where
  kind : CellKind
  index : Nat
  deriving DecidableEq, Repr, Hashable

def Ref.identity {kind : CellKind} (r : Ref kind) : Identity := ⟨kind, r.index⟩

/-- The values of the script language. -/
inductive Value where
  | null
  | boolean (b : Bool)
  | number (n : Binary64)
  | text (s : String)
  | array (r : Ref .array)
  | object (r : Ref .object)
  | function (r : Ref .function)
  | cls (r : Ref .cls)
  | inst (r : Ref .inst)
  | promise (r : Ref .promise)
  deriving DecidableEq, Repr

instance : Inhabited Value := ⟨.null⟩

/-- Values by name, in the order in which the names were first given. -/
abbrev Table := OrderedIndex String Value

namespace Value

/-- The name of a value's type, as messages and programs see it. -/
def typeName : Value → String
  | null => "null"
  | boolean _ => "boolean"
  | number _ => "number"
  | text _ => "string"
  | array _ => "array"
  | object _ => "object"
  | function _ => "function"
  | cls _ => "class"
  | inst _ => "instance"
  | promise _ => "promise"

/-- The truth value that conditions see: null, false, the zeros, NaN and the empty string are
false. -/
def isTruthy : Value → Bool
  | null => false
  | boolean b => b
  | number n => !n.isZero && !n.isNaN
  | text s => !s.isEmpty
  | _ => true

/-- What distinguishes a reference from every other one. -/
def identity : Value → Option Identity
  | null | boolean _ | number _ | text _ => none
  | array r => some r.identity
  | object r => some r.identity
  | function r => some r.identity
  | cls r => some r.identity
  | inst r => some r.identity
  | promise r => some r.identity

/-- Both values are references, and to the same cell. -/
def sameReference (a b : Value) : Bool :=
  match a.identity, b.identity with
  | some i, some j => decide (i = j)
  | _, _ => false

/-- A size or an index as a number. -/
def ofNat (n : Nat) : Value := .number (Binary64.ofNat n)

end Value

end ScriptCore
