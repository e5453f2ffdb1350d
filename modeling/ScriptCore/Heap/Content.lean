import ScriptCore.Heap.Basic
import ScriptCore.Text.Basic

/-!
What a value holds: its key, its display text, its equality with another value, and its image.

All four follow references through arrays and objects (the image also through promises) down to a
given depth. In a heap in which no value reaches itself, no way down passes more cells than there
are, so a depth that is greater than their number never matters.
-/

namespace ScriptCore.Heap

/-- A depth that no way down uses up: one more than there are arrays, objects and promises. -/
def nesting (h : Heap) : Nat := h.arrays.size + h.objects.size + h.promises.size + 1

/-! ### Keys -/

/-- The key of a value down to a depth. -/
def keyWithin (h : Heap) : Nat → Value → Key
  | _, .null => .null
  | _, .boolean b => .boolean b
  | _, .number n => .number n.normalize
  | _, .text s => .text s
  | depth + 1, .array r => .sequence ((h.items r).map (keyWithin h depth))
  | depth + 1, .object r =>
    .record (Key.sortFields ((h.entries r).toList.map fun (name, v) => (name, keyWithin h depth v)))
  | 0, .array r => .reference r.identity
  | 0, .object r => .reference r.identity
  | _, .function r => .reference r.identity
  | _, .cls r => .reference r.identity
  | _, .inst r => .reference r.identity
  | _, .promise r => .reference r.identity

/-- The key of a value in the present heap. -/
def keyOf (h : Heap) (v : Value) : Key := h.keyWithin h.nesting v

/-! ### Equality -/

/-- Equality of values that are not both arrays or both objects: by content for null, booleans,
numbers and strings, by identity for references. -/
def plainEqual : Value → Value → Bool
  | .null, .null => true
  | .number x, .number y => x.numEq y
  | .boolean x, .boolean y => decide (x = y)
  | .text x, .text y => decide (x = y)
  | a, b => a.sameReference b

/-- Equality of values down to a depth. Arrays and objects are equal if they are the same one or
if their contents are equal; for objects the order of the entries does not matter. -/
def equalWithin (h : Heap) : Nat → Value → Value → Bool
  | depth + 1, .array r, .array s =>
    decide (r = s) ||
      (decide ((h.items r).length = (h.items s).length) &&
        ((h.items r).zip (h.items s)).all fun (a, b) => equalWithin h depth a b)
  | depth + 1, .object r, .object s =>
    decide (r = s) ||
      (decide ((h.entries r).size = (h.entries s).size) &&
        (h.entries r).toList.all fun (name, a) =>
          match (h.entries s).get? name with
          | some b => equalWithin h depth a b
          | none => false)
  | _, a, b => plainEqual a b

/-- Whether two values are equal in the present heap. -/
def equal (h : Heap) (a b : Value) : Bool := h.equalWithin h.nesting a b

/-! ### Display text -/

/-- Parts between commas. -/
def commaSeparated (parts : List String) : String := ", ".intercalate parts

/-- The display text of a value down to a depth, over a way of writing numbers. A string is quoted
when it stands inside another value. -/
def displayWithin (h : Heap) (numberText : Binary64 → String) : Nat → Bool → Value → String
  | _, _, .null => "null"
  | _, _, .boolean b => if b then "true" else "false"
  | _, _, .number n => numberText n
  | _, nested, .text s => if nested then Text.quote s else s
  | depth + 1, _, .array r =>
    "[" ++ commaSeparated ((h.items r).map (displayWithin h numberText depth true)) ++ "]"
  | depth + 1, _, .object r =>
    "\x7b" ++ commaSeparated ((h.entries r).toList.map fun (name, v) =>
      name ++ ": " ++ displayWithin h numberText depth true v) ++ "\x7d"
  | 0, _, .array _ => "[]"
  | 0, _, .object _ => "\x7b\x7d"
  | _, _, .function r => "<function " ++ h.functionName r ++ ">"
  | _, _, .cls r => "<class " ++ h.className r ++ ">"
  | _, _, .inst r => "<" ++ h.instanceClassName r ++ " instance>"
  | _, _, .promise r => "<promise " ++ (h.promise r).stateName ++ ">"

/-- The text that shows a value, over a way of writing numbers. -/
def displayBy (h : Heap) (numberText : Binary64 → String) (v : Value) : String :=
  h.displayWithin numberText h.nesting false v

/-- The text that shows a value. -/
def display (h : Heap) (v : Value) : String := h.displayBy Binary64.text v

/-- The cause of a fault that carries a thrown value. -/
def thrown (h : Heap) (v : Value) : Cause := .thrown v (h.display v)

/-! ### Images and literals -/

/-- The image of a value down to a depth. -/
def imageWithin (h : Heap) : Nat → Value → Datum
  | _, .null => .null
  | _, .boolean b => .boolean b
  | _, .number n => .number n
  | _, .text s => .text s
  | depth + 1, .array r => .array ((h.items r).map (imageWithin h depth))
  | depth + 1, .object r =>
    .object ((h.entries r).toList.map fun (name, v) => (name, imageWithin h depth v))
  | depth + 1, .promise r =>
    match h.promise r with
    | .pending => .pending
    | .fulfilled v => .fulfilled (imageWithin h depth v)
    | .rejected v => .rejected (imageWithin h depth v)
  | 0, .array _ => .array []
  | 0, .object _ => .object []
  | 0, .promise _ => .pending
  | _, .function r => .function (h.functionName r) (h.callable r).isNative
  | _, .cls r => .cls (h.className r)
  | _, .inst r => .inst (h.instanceClassName r)

/-- The image of a value in the present heap. -/
def image (h : Heap) (v : Value) : Datum := h.imageWithin h.nesting v

/-- Runs an allocation as a state change. -/
def allocate {α : Type} (step : Heap → α × Heap) : StateM Heap α := fun h => step h

mutual

/-- Builds the value that a literal stands for; every part that is a reference is new. -/
def build : Datum → StateM Heap Value
  | .null => pure .null
  | .boolean b => pure (.boolean b)
  | .number n => pure (.number n)
  | .text s => pure (.text s)
  | .array items => do
    let values ← buildItems items
    allocate fun h => h.newArray values
  | .object entries => do
    let values ← buildEntries entries
    allocate fun h => h.newObject (OrderedIndex.ofList values)
  | .function name native => do
    let r ← if native then allocate fun h => h.newFunction (.native name .inert)
      else do
        let scope ← allocate fun h => let (r, scopes) := h.scopes.alloc {}; (r, { h with scopes })
        allocate fun h => h.newFunction (.script name ["rest"] (some 0) scope [])
    pure (.function r)
  | .cls name => do
    let r ← allocate fun h => h.newClass { name, native := false }
    pure (.cls r)
  | .inst className => do
    let cls ← allocate fun h => h.newClass { name := className, native := false }
    let r ← allocate fun h => h.newInstance cls
    pure (.inst r)
  | .pending => allocate fun h => h.newPromise .pending
  | .fulfilled d => do
    let value ← build d
    allocate fun h => h.newPromise (.fulfilled value)
  | .rejected d => do
    let reason ← build d
    allocate fun h => h.newPromise (.rejected reason)
termination_by structural d => d

/-- Builds the items of an array literal from left to right. -/
def buildItems : List Datum → StateM Heap (List Value)
  | [] => pure []
  | d :: rest => do
    let value ← build d
    let values ← buildItems rest
    pure (value :: values)
termination_by structural ds => ds

/-- Builds the entries of an object literal in order. -/
def buildEntries : List (String × Datum) → StateM Heap (List (String × Value))
  | [] => pure []
  | (name, d) :: rest => do
    let value ← build d
    let entries ← buildEntries rest
    pure ((name, value) :: entries)
termination_by structural ds => ds

end

end ScriptCore.Heap
