import ScriptCore.Machine

/-!
Descriptions of functions, classes, instances, faults and the interpreter itself, as the values and
texts that programs see when they ask for them.
-/

namespace ScriptCore.Describe

/-- Strings between brackets, each of them quoted. -/
def quotedList (strings : List String) : String :=
  "[" ++ Heap.commaSeparated (strings.map Text.quote) ++ "]"

def booleanText (b : Bool) : String := if b then "true" else "false"

/-- An optional number in words. -/
def optionText (n : Option Nat) : String :=
  match n with
  | some n => "Some(" ++ toString n ++ ")"
  | none => "None"

/-- A name and its fields between braces; an open record has more fields than it shows. -/
def record (name : String) (fields : List (String × String)) (isOpen : Bool) : String :=
  let shown := fields.map fun field => field.1 ++ ": " ++ field.2
  name ++ " \x7b " ++ Heap.commaSeparated (shown ++ (if isOpen then [".."] else [])) ++ " \x7d"

/-- A scope by the names that it binds and its depth. -/
def scope (h : Heap) (s : Ref .scope) : String :=
  record "Environment"
    [("bindings", quotedList (h.localNames s)), ("depth", toString (h.scopeDepth s))] false

/-- A function: a native one by its name, a script one by its head, its body and its closure. -/
def function (h : Heap) (f : Ref .function) : String :=
  match h.callable f with
  | .native name _ => "<native function " ++ name ++ ">"
  | .script name params rest closure _ =>
    record "ScriptFunction"
      [("name", Text.quote name), ("params", quotedList params),
        ("rest_index", optionText rest)] true
      ++ " <block " ++ name ++ "> " ++ scope h closure

/-- The names of a class's methods in alphabetical order. -/
def methodNames (h : Heap) (cls : Ref .cls) : List String :=
  Text.sorted (h.classInfo cls).methods.keys

def classInfo (h : Heap) (cls : Ref .cls) : String :=
  record "ClassDescriptor"
    [("name", Text.quote (h.className cls)), ("methods", quotedList (methodNames h cls)),
      ("native", booleanText (h.classInfo cls).native)] false

def inst (h : Heap) (r : Ref .inst) : String :=
  record "Instance"
    [("class", Text.quote (h.instanceClassName r)), ("fields", quotedList (h.inst r).fields.keys),
      ("native", booleanText (h.inst r).resource.isSome)] false

/-- The interpreter by its settings and the number of active calls. -/
def machine (m : Machine) : String :=
  let config := record "RuntimeConfig"
    [("max_call_depth", optionText m.config.maxCallDepth),
      ("signal_polling", booleanText m.config.signalPolling)] false
  record "Interpreter" [("config", config), ("call_depth", toString m.calls.depth)] true

/-- The debug text of a value; values without one of their own show the interpreter. -/
def value (m : Machine) (v : Value) : String :=
  match v with
  | .function f => function m.heap f
  | .cls cls => classInfo m.heap cls
  | .inst r => inst m.heap r
  | _ => machine m

/-- A function as an array: its sort and name, for a script function also the place of its rest
parameter and its parameters. -/
def functionParts (h : Heap) (f : Ref .function) : List String :=
  match h.callable f with
  | .native name _ => ["native", name]
  | .script name params rest _ _ => "script" :: name :: optionText rest :: params

/-- A fault as an object: its category and message, the thrown value and the trace if there
are any. -/
def fault (fault : Fault) : Action Value := do
  let category : List (String × Value) :=
    [("error", .text fault.cause.category.text), ("message", .text fault.cause.message)]
  let thrown := match fault.cause.thrown? with
    | some v => [("thrown", v)]
    | none => []
  let trace ← match fault.trace with
    | some names => do
      let frames ← Action.newArray (names.map Value.text)
      pure [("trace", frames)]
    | none => pure []
  Action.newObject (OrderedIndex.ofList (category ++ thrown ++ trace))

end ScriptCore.Describe
