import ScriptCore.Native.Sorting

/-!
The array package: passes over the elements that an array has when the pass begins. What callbacks
do to the array does not change the pass.
-/

namespace ScriptCore

namespace ArrayFunction

/-- The functions in the order in which the package binds them. -/
def all : List ArrayFunction := [map, filter, forEach, reduce, sort]

def name : ArrayFunction → String
  | map => "map"
  | filter => "filter"
  | forEach => "forEach"
  | reduce => "reduce"
  | sort => "sort"

/-- How many arguments a function takes. -/
def checkCount (function : ArrayFunction) (got : Nat) : Except Cause Unit :=
  match function with
  | reduce => Arguments.between function.name 2 3 got
  | sort => Arguments.between function.name 1 2 got
  | _ => Arguments.exactly function.name 2 got

/-- The start of a reduction and the elements that it goes over. -/
def reduction (items : List Value) (initial : Option Value) :
    Except Cause (Value × List Value) :=
  match initial, items with
  | some start, items => .ok (start, items)
  | none, first :: rest => .ok (first, rest)
  | none, [] =>
    .error (.typeMismatch reduce.name "non-empty array or initial value" "empty array")

/-- Calls a function on items one after another and gives its results behind those that there are,
which stand in reverse. The results so far and the items still to come are held. -/
def mapFrom (re : Reentry) (callback : Ref .function) :
    List Value → List Value → Action (List Value)
  | done, [] => pure done.reverse
  | done, item :: rest => do
    let result ← ((re.holding done).holding rest).invoke callback [item] none
    mapFrom re callback (result :: done) rest

/-- Gives the items for which a function gives a true value behind those kept already, which stand
in reverse. The items kept and those still to come are held. -/
def filterFrom (re : Reentry) (predicate : Ref .function) :
    List Value → List Value → Action (List Value)
  | kept, [] => pure kept.reverse
  | kept, item :: rest => do
    let keep ← ((re.holding kept).holding rest).invoke predicate [item] none
    filterFrom re predicate (if keep.isTruthy then item :: kept else kept) rest

/-- Combines a value with items one after another. The items still to come are held. -/
def reduceFrom (re : Reentry) (reducer : Ref .function) : Value → List Value → Action Value
  | acc, [] => pure acc
  | acc, item :: rest => do
    let acc ← (re.holding rest).invoke reducer [acc, item] none
    reduceFrom re reducer acc rest

/-- Calls a function of the array package. -/
def call (re : Reentry) (function : ArrayFunction) (args : List Value) : Action Value := do
  let name := function.name
  Action.check (function.checkCount args.length)
  let r ← Action.check (Arguments.array name args 0)
  let items ← Action.readHeap fun h => h.items r
  match function with
  | map =>
    let callback ← Action.check (Arguments.function name args 1)
    let mapped ← mapFrom re callback [] items
    Action.newArray mapped
  | filter =>
    let predicate ← Action.check (Arguments.function name args 1)
    let kept ← filterFrom re predicate [] items
    Action.newArray kept
  | forEach =>
    let callback ← Action.check (Arguments.function name args 1)
    Invocation.callEach re callback (items.map fun item => [item])
    pure .null
  | reduce =>
    let reducer ← Action.check (Arguments.function name args 1)
    let (start, rest) ← Action.check (reduction items args[2]?)
    reduceFrom re reducer start rest
  | sort =>
    let comparator ← Action.check (Arguments.function? name args 1)
    let sorted ← Sort.stableSort (Native.compareBy (re.holding items) comparator) items
    Action.newArray sorted

end ArrayFunction

end ScriptCore
