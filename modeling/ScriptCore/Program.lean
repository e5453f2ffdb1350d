import ScriptCore.Datum
import ScriptCore.Fault

/-!
The expression language in which function bodies, package initialisers and programs are written.

An expression is a literal, an operation on operands, or one of the forms that decide themselves
which of their parts are evaluated, where, and how often. Operands are evaluated from left to
right before their operation runs.
-/

namespace ScriptCore

/-- The kinds of native resources that an instance can own. A token is a resource without
content. -/
inductive ResourceKind where
  | map
  | set
  | stack
  | deque
  | priority
  | listeners
  | token
  deriving DecidableEq, Repr

/-- The name of the resource itself, as messages give it. -/
def ResourceKind.typeName : ResourceKind → String
  | map => "MapStore"
  | set => "SetStore"
  | stack => "StackStore"
  | deque => "DequeStore"
  | priority => "PriorityStore"
  | listeners => "ListenerTable"
  | token => "Token"

/-- The name of the class whose instances own such a resource. -/
def ResourceKind.className : ResourceKind → String
  | map => "Map"
  | set => "Set"
  | stack => "Stack"
  | deque => "Deque"
  | priority => "PriorityQueue"
  | listeners => "EventBus"
  | token => "Token"

/-- Operations on two numbers. -/
inductive NumericOperation where
  | add
  | sub
  | mul
  | lt
  deriving DecidableEq, Repr

/-- The name of the operation in messages. -/
def NumericOperation.text : NumericOperation → String
  | add => "add"
  | sub => "sub"
  | mul => "mul"
  | lt => "lt"

/-- Operations on evaluated operands. -/
inductive Operation where
  /-- A new array of the operands. -/
  | array
  /-- A new object with the operands under these keys, set in order. -/
  | object (keys : List String)
  | displayText
  | typeName
  | truthy
  | negation
  | concat
  | equal
  | sameReference
  | sameKey
  /-- The default order, as -1, 0 or 1. -/
  | compare
  /-- The order that a comparator's result stands for, as -1, 0 or 1. -/
  | comparatorOrder
  | numeric (op : NumericOperation)
  | length
  | element
  | append
  | setEntry (key : String)
  | removeEntry (key : String)
  | throwValue
  | fail (cause : Cause)
  | record
  | readName (name : String)
  | define (name : String)
  | assign (name : String)
  | defineGlobal (name : String)
  | localNames
  | scopeDepth
  | call
  | send (name : String)
  | resolve (name : String)
  /-- Calls the first operand with the second as receiver and the others as arguments. -/
  | callBound
  | describeFunction
  | callDepth
  | configuration
  | debugText
  | newClass (name : String) (native : Bool) (methods : List String)
  | defineMethod (name : String)
  | describeClass
  | classMethod (name : String)
  | isInstance
  | readField (name : String)
  | writeField (name : String)
  | fieldNames
  | attach (kind : ResourceKind)
  | ownsResource
  | resourceIs (kind : ResourceKind)
  | describeResource (kind : ResourceKind) (operation : String)
  | newPromise
  | fulfill
  | reject
  | promiseState
  | importPackage (name : String)
  | isRegistered (name : String)
  | registerSymbol (package name : String)
  | safePoint
  | isPending (signal : String)
  | onSignal (signal : String)
  | clearSignal (signal : String)
  | raiseSignal (signal : String)
  deriving DecidableEq, Repr

/-- Expressions. A body is a list of expressions evaluated in order; its value is that of the last
one, or null. -/
inductive Expr where
  | literal (d : Datum)
  | apply (op : Operation) (operands : List Expr)
  | block (body : List Expr)
  /-- A body in a new scope below the current one. -/
  | scope (body : List Expr)
  | choose (condition yes no : Expr)
  /-- The body as often as told, with the count so far defined under the name. -/
  | loop (times : Nat) (name : String) (body : List Expr)
  /-- Ends the enclosing function body or program with this result. -/
  | ret (result : Expr)
  /-- The value of the expression, or an object that describes the fault. -/
  | attempt (e : Expr)
  /-- A function that closes over the current scope; a variadic one takes the remaining arguments
  as an array under its last parameter. -/
  | function (name : String) (params : List String) (variadic : Bool) (body : List Expr)
  /-- A native function whose body runs below the scope of its call. -/
  | native (name : String) (body : List Expr)
  /-- Registers a package whose initialiser is the body. -/
  | package (name : String) (body : List Expr)
  /-- Runs the body as a program of its own, in the global scope. -/
  | program (body : List Expr)
  /-- Runs the body as a program and tells whether it succeeded. -/
  | exitStatus (body : List Expr)
  deriving Repr

instance : Inhabited Expr := ⟨.literal .null⟩

end ScriptCore
