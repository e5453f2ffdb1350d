import ScriptCore.Program

/-!
Callables: script functions and native functions.

A script function binds its arguments below the scope it closes over and runs its body there. A
native function is one of the built-in operations below, or a body of its own. The methods of the
native classes and the functions of the built-in packages are named by enumerations, so that what
is built in can be listed.
-/

namespace ScriptCore

/-- Methods of Map. -/
inductive MapMethod where
  | construct | set | get | has | delete | size | clear | keys | values | entries | forEach
  deriving DecidableEq, Repr

/-- Methods of Set, the set algebra apart. -/
inductive SetMethod where
  | construct | add | has | delete | size | clear | values | forEach
  deriving DecidableEq, Repr

/-- Operations that combine two Sets into a new one. -/
inductive SetAlgebra where
  | union | intersection | difference
  deriving DecidableEq, Repr

/-- Methods of Stack. -/
inductive StackMethod where
  | construct | push | pop | peek | size | isEmpty | clear | toArray
  deriving DecidableEq, Repr

/-- Methods of Deque. -/
inductive DequeMethod where
  | construct | push | pop | unshift | shift | peekFront | peekBack | size | isEmpty | clear
  | toArray
  deriving DecidableEq, Repr

/-- Methods of PriorityQueue. -/
inductive QueueMethod where
  | construct | push | pop | peek | size | isEmpty | clear
  deriving DecidableEq, Repr

/-- Methods of EventBus. -/
inductive BusMethod where
  | construct | receive | emit | off | listenerCount | signals
  deriving DecidableEq, Repr

/-- Functions of the array package. -/
inductive ArrayFunction where
  | map | filter | forEach | reduce | sort
  deriving DecidableEq, Repr

/-- Functions of the signals package. -/
inductive SignalFunction where
  | on | clear | raise | supported
  deriving DecidableEq, Repr

/-- What a native function does. -/
inductive NativeAction where
  /-- Takes any arguments and gives null. -/
  | inert
  | body (body : List Expr)
  /-- Constructs an instance of the class. -/
  | constructs (cls : Ref .cls)
  /-- Calls the method with the receiver, whatever it is called on. -/
  | bound (method : Ref .function) (receiver : Value)
  | map (method : MapMethod)
  | set (method : SetMethod)
  /-- Set algebra over instances of exactly this class. -/
  | setAlgebra (operation : SetAlgebra) (cls : Ref .cls)
  | stack (method : StackMethod)
  | deque (method : DequeMethod)
  | queue (method : QueueMethod)
  | bus (method : BusMethod)
  | keysSorted
  | connect
  | array (function : ArrayFunction)
  | signal (function : SignalFunction)
  deriving Repr

/-- A function value. -/
inductive Callable where
  | native (name : String) (action : NativeAction)
  /-- A script function; `rest` is the place of its rest parameter, if it has one. -/
  | script (name : String) (params : List String) (rest : Option Nat) (closure : Ref .scope)
      (body : List Expr)
  deriving Repr

instance : Inhabited Callable := ⟨.native "" .inert⟩

namespace Callable

def name : Callable → String
  | native name _ => name
  | script name .. => name

def isNative : Callable → Bool
  | native .. => true
  | script .. => false

/-- A script function of the given parameters. A variadic one needs a parameter to take the
remaining arguments. -/
def ofScript (name : String) (params : List String) (variadic : Bool) (closure : Ref .scope)
    (body : List Expr) : Except Cause Callable :=
  if variadic then
    if params.isEmpty then .error (.arity name 1 0 true)
    else .ok (.script name params (some (params.length - 1)) closure body)
  else .ok (.script name params none closure body)

end Callable

end ScriptCore
