import ScriptCore.Value

/-!
Failures of script operations.

A fault has a cause, which says what went wrong, and from the innermost entered call onwards a
trace of the calls that were active. Each cause belongs to one category, the name under which
programs see it, and has one message.
-/

namespace ScriptCore

/-- What went wrong. -/
inductive Cause where
  /-- A call with the wrong number of arguments; `atLeast` marks a lower bound. -/
  | arity (name : String) (expected got : Nat) (atLeast : Bool)
  | notCallable (typeName : String)
  | depthExceeded (limit : Nat)
  | typeMismatch (operation expected got : String)
  | invalidOperation (reason : String)
  | undefinedVariable (name : String)
  | undefinedMethod (method owner : String)
  | packageNotFound (name : String)
  | packageInitializing (name : String)
  | unsupportedSignal (name : String)
  /-- A value thrown by a program, with the text it had when it was thrown. -/
  | thrown (value : Value) (text : String)
  deriving DecidableEq, Repr

/-- The classes of faults that programs tell apart. -/
inductive Category where
  | arity
  | type
  | name
  | packageNotFound
  | unsupportedSignal
  | recursion
  | exception
  deriving DecidableEq, Repr

/-- The name under which programs see a category. -/
def Category.text : Category → String
  | arity => "ArityError"
  | type => "TypeError"
  | name => "NameError"
  | packageNotFound => "PackageNotFoundError"
  | unsupportedSignal => "UnsupportedSignalError"
  | recursion => "RecursionError"
  | exception => "Exception"

namespace Cause

def category : Cause → Category
  | arity .. => .arity
  | notCallable .. | typeMismatch .. | invalidOperation .. => .type
  | undefinedVariable .. | undefinedMethod .. | packageInitializing .. => .name
  | packageNotFound .. => .packageNotFound
  | unsupportedSignal .. => .unsupportedSignal
  | depthExceeded .. => .recursion
  | thrown .. => .exception

/-- An argument count in words, singular only for one. -/
def countText (n : Nat) : String :=
  toString n ++ (if n = 1 then " argument" else " arguments")

/-- What a cause says about itself, apart from any thrown value. -/
def describe : Cause → String
  | arity name expected got atLeast =>
    let subject := if name.isEmpty then "expected " else name ++ " expects "
    let bound := if atLeast then "at least " else ""
    subject ++ bound ++ countText expected ++ ", got " ++ toString got
  | notCallable typeName => typeName ++ " is not callable"
  | depthExceeded limit => "maximum call depth exceeded (limit: " ++ toString limit ++ ")"
  | typeMismatch operation expected got => operation ++ " expects " ++ expected ++ ", got " ++ got
  | invalidOperation reason => reason
  | undefinedVariable name => "undefined variable: " ++ name
  | undefinedMethod method owner => "no method '" ++ method ++ "' on " ++ owner
  | packageNotFound name => "package not found: " ++ name
  | packageInitializing name => "package '" ++ name ++ "' is still initializing"
  | unsupportedSignal name => "unsupported signal: " ++ name
  | thrown .. => "uncaught exception"

/-- The message of a fault: the text of a thrown value, the description of any other cause. -/
def message : Cause → String
  | thrown _ text => text
  | cause => cause.describe

/-- The value that a program threw. -/
def thrown? : Cause → Option Value
  | thrown value _ => some value
  | _ => none

/-- A value of another type than the operation takes. -/
def mismatch (operation expected : String) (got : Value) : Cause :=
  .typeMismatch operation expected got.typeName

/-- An instance that owns a native resource takes no second one. -/
def alreadyOwns (className : String) : Cause :=
  .invalidOperation (className ++ " instance already owns a native resource")

/-- Set algebra makes new instances of its class, and cannot once the class is out of use. -/
def setClassGone : Cause := .invalidOperation "Set class is no longer available"

/-- A settled promise stays as it is. -/
def alreadySettled (state : String) : Cause :=
  .invalidOperation ("promise is already " ++ state)

end Cause

/-- The names of the active calls when a fault was first seen by one, most recent first. -/
abbrev Trace := List String

/-- One line per call below a heading; nothing at all for an empty trace. -/
def Trace.render (trace : Trace) : String :=
  if trace.isEmpty then ""
  else
    trace.zipIdx.foldl (fun text (name, i) => text ++ "  " ++ toString i ++ ": " ++ name ++ "\n")
      "call backtrace:\n"

/-- A failed operation. -/
structure Fault where
  cause : Cause
  trace : Option Trace := none
  deriving DecidableEq, Repr

/-- Category and message in one line. -/
def Fault.report (fault : Fault) : String :=
  fault.cause.category.text ++ ": " ++ fault.cause.message

end ScriptCore
