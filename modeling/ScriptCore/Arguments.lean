import ScriptCore.Fault

/-!
Checks on the arguments of a native function: how many there are, and of which type the one at a
given place is.
-/

namespace ScriptCore.Arguments

/-- Exactly so many arguments. -/
def exactly (name : String) (expected got : Nat) : Except Cause Unit :=
  if got = expected then .ok () else .error (.arity name expected got false)

/-- At least so many arguments. -/
def atLeast (name : String) (minimum got : Nat) : Except Cause Unit :=
  if minimum ≤ got then .ok () else .error (.arity name minimum got true)

/-- A number of arguments within two bounds. -/
def between (name : String) (minimum maximum got : Nat) : Except Cause Unit :=
  if got < minimum then .error (.arity name minimum got true)
  else if maximum < got then .error (.arity name maximum got false)
  else .ok ()

/-- The cause of failing on an argument of another type than expected, or on an absent one. -/
def unsuitable (name expected : String) (arg : Option Value) : Cause :=
  .typeMismatch name expected (match arg with
    | some v => v.typeName
    | none => "nothing")

/-- The string at a place. -/
def text (name : String) (args : List Value) (place : Nat) : Except Cause String :=
  match args[place]? with
  | some (.text s) => .ok s
  | other => .error (unsuitable name "string" other)

/-- The number at a place. -/
def number (name : String) (args : List Value) (place : Nat) : Except Cause Binary64 :=
  match args[place]? with
  | some (.number n) => .ok n
  | other => .error (unsuitable name "number" other)

/-- The array at a place. -/
def array (name : String) (args : List Value) (place : Nat) : Except Cause (Ref .array) :=
  match args[place]? with
  | some (.array r) => .ok r
  | other => .error (unsuitable name "array" other)

/-- The function at a place. -/
def function (name : String) (args : List Value) (place : Nat) : Except Cause (Ref .function) :=
  match args[place]? with
  | some (.function r) => .ok r
  | other => .error (unsuitable name "function" other)

/-- The function at a place, if there is one; null counts as absent. -/
def function? (name : String) (args : List Value) (place : Nat) :
    Except Cause (Option (Ref .function)) :=
  match args[place]? with
  | none | some .null => .ok none
  | some (.function r) => .ok (some r)
  | other => .error (unsuitable name "function" other)

/-- The instance that a method was called on. -/
def receiver (method : String) (this : Option Value) : Except Cause (Ref .inst) :=
  match this with
  | some (.inst r) => .ok r
  | some other => .error (.mismatch method "instance receiver" other)
  | none => .error (.typeMismatch method "instance receiver" "unbound call")

end ScriptCore.Arguments
