import ScriptCore.Fault

/-!
The calls that are active, and the limit on their number.
-/

namespace ScriptCore

/-- The names of the active calls, most recent first, their number, and how many there may be. -/
structure CallStack where
  frames : List String := []
  depth : Nat := frames.length
  limit : Option Nat := none
  depth_eq : depth = frames.length := by rfl
  deriving DecidableEq, Repr

namespace CallStack

/-- The calls with one more. -/
def cons (name : String) (calls : CallStack) : CallStack :=
  { frames := name :: calls.frames
    depth := calls.depth + 1
    limit := calls.limit
    depth_eq := by rw [calls.depth_eq, List.length_cons] }

/-- Enters a call. It is refused when the limit is reached. -/
def push (calls : CallStack) (name : String) : Except Cause CallStack :=
  match calls.limit with
  | some limit =>
    if limit ≤ calls.depth then .error (.depthExceeded limit) else .ok (calls.cons name)
  | none => .ok (calls.cons name)

/-- Leaves the most recent call. -/
def pop (calls : CallStack) : CallStack :=
  { frames := calls.frames.tail
    depth := calls.depth - 1
    limit := calls.limit
    depth_eq := by rw [calls.depth_eq, List.length_tail] }

/-- The most recent call. -/
def current? (calls : CallStack) : Option String := calls.frames.head?

/-- The trace of the calls that are active now. -/
def capture (calls : CallStack) : Trace := calls.frames

/-- Gives a fault the present trace, unless it has one or no call is active. -/
def attachTrace (calls : CallStack) (fault : Fault) : Fault :=
  if calls.frames.isEmpty || fault.trace.isSome then fault
  else { fault with trace := some calls.capture }

end CallStack

end ScriptCore
