import ScriptCore.Operations

/-!
Evaluation of expressions.

Evaluation recurses on the expression alone; it calls functions and requests packages only by the
ways back into the interpreter that it is given.
-/

namespace ScriptCore

/-- Runs a body as a program: after a safe point if the machine polls, in the global scope. -/
def runProgram (re : Reentry) (body : Ref .scope → Execution Value) : Action Value := do
  Invocation.poll re
  let m ← get
  (body m.globals).result

/-- Whether a program succeeded, in one word. -/
def exitStatus (program : Action Value) : Action Value := fun m =>
  match program m with
  | (.ok _, m) => (.ok (.text "success"), m)
  | (.error (.fault _), m) => (.ok (.text "failure"), m)
  | (.error .exhausted, m) => (.error .exhausted, m)

/-- The value of an execution, or the description of the fault that it fails with. -/
def attempt (execution : Execution Value) : Execution Value := fun m =>
  match execution m with
  | (.error (.failed (.fault fault)), m) => (Describe.fault fault).exec m
  | other => other

mutual

/-- The value of an expression in a scope. -/
def evaluate (re : Reentry) : Expr → Ref .scope → Execution Value
  | .literal d, _ => (Action.onHeap fun h => Heap.build d h).exec
  | .apply op operands, scope => do
    let values ← evaluateOperands re op 0 [] operands scope
    (op.apply (re.holding values) scope values).exec
  | .block body, scope => evaluateFrom re .null body scope
  | .scope body, scope => do
    let child ← (Action.onHeap fun h => h.childScope scope).exec
    evaluateFrom (re.within child) .null body child
  | .choose condition yes no, scope => do
    let v ← evaluate re condition scope
    if v.isTruthy then evaluate re yes scope else evaluate re no scope
  | .loop times name body, scope => do
    (List.range times).forM fun i => do
      (Action.modifyHeap fun h => h.define scope name (.ofNat i)).exec
      discard (evaluateFrom re .null body scope)
    pure .null
  | .ret result, scope => do
    let v ← evaluate re result scope
    throw (.returned v)
  | .attempt e, scope => attempt (evaluate re e scope)
  | .function name params variadic body, scope => do
    let callable ← (Action.check (Callable.ofScript name params variadic scope body)).exec
    let f ← (Action.onHeap fun h => h.newFunction callable).exec
    pure (.function f)
  | .native name body, _ => do
    let f ← (Action.newNative name (.body body)).exec
    pure (.function f)
  | .package name body, scope => do
    (Packages.register name (.body scope body)).exec
    pure .null
  | .program body, _ => (runProgram re fun scope => evaluateFrom re .null body scope).exec
  | .exitStatus body, _ =>
    (exitStatus (runProgram re fun scope => evaluateFrom re .null body scope)).exec
termination_by structural e => e

/-- The value of a body whose value is so far the given one: that of its last expression, if it has
any. A value is held until the next one is there. -/
def evaluateFrom (re : Reentry) (last : Value) : List Expr → Ref .scope → Execution Value
  | [], _ => pure last
  | e :: rest, scope => do
    let v ← evaluate (re.holding [last]) e scope
    evaluateFrom re v rest scope
termination_by structural es => es

/-- The values of all operands, given the place of the next one and the values of those before it,
the latest first. Each is checked before the next is evaluated. What the operation holds of its
operands is held meanwhile. -/
def evaluateOperands (re : Reentry) (op : Operation) (place : Nat) (latest : List Value) :
    List Expr → Ref .scope → Execution (List Value)
  | [], _ => pure latest.reverse
  | e :: rest, scope => do
    let v ← evaluate (re.adding (op.hold latest)) e scope
    match op.need? place with
    | some need => (Action.check (need.check v)).exec
    | none => pure ()
    evaluateOperands re op (place + 1) (v :: latest) rest scope
termination_by structural es => es

end

/-- The value of a body in a scope: that of its last expression, or null. -/
def evaluateBody (re : Reentry) (body : List Expr) (scope : Ref .scope) : Execution Value :=
  evaluateFrom re .null body scope

end ScriptCore
