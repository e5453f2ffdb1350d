import ScriptCore.Proofs.Conduct.Natives

/-!
What the interpreter does performs routines.

The evaluation of an expression, the body of a function and the initialiser of a package each
perform a routine, one that goes on after a fault only if one of the two forms that turn a fault
into a value is among its expressions, and one that looks at the settings only if an operation that
does so is among them. A relation that abides therefore holds across every call of a function and
every request for a package, by induction on the nested steps that are left.
-/

namespace ScriptCore

open ScriptCore.Action

variable {catching inspecting : Prop}

/-! ### Bodies that catch -/

mutual

/-- Whether an expression has a form in it that turns faults into values. What the bodies of the
functions and packages that it defines have in them is not evaluated with it. -/
def Expr.catches : Expr → Bool
  | .literal _ => false
  | .apply _ operands => Expr.anyCatches operands
  | .block body => Expr.anyCatches body
  | .scope body => Expr.anyCatches body
  | .choose condition yes no => condition.catches || yes.catches || no.catches
  | .loop _ _ body => Expr.anyCatches body
  | .ret result => result.catches
  | .attempt _ => true
  | .function .. => false
  | .native .. => false
  | .package .. => false
  | .program body => Expr.anyCatches body
  | .exitStatus _ => true

/-- Whether one of the expressions of a body does. -/
def Expr.anyCatches : List Expr → Bool
  | [] => false
  | e :: rest => e.catches || Expr.anyCatches rest

end

/-- Whether a function has a body that catches. -/
def Callable.catches : Callable → Bool
  | .native _ (.body body) => Expr.anyCatches body
  | .native _ _ => false
  | .script _ _ _ _ body => Expr.anyCatches body

/-- Whether an initialiser has a body that catches. -/
def Initializer.catches : Initializer → Bool
  | .body _ es => Expr.anyCatches es
  | .builtin _ => false
  | .prelude => false

/-! ### Scopes of calls -/

namespace Invocation

/-- The receiver, if there is one, comes last into the scope of a call. -/
theorem performs_bindReceiver (scope : Ref .scope) (this : Option Value) :
    Performs catching inspecting fun _ => (do
      match this with
      | some receiver => modifyHeap fun h => h.define scope receiverName receiver
      | none => pure ()
      pure scope : Action (Ref .scope)) := by
  cases this with
  | none => exact .pure _
  | some receiver =>
    exact .bind (performs_modifyHeap fun h => .define h _ _ _) fun _ => .pure _

theorem performs_bindArguments (name : String) (params : List String) (rest : Option Nat)
    (closure : Ref .scope) (args : List Value) (this : Option Value) :
    Performs catching inspecting fun _ => bindArguments name params rest closure args this := by
  refine .bind (performs_check _) fun _ => ?_
  refine .bind (performs_onHeap fun h => .childScope h _) fun scope => ?_
  have received : Performs catching inspecting _ := performs_bindReceiver scope this
  refine .bind (performs_modifyHeap fun h => .defineAll h _ _) fun _ => ?_
  cases rest with
  | none => exact received
  | some place =>
    dsimp only
    cases params[place]? with
    | none => exact received
    | some restName =>
      exact .bind (performs_newArray _) fun _ =>
        .bind (performs_modifyHeap fun h => .define h _ _ _) fun _ => received

theorem performs_nativeScope (this : Option Value) :
    Performs catching inspecting fun _ => nativeScope this := by
  refine performs_see (fun m => ?_) fun _ _ => rfl
  cases this with
  | none => exact .pure _
  | some receiver =>
    refine .bind (performs_onHeap fun h => .childScope h _) fun _ => ?_
    exact .bind (performs_modifyHeap fun h => .define h _ _ _) fun _ => .pure _

end Invocation

/-! ### Packages -/

namespace Packages

theorem performs_bindNative (table : Table) (name : String) {action : NativeAction}
    (plain : action.inspects = false) :
    Performs catching inspecting fun _ => bindNative table name action :=
  .bind (performs_newNative _ (by simp [plain])) fun _ => .pure _

theorem performs_bindNatives (table : Table) {functions : List (String × NativeAction)}
    (plain : ∀ function ∈ functions, function.2.inspects = false) :
    Performs catching inspecting fun _ => bindNatives table functions :=
  .foldlM (fun _ function member => performs_bindNative _ _ (plain function member)) _

theorem performs_bindClass (table : Table) (cls : Ref .cls) (functionName : String) :
    Performs catching inspecting fun _ => bindClass table cls functionName :=
  .bind (performs_readHeap _) fun _ => .bind (performs_newNative _ nofun) fun _ => .pure _

theorem performs_newClassOf {β : Type} (name : String) (methods : List β)
    (method : β → String × NativeAction) (plain : ∀ b, (method b).2.inspects = false) :
    Performs catching inspecting fun _ => Native.newClass name (methods.map method) :=
  Native.performs_newClass name (List.forall_mem_map.2 fun b _ => plain b)

theorem performs_fill (package : BuiltinPackage) (table : Table) :
    Performs catching inspecting fun _ => fill package table := by
  cases package with
  | collections =>
    refine .bind (performs_newClassOf _ _ _ fun _ => rfl) fun _ => .bind performs_newSetClass
      fun _ => ?_
    refine .bind (performs_newClassOf _ _ _ fun _ => rfl) fun _ => ?_
    refine .bind (performs_newClassOf _ _ _ fun _ => rfl) fun _ => ?_
    refine .bind (performs_newClassOf _ _ _ fun _ => rfl) fun _ => ?_
    refine .bind (performs_bindClass _ _ _) fun _ => .bind (performs_bindClass _ _ _) fun _ => ?_
    refine .bind (performs_bindClass _ _ _) fun _ => .bind (performs_bindClass _ _ _) fun _ => ?_
    exact .bind (performs_bindClass _ _ _) fun _ => performs_bindNative _ _ rfl
  | events =>
    refine .bind (performs_newClassOf _ _ _ fun _ => rfl) fun _ => ?_
    exact .bind (performs_bindClass _ _ _) fun _ => performs_bindNative _ _ rfl
  | signals | array => exact performs_bindNatives _ (List.forall_mem_map.2 fun _ _ => rfl)

theorem performs_fillPrelude (table : Table) :
    Performs catching inspecting fun re => fillPrelude re table :=
  .foldlM (fun (table : Table) _ _ =>
    .bind ((Reentry.performs_ensure _).holding table.values) fun _ => .pure _) _

theorem performs_importPackage (name : String) :
    Performs catching inspecting fun re => importPackage re name :=
  .bind (Reentry.performs_ensure name) fun _ => performs_newObject _

theorem performs_register (name : String) {initializer : Initializer}
    (plain : initializer.inspects = true → inspecting) :
    Performs catching inspecting fun _ => register name initializer :=
  performs_step (fun w => { w with registry := w.registry.register name initializer })
    [.packageRegistered name initializer] fun w => .registerPackage w name plain

theorem performs_registerSymbol (package name : String) (value : Value) :
    Performs catching inspecting fun _ => registerSymbol package name value :=
  performs_step (fun w => { w with registry := w.registry.registerSymbol package name value })
    [.symbolRegistered package name value] fun w => .registerSymbol w package name value

end Packages

/-! ### Operations -/

theorem Describe.performs_fault (fault : Fault) :
    Performs catching inspecting fun _ => Describe.fault fault := by
  unfold Describe.fault
  cases fault.trace with
  | some names => exact .bind (performs_newArray _) fun _ => performs_newObject _
  | none => exact performs_newObject _

/-- The text depends on the settings and on what a program sees. -/
theorem Describe.value_machine (m : Machine) (v : Value) :
    value m v = value (m.world.machine (m.surroundings inspecting) m.config) v := by
  have shown : machine m = machine (m.world.machine (m.surroundings inspecting) m.config) := by
    unfold machine
    rw [m.calls.depth_eq]
    rfl
  cases v with
  | function | cls | inst => rfl
  | _ => exact shown

namespace Operations

theorem performs_silently {op : Reentry → Action Unit}
    (performs : Performs catching inspecting op) :
    Performs catching inspecting fun re => silently (op re) := performs.bind fun _ => .pure _

theorem performs_newTexts (strings : List String) :
    Performs catching inspecting fun _ => newTexts strings := performs_newArray _

theorem performs_setEntry (r : Ref .object) (key : String) (value : Value) :
    Performs catching inspecting fun _ => setEntry r key value :=
  .bind (performs_readHeap _) fun _ =>
    .bind (performs_modifyHeap fun h => .modifyEntries h _ _) fun _ => .pure _

theorem performs_removeEntry (r : Ref .object) (key : String) :
    Performs catching inspecting fun _ => removeEntry r key :=
  .bind (performs_readHeap _) fun _ =>
    .bind (performs_modifyHeap fun h => .modifyEntries h _ _) fun _ => .pure _

theorem performs_record (v : Value) : Performs catching inspecting fun _ => record v :=
  .bind (performs_step (fun w => { w with output := w.heap.image v :: w.output }) [] fun w =>
    .output w _) fun _ => .pure _

theorem performs_newClass (name : String) (native : Bool) (names : List String)
    (methods : List Value) :
    Performs catching inspecting fun _ => newClass name native names methods :=
  .bind (performs_check _) fun _ =>
    .bind (performs_onHeap fun h => .newClass h _) fun _ => .pure _

theorem performs_describeClass (cls : Ref .cls) :
    Performs catching inspecting fun _ => describeClass cls := by
  refine .bind (performs_readHeap _) fun _ => .bind (performs_readHeap _) fun _ => ?_
  exact .bind (performs_newTexts _) fun _ => performs_newArray _

theorem performs_describeResource (r : Ref .inst) (kind : ResourceKind) (operation : String) :
    Performs catching inspecting fun _ => describeResource r kind operation := by
  refine .bind (performs_readHeap _) fun content => .bind (performs_readHeap _) fun _ => ?_
  cases content.resource with
  | some resource =>
    exact .ite (.ite (.pure _) (performs_newTexts _)) (performs_fail _)
  | none => exact performs_fail _

theorem performs_describePromise (r : Ref .promise) :
    Performs catching inspecting fun _ => describePromise r :=
  .bind (performs_readHeap _) fun _ => performs_newArray _

end Operations

open Operations in
/-- No operation catches, and few look at the settings. -/
theorem Operation.performs_apply (scope : Ref .scope) (op : Operation) (operands : List Value)
    (inspects : op.inspects = true → inspecting) :
    Performs catching inspecting fun re => op.apply re scope operands := by
  unfold Operation.apply
  cases op with
  | array => exact performs_newArray _
  | object => exact performs_newObject _
  | displayText | concat | equal | sameKey | scopeDepth => exact performs_readHeap _
  | typeName | truthy | negation | sameReference | compare => exact .pure _
  | comparatorOrder => exact .bind (performs_check _) fun _ => .pure _
  | numeric => exact .bind (performs_check _) fun _ => .bind (performs_check _) fun _ => .pure _
  | length => exact .bind (performs_viewHeap _) fun _ => .pure _
  | element | readName => exact performs_viewHeap _
  | append =>
    exact .bind (performs_check _) fun _ =>
      performs_silently (performs_modifyHeap fun h => .append h _ _)
  | setEntry => exact .bind (performs_check _) fun _ => performs_setEntry _ _ _
  | removeEntry => exact .bind (performs_check _) fun _ => performs_removeEntry _ _
  | throwValue => exact .bind (performs_readHeap _) fun _ => performs_fail _
  | fail => exact performs_fail _
  | record => exact performs_record _
  | define => exact performs_silently (performs_modifyHeap fun h => .define h _ _ _)
  | assign => exact performs_silently (performs_assign _ _ _)
  | defineGlobal =>
    exact performs_see (fun _ => performs_silently (performs_modifyHeap fun h => .define h _ _ _))
      fun _ _ => rfl
  | localNames => exact .bind (performs_readHeap _) fun _ => performs_newTexts _
  | call => exact Invocation.performs_callValue _ _
  | send => exact Invocation.performs_callMethod _ _ _
  | resolve => exact .bind (performs_viewHeap _) fun _ => .pure _
  | callBound => exact .bind (performs_check _) fun _ => Reentry.performs_invoke _ _ _
  | describeFunction =>
    exact .bind (performs_check _) fun _ => .bind (performs_readHeap _) fun _ => performs_newTexts _
  | callDepth =>
    refine performs_see (fun _ => .pure _) fun _ m => ?_
    rw [m.calls.depth_eq]
    rfl
  | isRegistered => exact performs_see (fun _ => .pure _) fun _ _ => rfl
  | configuration =>
    exact performs_inspect (fun _ => performs_newArray _) (inspects rfl) fun _ _ => rfl
  | debugText =>
    refine performs_inspect (fun _ => .pure _) (inspects rfl) fun _ m => ?_
    exact congrArg _ (congrArg Value.text (Describe.value_machine m _))
  | newClass => exact performs_newClass _ _ _ _
  | defineMethod =>
    exact .bind (performs_check _) fun _ => .bind (performs_check _) fun _ =>
      performs_silently (performs_modifyHeap fun h => .setMethod h _ _ _)
  | describeClass => exact .bind (performs_check _) fun _ => performs_describeClass _
  | classMethod | readField | ownsResource | resourceIs =>
    exact .bind (performs_check _) fun _ => performs_readHeap _
  | isInstance =>
    exact .bind (performs_check _) fun _ => .bind (performs_check _) fun _ => performs_readHeap _
  | writeField =>
    exact .bind (performs_check _) fun _ =>
      performs_silently (performs_modifyHeap fun h => .setField h _ _ _)
  | fieldNames =>
    exact .bind (performs_check _) fun _ => .bind (performs_readHeap _) fun _ => performs_newTexts _
  | attach => exact .bind (performs_check _) fun _ => performs_silently (performs_attach _ _)
  | describeResource => exact .bind (performs_check _) fun _ => performs_describeResource _ _ _
  | newPromise => exact performs_onHeap fun h => .newPromise h _
  | fulfill | reject =>
    exact .bind (performs_check _) fun _ => performs_silently (performs_settle _ _)
  | promiseState => exact .bind (performs_check _) fun _ => performs_describePromise _
  | importPackage => exact Packages.performs_importPackage _
  | registerSymbol => exact performs_silently (Packages.performs_registerSymbol _ _ _)
  | safePoint => exact performs_silently Invocation.performs_safePoint
  | isPending => exact .bind (Signalling.performs_isPending _) fun _ => .pure _
  | onSignal =>
    exact .bind (performs_check _) fun _ => performs_silently (Signalling.performs_register _ _)
  | clearSignal => exact .bind (Signalling.performs_clear _) fun _ => .pure _
  | raiseSignal => exact performs_silently (Signalling.performs_raise _)

/-! ### Expressions -/

/-- What comes after a check in a body runs only with the value of the check. -/
theorem performs_exec_check {α β : Type} {result : Except Cause α} {next : α → Execution β}
    (each : ∀ a, result = .ok a → Performs catching inspecting fun _ => next a) :
    Performs catching inspecting fun _ => (check result).exec >>= next := by
  cases result with
  | ok a => exact each a rfl
  | error cause =>
    exact .of_on (fun _ _ _ => .error (.failed (.fault { cause }))) id [] (fun _ _ => rfl) .refl
      fun _ _ _ fault raised => by cases raised; rfl

theorem performs_runProgram {body : Reentry → Ref .scope → Execution Value}
    (performs : ∀ scope, Performs catching inspecting fun re => body re scope) :
    Performs catching inspecting fun re => runProgram re (body re) :=
  .bind Invocation.performs_poll fun _ =>
    performs_see (fun _ => Execution.performs_result (performs _)) fun _ _ => rfl

theorem performs_exitStatus (allowed : catching) {program : Reentry → Action Value}
    (performs : Performs catching inspecting program) :
    Performs catching inspecting fun re => exitStatus (program re) := by
  refine .rescue (fun _ _ => pure (.text "failure")) allowed
    (performs.map fun _ => .text "success") (fun _ => .pure _) fun re m => ?_
  rw [Run.on_map, Run.on, Run.on]
  unfold exitStatus
  rcases program re m with ⟨(_ | _) | _, _⟩ <;> rfl

theorem performs_attempt (allowed : catching) {execution : Reentry → Execution Value}
    (performs : Performs catching inspecting execution) :
    Performs catching inspecting fun re => attempt (execution re) := by
  refine .rescue (fun fault _ => (Describe.fault fault).exec) allowed performs
    (fun fault => performs_exec (Describe.performs_fault fault)) fun re m => ?_
  rw [Run.on, Run.on]
  unfold attempt
  rcases execution re m with ⟨(_ | (_ | _)) | _, _⟩ <;> rfl

mutual

/-- An expression performs a routine that catches only if the expression does, and that looks at the
settings only if it does. -/
theorem performs_evaluate : ∀ (e : Expr) (scope : Ref .scope), (e.catches = true → catching) →
    (e.inspects = true → inspecting) →
    Performs catching inspecting fun re => evaluate re e scope
  | .literal d, _, _, _ => performs_exec (performs_onHeap fun h => .build d h)
  | .apply op operands, scope, catches, inspects =>
    .bind (performs_evaluateOperands op 0 [] operands scope catches fun does =>
        inspects (by simp [Expr.inspects, does])) fun values =>
      performs_exec ((op.performs_apply scope values fun does =>
        inspects (by simp [Expr.inspects, does])).holding values)
  | .block body, scope, catches, inspects =>
    performs_evaluateFrom .null body scope catches inspects
  | .scope body, scope, catches, inspects =>
    .bind (performs_exec (performs_onHeap fun h => .childScope h _)) fun child =>
      (performs_evaluateFrom .null body child catches inspects).within child
  | .choose condition yes no, scope, catches, inspects =>
    .bind (performs_evaluate condition scope (fun does => catches (by simp [Expr.catches, does]))
        fun does => inspects (by simp [Expr.inspects, does])) fun _ =>
      .ite
        (performs_evaluate yes scope (fun does => catches (by simp [Expr.catches, does]))
          fun does => inspects (by simp [Expr.inspects, does]))
        (performs_evaluate no scope (fun does => catches (by simp [Expr.catches, does]))
          fun does => inspects (by simp [Expr.inspects, does]))
  | .loop times name body, scope, catches, inspects => by
    refine .bind (.forM fun i _ => ?_) fun _ => .pure _
    refine .bind (performs_exec (performs_modifyHeap fun h => .define h _ _ _)) fun _ => ?_
    exact .map _ (performs_evaluateFrom .null body scope catches inspects)
  | .ret result, scope, catches, inspects =>
    .bind (performs_evaluate result scope catches inspects) fun _ => .throw nofun
  | .attempt e, scope, catches, inspects =>
    performs_attempt (catches rfl) (performs_evaluate e scope (fun _ => catches rfl) inspects)
  | .function name params variadic body, scope, _, inspects => by
    refine performs_exec_check fun callable made => ?_
    refine .bind (performs_exec (performs_onHeap fun h => .newFunction h fun does => ?_))
      fun _ => .pure _
    exact inspects ((Callable.inspects_ofScript made).symm.trans does)
  | .native name body, _, _, inspects =>
    .bind (performs_exec (performs_newNative _ inspects)) fun _ => .pure _
  | .package name body, scope, _, inspects =>
    .bind (performs_exec (Packages.performs_register _ inspects)) fun _ => .pure _
  | .program body, _, catches, inspects =>
    performs_exec (performs_runProgram fun scope =>
      performs_evaluateFrom .null body scope catches inspects)
  | .exitStatus body, _, catches, inspects =>
    performs_exec (performs_exitStatus (catches rfl)
      (performs_runProgram fun scope =>
        performs_evaluateFrom .null body scope (fun _ => catches rfl) inspects))
termination_by structural e => e

theorem performs_evaluateFrom (last : Value) : ∀ (es : List Expr) (scope : Ref .scope),
    (Expr.anyCatches es = true → catching) → (Expr.anyInspects es = true → inspecting) →
      Performs catching inspecting fun re => evaluateFrom re last es scope
  | [], _, _, _ => .pure _
  | e :: rest, scope, catches, inspects =>
    .bind ((performs_evaluate e scope (fun does => catches (by simp [Expr.anyCatches, does]))
        fun does => inspects (by simp [Expr.anyInspects, does])).holding [last]) fun v =>
      performs_evaluateFrom v rest scope (fun does => catches (by simp [Expr.anyCatches, does]))
        fun does => inspects (by simp [Expr.anyInspects, does])
termination_by structural es => es

theorem performs_evaluateOperands (op : Operation) (place : Nat) (latest : List Value) :
    ∀ (es : List Expr) (scope : Ref .scope), (Expr.anyCatches es = true → catching) →
      (Expr.anyInspects es = true → inspecting) →
      Performs catching inspecting fun re => evaluateOperands re op place latest es scope
  | [], _, _, _ => .pure _
  | e :: rest, scope, catches, inspects => by
    refine .bind ((performs_evaluate e scope
      (fun does => catches (by simp [Expr.anyCatches, does]))
      fun does => inspects (by simp [Expr.anyInspects, does])).adding (op.hold latest)) fun v => ?_
    have others := performs_evaluateOperands op (place + 1) (v :: latest) rest scope
      (fun does => catches (by simp [Expr.anyCatches, does]))
      fun does => inspects (by simp [Expr.anyInspects, does])
    cases op.need? place with
    | some need => exact .bind (performs_exec (performs_check _)) fun _ => others
    | none => exact others
termination_by structural es => es

end

theorem performs_evaluateBody {body : List Expr} (catches : Expr.anyCatches body = true → catching)
    (inspects : Expr.anyInspects body = true → inspecting) (scope : Ref .scope) :
    Performs catching inspecting fun re => evaluateBody re body scope :=
  performs_evaluateFrom .null body scope catches inspects

/-! ### Calls and requests -/

namespace Interpreter

theorem performs_nativeBodyScope (scope : Ref .scope) (args : List Value) :
    Performs catching inspecting fun _ => nativeBodyScope scope args := by
  refine .bind (performs_readHeap _) fun _ => ?_
  refine .bind (performs_onHeap fun h => .childScope h _) fun _ => ?_
  refine .bind (performs_newArray _) fun _ => ?_
  exact .bind (performs_modifyHeap fun h => .defineAll h _ _) fun _ => .pure _

theorem performs_performNative {name : String} {action : NativeAction}
    (catches : (Callable.native name action).catches = true → catching)
    (inspects : action.inspects = true → inspecting) (scope : Ref .scope) (args : List Value) :
    Performs catching inspecting fun re => performNative re action scope args := by
  refine .bind (performs_readHeap _) fun this => ?_
  cases action with
  | inert => exact .pure _
  | body body =>
    exact .bind (performs_nativeBodyScope scope args) fun child =>
      Execution.performs_result ((performs_evaluateBody catches inspects child).within child)
  | constructs cls => exact Invocation.performs_construct cls args
  | bound method receiver => exact Reentry.performs_invoke _ _ _
  | map method => exact method.performs_call _ _
  | set method => exact method.performs_call _ _
  | setAlgebra operation cls => exact operation.performs_call _ _ cls
  | stack method => exact method.performs_call _ _
  | deque method => exact method.performs_call _ _
  | queue method => exact method.performs_call _ _
  | bus method => exact method.performs_call _ _
  | keysSorted => exact Native.performs_keysSorted _
  | connect => exact Connection.performs_connect _
  | array function => exact function.performs_call _
  | signal function => exact function.performs_call _

theorem performs_performBody {body : List Expr} (catches : Expr.anyCatches body = true → catching)
    (inspects : Expr.anyInspects body = true → inspecting) (scope : Ref .scope) :
    Performs catching inspecting fun re => performBody re body scope :=
  Execution.performs_result
    (.bind (.map _ ((performs_evaluateBody catches inspects scope).within scope)) fun _ => .pure _)

theorem performs_performCallable {callable : Callable} (args : List Value) (this : Option Value)
    (catches : callable.catches = true → catching)
    (inspects : callable.inspects = true → inspecting) :
    Performs catching inspecting fun re => performCallable re args this callable := by
  cases callable with
  | native name action =>
    exact .bind (Invocation.performs_nativeScope this) fun scope =>
      performs_performNative catches inspects scope args
  | script name params rest closure body =>
    exact .bind (Invocation.performs_bindArguments _ _ _ _ _ _) fun scope =>
      performs_performBody catches inspects scope

theorem on_perform (re : Reentry) (callee : Ref .function) (args : List Value)
    (this : Option Value) (m : Machine) :
    (perform re callee args this).on m =
      (performCallable re args this (m.heap.callable callee)).on m := rfl

theorem performs_perform (callee : Ref .function) (args : List Value) (this : Option Value) :
    Performs True True fun re => perform re callee args this :=
  .bind (performs_readHeap _) fun _ =>
    performs_performCallable args this (fun _ => trivial) fun _ => trivial

theorem performs_runInitializer {initializer : Initializer}
    (catches : initializer.catches = true → catching)
    (inspects : initializer.inspects = true → inspecting) (table : Table) :
    Performs catching inspecting fun re => runInitializer re initializer table := by
  cases initializer with
  | builtin package => exact Packages.performs_fill package table
  | prelude => exact Packages.performs_fillPrelude table
  | body scope body =>
    refine .bind (performs_onHeap fun h => .childScope h _) fun child => ?_
    have runs : Performs catching inspecting fun re => evaluateBody re body child :=
      performs_evaluateBody catches inspects child
    refine .bind (performs_newObject _) fun bindings => ?_
    refine .bind (performs_modifyHeap fun h => .define h _ _ _) fun _ => ?_
    refine .bind (Execution.performs_result ((runs.within child).holding table.values)) fun v => ?_
    cases v with
    | object r => exact performs_readHeap _
    | _ => exact .pure _

variable {R : Machine → Machine → Prop} [Abiding R]

/-- The ways back into the interpreter within a number of nested steps, while something is held. -/
def nested (steps : Nat) (holds : List Hold) : Reentry := ⟨holds, invoke steps, ensure steps⟩

/-- The relation holds across every call of a function and every request for a package. -/
instance leads_nested (steps : Nat) (holds : List Hold) : (nested steps holds).Leads R := by
  induction steps generalizing holds with
  | zero =>
    -- The bound is used up, so there is nothing to show.
    exact ⟨fun _ _ _ _ => ⟨fun _ finished => absurd rfl finished⟩,
      fun _ _ _ _ _ _ finished => absurd rfl finished,
      fun _ _ => ⟨fun _ finished => absurd rfl finished⟩⟩
  | succ steps ih =>
    refine ⟨fun holds callee args this => ?_, fun holds callee args this m => ?_,
      fun holds name => ?_⟩
    · exact Invocation.leads_call (nested steps _) callee
        ((performs_perform callee args this).leads (nested steps _))
    · exact Invocation.called_call (nested steps _)
        ((performs_perform callee args this).leads (nested steps _))
    · have fills (initializer : Initializer) (table : Table) :
          Performs True True fun re => runInitializer re initializer table :=
        performs_runInitializer (fun _ => trivial) (fun _ => trivial) table
      exact Packages.leads_ensure (fun initializer table =>
        (fills initializer table).leads (nested steps holds)) name

instance (steps : Nat) : (reentry steps).Leads R := leads_nested steps []

theorem ensure_outcome (steps : Nat) (holds : List Hold) (name : String) (m : Machine) :
    Packages.RequestOutcome (runInitializer (nested steps holds)) name m
      ((ensure (steps + 1) holds name).on m) := Packages.ensure_outcome _ _ _

/-! ### Runs -/

/-- A change of the heap that depends on what a program sees. -/
theorem performs_modifySeen {step : Machine → Heap → Heap}
    (grows : ∀ (m : Machine) (h : Heap), h.Grows inspecting (step m h))
    (same : ∀ m, step m = step (m.world.machine (m.surroundings inspecting) {})) :
    Performs catching inspecting fun _ =>
      (modify fun m => { m with heap := step m m.heap } : Action Unit) := by
  have seen : Performs catching inspecting fun _ =>
      (do modifyHeap (step (← get)) : Action Unit) :=
    performs_see (fun m => performs_modifyHeap (grows m)) fun _ m => congrArg _ (same m)
  exact seen

theorem performs_defineGlobals (bindings : List (String × Datum)) :
    Performs catching inspecting fun _ => defineGlobals bindings :=
  .forM fun _ _ => .bind (performs_onHeap fun h => .build _ h) fun _ =>
    performs_modifySeen (fun _ h => .define h _ _ _) fun _ => rfl

theorem performs_installPrelude : Performs catching inspecting installPrelude :=
  .bind (Reentry.performs_ensure _) fun _ =>
    performs_modifySeen (fun _ h => .defineAll h _ _) fun _ => rfl

/-- What is built before a program runs. -/
theorem performs_build (setup : Setup) : Performs catching inspecting fun re => (do
    defineGlobals setup.globals
    if setup.withPrelude then installPrelude re else pure () : Action Unit) :=
  .bind (performs_defineGlobals setup.globals) fun _ => .ite performs_installPrelude (.pure _)

theorem related_start (setup : Setup) (finished : (start setup).1 ≠ .error .exhausted) :
    R (blank setup.config) (start setup).2 :=
  ((performs_build setup : Performs True True _).leads (reentry nestingBound)).related _ finished

theorem performs_run (e : Expr) (catches : e.catches = true → catching)
    (inspects : e.inspects = true → inspecting) :
    Performs catching inspecting fun re => runProgram re (evaluate re e) :=
  performs_runProgram fun scope => performs_evaluate e scope catches inspects

theorem related_runExpression (m : Machine) (e : Expr)
    (finished : (runExpression m e).1 ≠ .error .exhausted) : R m (runExpression m e).2 :=
  have runs : Performs True True fun re => runProgram re (evaluate re e) :=
    performs_run e (fun _ => trivial) fun _ => trivial
  (runs.leads (reentry nestingBound)).related m finished

end Interpreter

end ScriptCore
