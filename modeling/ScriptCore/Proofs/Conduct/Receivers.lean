import ScriptCore.Proofs.Collections.Calls
import ScriptCore.Proofs.Conduct.Balance
import ScriptCore.Proofs.Index.View

/-!
Which receiver a native function finds.

A native function looks its receiver up in the scope of its call. A bound call has a scope of its
own, in which the receiver is bound; a call without a receiver runs in the global scope, and finds
there what a global variable of the receiver's name holds. If there is none, a method of a native
class fails and leaves everything as it is: for want of a receiver, or else for arguments that it
takes from no receiver.
-/

namespace ScriptCore

/-! ### Finding the receiver -/

theorem Heap.lookupLocal_define {h : Heap} {s : Ref .scope} {scope : Scope}
    (present : h.scopes.get? s = some scope) (name : String) (value : Value) :
    (h.define s name value).lookupLocal s name = some value := by
  simp [lookupLocal, Heap.scope, define, Cells.get?_modify, present, OrderedIndex.get?_set]

theorem Heap.get?_childScope (h : Heap) (parent : Ref .scope) :
    (h.childScope parent).2.scopes.get? (h.childScope parent).1 = some { parent := some parent } :=
  (Cells.get?_alloc _ _ _).trans (if_pos rfl)

namespace Invocation

/-- What a native function that is called with the given receiver finds as its receiver. -/
def foundReceiver (this : Option Value) : Action (Option Value) := do
  let scope ← nativeScope this
  scopeReceiver scope

/-- Without a receiver it finds what the global scope binds. -/
theorem on_foundReceiver_unbound (m : Machine) :
    (foundReceiver none).on m = (.ok (m.heap.lookupLocal m.globals receiverName), m) := rfl

/-- A receiver is found, whatever the global scope binds. -/
theorem on_foundReceiver_bound (receiver : Value) (m : Machine) :
    ((foundReceiver (some receiver)).on m).1 = .ok (some receiver) := by
  have found := Heap.lookupLocal_define (m.heap.get?_childScope m.globals) receiverName receiver
  exact congrArg Except.ok found

end Invocation

/-! ### Methods without a receiver -/

section NeedsReceiver

variable {α β : Type} {label : String} {m : Machine}

/-- Without a receiver a method fails and leaves the machine as it is: because it needs one, or
because of something that makes it fail on every receiver. -/
def NeedsReceiver (label : String) (method : Option Value → Action α) (m : Machine) : Prop :=
  ∃ cause, (method none).on m = (.error (.fault { cause }), m) ∧
    (cause = .typeMismatch label "instance receiver" "unbound call" ∨
      ∀ this, (method this).on m = (.error (.fault { cause }), m))

namespace NeedsReceiver

/-- A check that has nothing to do with the receiver. -/
theorem check_bind {result : Except Cause β} {next : Option Value → β → Action α}
    (needs : ∀ b, result = .ok b → NeedsReceiver label (fun this => next this b) m) :
    NeedsReceiver label (fun this => Action.check result >>= next this) m := by
  cases result with
  | error cause => exact ⟨cause, rfl, .inr fun _ => rfl⟩
  | ok b => exact needs b rfl

theorem viewHeap_bind {view : Heap → Except Cause β} {next : Option Value → β → Action α}
    (needs : ∀ b, NeedsReceiver label (fun this => next this b) m) :
    NeedsReceiver label (fun this => Action.viewHeap view >>= next this) m :=
  check_bind fun b _ => needs b

theorem readHeap_bind {view : Heap → β} {next : Option Value → β → Action α}
    (needs : ∀ b, NeedsReceiver label (fun this => next this b) m) :
    NeedsReceiver label (fun this => Action.readHeap view >>= next this) m := needs (view m.heap)

theorem get_bind {next : Option Value → Machine → Action α}
    (needs : NeedsReceiver label (fun this => next this m) m) :
    NeedsReceiver label (fun this => get >>= next this) m := needs

/-- What comes after the step that needs a receiver is not reached. -/
theorem bind {method : Option Value → Action β} (needs : NeedsReceiver label method m)
    (next : Option Value → β → Action α) :
    NeedsReceiver label (fun this => method this >>= next this) m := by
  obtain ⟨cause, failed, why⟩ := needs
  refine ⟨cause, by rw [Run.on_bind, failed], why.imp_right fun always this => ?_⟩
  rw [Run.on_bind, always]

theorem receiver (label : String) (m : Machine) :
    NeedsReceiver label (fun this => Action.check (Arguments.receiver label this)) m :=
  ⟨_, rfl, .inl rfl⟩

theorem attachToReceiver (resource : Resource) :
    NeedsReceiver label (fun this => Native.attachToReceiver label this resource) m :=
  (receiver label m).bind _

variable {σ : Type} (type : StoreType σ)

theorem readStore (view : σ → α) :
    NeedsReceiver label (fun this => Native.readStore type label this view) m :=
  (receiver label m).bind _

theorem useStore (view : σ → α) (step : σ → σ) :
    NeedsReceiver label (fun this => Native.useStore type label this view step) m :=
  (receiver label m).bind _

theorem changeStore (step : σ → σ) :
    NeedsReceiver label (fun this => Native.changeStore type label this step) m :=
  useStore type _ step

end NeedsReceiver

end NeedsReceiver

section Methods

open NeedsReceiver

variable (re : Reentry) (args : List Value) (m : Machine)

theorem MapMethod.needsReceiver (method : MapMethod) :
    NeedsReceiver method.label (fun this => method.call re this args) m := by
  cases method with
  | construct =>
    exact check_bind fun _ _ => viewHeap_bind fun store => attachToReceiver (.map store)
  | set => exact check_bind fun _ _ => readHeap_bind fun k => (receiver _ m).bind _
  | get | has => exact check_bind fun _ _ => readHeap_bind fun k => readStore .map _
  | delete => exact check_bind fun _ _ => readHeap_bind fun k => useStore .map _ _
  | size => exact check_bind fun _ _ => readStore .map _
  | clear => exact check_bind fun _ _ => changeStore .map _
  | keys | values | entries => exact check_bind fun _ _ => (readStore .map _).bind _
  | forEach =>
    exact check_bind fun _ _ => check_bind fun callback _ => (readStore .map _).bind _

theorem SetMethod.needsReceiver (method : SetMethod) :
    NeedsReceiver method.label (fun this => method.call re this args) m := by
  cases method with
  | construct =>
    exact check_bind fun _ _ => viewHeap_bind fun store => attachToReceiver (.set store)
  | add => exact check_bind fun _ _ => readHeap_bind fun k => (receiver _ m).bind _
  | has => exact check_bind fun _ _ => readHeap_bind fun k => readStore .set _
  | delete => exact check_bind fun _ _ => readHeap_bind fun k => useStore .set _ _
  | size => exact check_bind fun _ _ => readStore .set _
  | clear => exact check_bind fun _ _ => changeStore .set _
  | values => exact check_bind fun _ _ => (readStore .set _).bind _
  | forEach =>
    exact check_bind fun _ _ => check_bind fun callback _ => (readStore .set _).bind _

theorem SetAlgebra.needsReceiver (operation : SetAlgebra) (cls : Ref .cls) :
    NeedsReceiver operation.label (fun this => operation.call re cls this args) m :=
  check_bind fun _ _ => get_bind <| check_bind fun _ _ => (readStore .set id).bind _

theorem StackMethod.needsReceiver (method : StackMethod) :
    NeedsReceiver method.label (fun this => method.call this args) m := by
  cases method with
  | construct => exact check_bind fun _ _ => attachToReceiver (.stack .empty)
  | push | pop => exact check_bind fun _ _ => useStore .stack _ _
  | peek | size | isEmpty => exact check_bind fun _ _ => readStore .stack _
  | clear => exact check_bind fun _ _ => changeStore .stack _
  | toArray => exact check_bind fun _ _ => (readStore .stack _).bind _

theorem DequeMethod.needsReceiver (method : DequeMethod) :
    NeedsReceiver method.label (fun this => method.call this args) m := by
  cases method with
  | construct => exact check_bind fun _ _ => attachToReceiver (.deque .empty)
  | push | unshift | pop | shift => exact check_bind fun _ _ => useStore .deque _ _
  | peekFront | peekBack | size | isEmpty => exact check_bind fun _ _ => readStore .deque _
  | clear => exact check_bind fun _ _ => changeStore .deque _
  | toArray => exact check_bind fun _ _ => (readStore .deque _).bind _

theorem QueueMethod.needsReceiver (method : QueueMethod) :
    NeedsReceiver method.label (fun this => method.call this args) m := by
  cases method with
  | construct =>
    exact check_bind fun _ _ => check_bind fun order _ =>
      attachToReceiver (.priority (.empty order))
  | push => exact check_bind fun _ _ => check_bind fun priority _ => useStore .priority _ _
  | pop => exact check_bind fun _ _ => useStore .priority _ _
  | peek | size | isEmpty => exact check_bind fun _ _ => readStore .priority _
  | clear => exact check_bind fun _ _ => changeStore .priority _

theorem BusMethod.needsReceiver (method : BusMethod) :
    NeedsReceiver method.label (fun this => method.call re this args) m := by
  cases method with
  | construct => exact check_bind fun _ _ => attachToReceiver (.listeners .empty)
  | receive =>
    exact check_bind fun _ _ => check_bind fun signal _ => check_bind fun listener _ =>
      changeStore .listeners _
  | emit =>
    exact check_bind fun _ _ => check_bind fun signal _ => (readStore .listeners _).bind _
  | off =>
    exact check_bind fun _ _ => check_bind fun signal _ => check_bind fun listener _ =>
      useStore .listeners _ _
  | listenerCount =>
    exact check_bind fun _ _ => check_bind fun signal _ => readStore .listeners _
  | signals => exact check_bind fun _ _ => (readStore .listeners _).bind _

/-- The method of a native class that an action calls on the receiver that it finds, with its name
in messages. -/
def NativeAction.method? (re : Reentry) :
    NativeAction → Option (String × (Option Value → List Value → Action Value))
  | map method => some (method.label, method.call re)
  | set method => some (method.label, method.call re)
  | setAlgebra operation cls => some (operation.label, operation.call re cls)
  | stack method => some (method.label, method.call)
  | deque method => some (method.label, method.call)
  | queue method => some (method.label, method.call)
  | bus method => some (method.label, method.call re)
  | _ => none

variable {re} {action : NativeAction} {method : Option Value → List Value → Action Value}
  {label : String}

/-- Every method of a native class needs a receiver. -/
theorem NativeAction.needsReceiver (isMethod : action.method? re = some (label, method)) :
    NeedsReceiver label (fun this => method this args) m := by
  cases action with
  | map method => cases isMethod; exact method.needsReceiver re args m
  | set method => cases isMethod; exact method.needsReceiver re args m
  | setAlgebra operation cls => cases isMethod; exact operation.needsReceiver re args m cls
  | stack method => cases isMethod; exact method.needsReceiver args m
  | deque method => cases isMethod; exact method.needsReceiver args m
  | queue method => cases isMethod; exact method.needsReceiver args m
  | bus method => cases isMethod; exact method.needsReceiver re args m
  | _ => cases isMethod

theorem Interpreter.performNative_of_method (isMethod : action.method? re = some (label, method))
    (scope : Ref .scope) :
    performNative re action scope args =
      Invocation.scopeReceiver scope >>= fun this => method this args := by
  cases action <;> cases isMethod <;> rfl

end Methods

/-! ### Calls with and without a receiver -/

namespace Interpreter

/-- Without a receiver a method of a native class runs on what the global scope binds. -/
theorem on_perform_unbound (re : Reentry) {callee : Ref .function} {name label : String}
    {action : NativeAction} {method : Option Value → List Value → Action Value} {m : Machine}
    (native : m.heap.callable callee = .native name action)
    (isMethod : action.method? re = some (label, method)) (args : List Value) :
    (perform re callee args none).on m =
      (method (m.heap.lookupLocal m.globals receiverName) args).on m := by
  rw [on_perform, native, performCallable,
    Run.on_bind_of_ok (show (Invocation.nativeScope none).on m = (.ok m.globals, m) from rfl),
    performNative_of_method args isMethod]
  rfl

/-- A native function that is called with a receiver finds it, and no instance has changed. -/
theorem on_perform_bound (re : Reentry) {callee : Ref .function} {name : String}
    {action : NativeAction} {m : Machine} (native : m.heap.callable callee = .native name action)
    (receiver : Value) (args : List Value) :
    ∃ scope m', (perform re callee args (some receiver)).on m =
        (performNative re action scope args).on m' ∧
      m'.heap.lookupLocal scope receiverName = some receiver ∧
      m'.heap.instances = m.heap.instances := by
  let child := m.heap.childScope m.globals
  refine ⟨child.1, { m with heap := child.2.define child.1 receiverName receiver }, ?_, ?_, rfl⟩
  · rw [on_perform, native]
    rfl
  · exact Heap.lookupLocal_define (m.heap.get?_childScope m.globals) receiverName receiver

section Unbound

variable (steps : Nat) (holds : List Hold) (callee : Ref .function) (args : List Value)
  {m polled : Machine} {name label : String} {action : NativeAction} {calls : CallStack}
  {method : Option Value → List Value → Action Value}
  (native : polled.heap.callable callee = .native name action)
  (isMethod : action.method? (inside steps holds callee args none) = some (label, method))
  (safe : (Invocation.poll (inside steps holds callee args none)).on m = (.ok (), polled))
  (room : polled.calls.push (polled.heap.functionName callee) = .ok calls)

include native isMethod safe room

theorem invoke_method_unbound :
    (invoke (steps + 1) holds callee args none).on m =
      (((Invocation.traced
          (method (polled.heap.lookupLocal polled.globals receiverName) args)).on
            (polled.entering callee calls)).1,
        Invocation.leave callee ((method (polled.heap.lookupLocal polled.globals receiverName)
          args).on (polled.entering callee calls)).2) := by
  have runs : (work steps holds callee args none).on (polled.entering callee calls) = _ :=
    on_perform_unbound _ (m := polled.entering callee calls) native isMethod args
  rw [invoke_of_room steps holds callee args none safe room, Invocation.on_traced_congr runs, runs]
  rfl

theorem invoke_method_receiverless
    (absent : polled.heap.lookupLocal polled.globals receiverName = none) :
    ∃ cause, (invoke (steps + 1) holds callee args none).on m =
        (.error (.fault { cause, trace := some calls.capture }),
          Invocation.leave callee (polled.entering callee calls)) ∧
      (cause = .typeMismatch label "instance receiver" "unbound call" ∨
        ∀ this, (method this args).on (polled.entering callee calls) =
          (.error (.fault { cause }), polled.entering callee calls)) := by
  obtain ⟨cause, failed, why⟩ :=
    NativeAction.needsReceiver args (polled.entering callee calls) isMethod
  refine ⟨cause, ?_, why⟩
  obtain ⟨rfl, -⟩ := CallStack.push_eq_ok_iff.1 room
  rw [invoke_method_unbound steps holds callee args native isMethod safe room, absent, failed,
    Invocation.on_traced_of_fault failed]
  rfl

end Unbound

/-- A native function that is called without a receiver finds as its receiver what the global scope
binds under the receiver's name, so it finds none exactly if nothing is bound there; one that is
called with a receiver finds that receiver. A method of a native class runs on what it finds. If it
finds nothing the call fails with the trace of the calls that are active, and leaves everything as
it was when the call was entered: the method needs a receiver, unless its arguments make it fail on
every receiver. A call whose safe point fails, or that is refused, does not come to that. -/
theorem invoke_unbound (steps : Nat) (holds : List Hold) (callee : Ref .function)
    (args : List Value) {m polled : Machine} {answer : Except Failure Unit}
    (safe : (Invocation.poll (inside steps holds callee args none)).on m = (answer, polled))
    {name : String} {action : NativeAction}
    (native : polled.heap.callable callee = .native name action) :
    let found := polled.heap.lookupLocal polled.globals receiverName
    let outcome := (invoke (steps + 1) holds callee args none).on m
    (∀ calls,
      ((Invocation.foundReceiver none).on (polled.entering callee calls)).1 = .ok found ∧
      ∀ receiver, ((Invocation.foundReceiver (some receiver)).on
        (polled.entering callee calls)).1 = .ok (some receiver)) ∧
    ∀ label method,
      action.method? (inside steps holds callee args none) = some (label, method) →
      (found = none → (∃ failure, outcome.1 = .error failure) ∧ outcome.2.heap = polled.heap) ∧
      (answer = .ok () → ∀ calls,
        polled.calls.push (polled.heap.functionName callee) = .ok calls →
        let entered := polled.entering callee calls
        outcome = (((Invocation.traced (method found args)).on entered).1,
          Invocation.leave callee ((method found args).on entered).2) ∧
        (found = none → ∃ cause,
          outcome = (.error (.fault { cause, trace := some calls.capture }),
            Invocation.leave callee entered) ∧
          (cause = .typeMismatch label "instance receiver" "unbound call" ∨
            ∀ this, (method this args).on entered = (.error (.fault { cause }), entered)))) := by
  refine ⟨fun calls => ⟨congrArg Prod.fst (Invocation.on_foundReceiver_unbound _),
      fun receiver => Invocation.on_foundReceiver_bound receiver _⟩,
    fun label method isMethod => ⟨fun absent => ?_, ?_⟩⟩
  · have comes := invoke_outcome steps holds callee args none (m := m)
    generalize told : (invoke (steps + 1) holds callee args none).on m = result at comes ⊢
    cases comes with
    | interrupted failed =>
      cases safe.symm.trans failed
      exact ⟨⟨_, rfl⟩, rfl⟩
    | refused safe' =>
      cases safe.symm.trans safe'
      exact ⟨⟨_, rfl⟩, rfl⟩
    | entered safe' room =>
      cases safe.symm.trans safe'
      obtain ⟨cause, outcome, -⟩ :=
        invoke_method_receiverless steps holds callee args native isMethod safe room absent
      rw [← told, outcome]
      exact ⟨⟨_, rfl⟩, rfl⟩
  · rintro rfl calls room
    exact ⟨invoke_method_unbound steps holds callee args native isMethod safe room,
      invoke_method_receiverless steps holds callee args native isMethod safe room⟩

/-- The store of a Set with one member. -/
def oneMember : SetStore := .insert .empty .null .null

/-- A machine with a Set, the function that clears Sets, and a global scope that binds nothing. -/
def receiverless : Machine := .fresh
  { functions := ⟨#[.native "Set.clear" (.set .clear)]⟩
    instances := ⟨#[{ cls := ⟨0⟩, resource := some (.set oneMember) }]⟩
    scopes := ⟨#[{}]⟩ }

/-- Called without a receiver, the function fails and the Set keeps its member. -/
theorem invoke_unbound_receiverless :
    (Invocation.poll (inside 0 [] ⟨0⟩ [] none)).on receiverless =
        (.ok (), receiverless.dispatchBegun.dispatchOver) ∧
      ((∃ failure, ((invoke 1 [] ⟨0⟩ [] none).on receiverless).1 = .error failure) ∧
        ((invoke 1 [] ⟨0⟩ [] none).on receiverless).2.heap = receiverless.heap) ∧
      ∃ m', (invoke 1 [] ⟨0⟩ [] none).on receiverless =
        (.error (.fault
          { cause := .typeMismatch "Set.clear" "instance receiver" "unbound call"
            trace := some ["Set.clear"] }), m') := by
  have safe : (Invocation.poll (inside 0 [] ⟨0⟩ [] none)).on receiverless =
      (.ok (), receiverless.dispatchBegun.dispatchOver) := rfl
  have native : (receiverless.dispatchBegun.dispatchOver).heap.callable ⟨0⟩ =
      .native "Set.clear" (.set .clear) := rfl
  obtain ⟨-, runs⟩ := invoke_unbound 0 [] ⟨0⟩ [] safe native
  obtain ⟨fails, -⟩ := runs _ _ rfl
  exact ⟨safe, fails rfl, _, rfl⟩

/-- The same machine with a global variable of the receiver's name that holds the Set. -/
def receiving : Machine :=
  { receiverless with heap := receiverless.heap.define ⟨0⟩ receiverName (.inst ⟨0⟩) }

/-- A call without a receiver clears the Set that a global variable holds, while in the machine
without that variable it fails. -/
theorem invoke_unbound_clears :
    (receiving.heap.Owns ⟨0⟩ (.set oneMember) ∧ oneMember.size = 1) ∧
      (∃ m', (invoke 1 [] ⟨0⟩ [] none).on receiving = (.ok .null, m') ∧
        m'.heap.Owns ⟨0⟩ (.set .empty)) ∧
      ∃ failure, ((invoke 1 [] ⟨0⟩ [] none).on receiverless).1 = .error failure :=
  ⟨⟨rfl, rfl⟩, ⟨_, rfl, rfl⟩, _, rfl⟩

end Interpreter

end ScriptCore
