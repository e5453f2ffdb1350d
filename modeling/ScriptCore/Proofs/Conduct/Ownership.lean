import ScriptCore.Proofs.Conduct.Course
import ScriptCore.Proofs.Conduct.Receivers

/-!
What instances own and how promises are settled, once and for all.

The resource of an instance is part of the instance, so no two instances own one and the same. A run
can change what a resource holds; but it cannot take the resource away or put another one in its
place, and it cannot settle a promise twice.
-/

namespace ScriptCore

/-! ### Kinds of stores -/

/-- A resource is a store of the type if it is of the kind of the type. -/
class StoreType.Faithful {σ : Type} (type : StoreType σ) : Prop where
  isSome_project : ∀ resource,
    (type.project resource).isSome = decide (resource.kind = type.kind)

namespace StoreType

instance : Faithful map := ⟨fun resource => by cases resource <;> rfl⟩
instance : Faithful set := ⟨fun resource => by cases resource <;> rfl⟩
instance : Faithful stack := ⟨fun resource => by cases resource <;> rfl⟩
instance : Faithful deque := ⟨fun resource => by cases resource <;> rfl⟩
instance : Faithful priority := ⟨fun resource => by cases resource <;> rfl⟩
instance : Faithful listeners := ⟨fun resource => by cases resource <;> rfl⟩

end StoreType

/-! ### Owning -/

section Owning

variable {n : Machine} {r : Ref .inst} {resource : Resource} (owns : n.heap.Owns r resource)

include owns

/-- Attaching to an instance that owns a resource says so, and does nothing. -/
theorem Action.on_attach_of_owns (other : Resource) :
    (attach r other).on n =
      (.error (.fault { cause := .alreadyOwns (n.heap.instanceClassName r) }), n) := by
  rw [attach, Run.on_bind, on_viewHeap, Heap.checkUnowned, Heap.resource_of_owns owns]
  rfl

/-- The store of a type is found exactly if the resource is of the kind of the type. -/
theorem Heap.store_eq_ok_iff {σ : Type} (type : StoreType σ) [type.Faithful] (operation : String) :
    (∃ store, n.heap.store type operation r = .ok store) ↔ type.kind = resource.kind := by
  have faithful : (type.project resource).isSome = decide (resource.kind = type.kind) :=
    StoreType.Faithful.isSome_project resource
  rw [Heap.store, Heap.store?, Heap.resource_of_owns owns, Option.bind_some]
  cases found : type.project resource with
  | none =>
    rw [found] at faithful
    have other := of_decide_eq_false faithful.symm
    exact ⟨by rintro ⟨_, ⟨⟩⟩, fun same => absurd same.symm other⟩
  | some store =>
    rw [found] at faithful
    exact ⟨fun _ => (of_decide_eq_true faithful.symm).symm, fun _ => ⟨store, rfl⟩⟩

/-- What a resource is can be told if it is taken for one of its kind, and for no other. -/
theorem Operations.on_describeResource (kind : ResourceKind) (operation : String) :
    (kind = resource.kind → ∃ v n', (describeResource r kind operation).on n = (.ok v, n')) ∧
    (kind ≠ resource.kind → (describeResource r kind operation).on n = (.error (.fault
      { cause := .typeMismatch operation kind.typeName (n.heap.instanceClassName r) }), n)) := by
  have has := Heap.resource_of_owns owns
  simp only [describeResource, Run.on_bind, Action.on_readHeap, has]
  constructor
  · rintro rfl
    rw [if_pos rfl]
    split
    · exact ⟨_, _, rfl⟩
    · exact ⟨_, _, rfl⟩
  · intro other
    rw [if_neg (Ne.symm other)]
    rfl

end Owning

/-! ### Constructors -/

namespace Interpreter

/-- The constructor of a native class fails on an instance that owns a resource, and no instance
changes. -/
theorem perform_constructor_of_owns (re : Reentry) {m : Machine} {r : Ref .inst}
    {resource : Resource} (owns : m.heap.Owns r resource) {f : Ref .function} {name : String}
    {action : NativeAction} (native : m.heap.callable f = .native name action)
    (constructor : action.isConstructor) (args : List Value) :
    ∃ failure m', (perform re f args (some (.inst r))).on m = (.error failure, m') ∧
      m'.heap.instances = m.heap.instances := by
  obtain ⟨scope, m', performs, bound, same⟩ := on_perform_bound re native (.inst r) args
  have owns' : m'.heap.Owns r resource := by
    rw [Heap.Owns, Heap.owner, same]
    exact owns
  obtain ⟨failure, failed⟩ :=
    failsAt_performNative_of_owns re scope args m' constructor bound owns'
  exact ⟨failure, m', performs.trans failed, same⟩

/-- Calling the constructor fails, and after the safe point of the call no instance changes. -/
theorem invoke_constructor_of_owns {n : Machine} {r : Ref .inst} {resource : Resource}
    (owns : n.heap.Owns r resource) {f : Ref .function} {name : String} {action : NativeAction}
    (native : n.heap.functions.get? f = some (.native name action))
    (constructor : action.isConstructor) (steps : Nat) (holds : List Hold) (args : List Value) :
    ∃ failure n', (invoke (steps + 1) holds f args (some (.inst r))).on n = (.error failure, n') ∧
      ∀ polled,
        (Invocation.poll (inside steps holds f args (some (.inst r)))).on n = (.ok (), polled) →
        n'.heap.instances = polled.heap.instances := by
  have outcome := invoke_outcome steps holds f args (some (.inst r)) (m := n)
  generalize (invoke (steps + 1) holds f args (some (.inst r))).on n = result at outcome ⊢
  cases outcome with
  | @interrupted failure n' failed =>
    refine ⟨failure, n', rfl, fun polled safe => ?_⟩
    cases failed.symm.trans safe
  | @refused cause polled safe full =>
    refine ⟨_, _, rfl, fun polled' safe' => ?_⟩
    cases safe.symm.trans safe'
    rfl
  | @entered calls polled safe room =>
    -- Handlers may have run at the safe point, but the instance still owns a resource.
    have grows := (later_polled safe).grows
    obtain ⟨now, owns', -⟩ := grows.owns owns
    have entered : (polled.entering f calls).heap.Owns r now := owns'
    have native' : (polled.entering f calls).heap.callable f = .native name action := by
      rw [Machine.entering, Heap.callable, grows.functions f _ native, Option.getD_some]
    obtain ⟨failure, m', performs, same⟩ := perform_constructor_of_owns
      (inside steps holds f args (some (.inst r))) entered native' constructor args
    have works : (work steps holds f args (some (.inst r))).on (polled.entering f calls) =
        (.error failure, m') := performs
    obtain ⟨failure', traced⟩ := Invocation.on_traced_of_error works
    refine ⟨failure', Invocation.leave f m', ?_, fun polled' safe' => ?_⟩
    · rw [traced, works]
    · cases safe.symm.trans safe'
      exact same

end Interpreter

/-! ### Owning for good -/

/-- The instance owns the resource, and no other can be attached to it: not by a program, and not by
a constructor that is called on it. The resource can be used as what it is, and as nothing else. -/
structure OwnsForGood (r : Ref .inst) (resource : Resource) (n : Machine) : Prop where
  owns : n.heap.Owns r resource
  attach : ∀ other, (Action.attach r other).on n =
    (.error (.fault { cause := .alreadyOwns (n.heap.instanceClassName r) }), n)
  construct : ∀ steps holds f name action args,
    n.heap.functions.get? f = some (.native name action) → action.isConstructor →
      ∃ failure n', (Interpreter.invoke (steps + 1) holds f args (some (.inst r))).on n =
          (.error failure, n') ∧
        ∀ polled, (Invocation.poll (Interpreter.inside steps holds f args (some (.inst r)))).on n =
            (.ok (), polled) →
          n'.heap.instances = polled.heap.instances
  describe : ∀ kind operation,
    (kind = resource.kind →
      ∃ v n', (Operations.describeResource r kind operation).on n = (.ok v, n')) ∧
    (kind ≠ resource.kind → (Operations.describeResource r kind operation).on n = (.error (.fault
      { cause := .typeMismatch operation kind.typeName (n.heap.instanceClassName r) }), n))
  store : ∀ {σ : Type} (type : StoreType σ) [type.Faithful] operation,
    (∃ store, n.heap.store type operation r = .ok store) ↔ type.kind = resource.kind

theorem ownsForGood {r : Ref .inst} {resource : Resource} {n : Machine}
    (owns : n.heap.Owns r resource) : OwnsForGood r resource n where
  owns := owns
  attach := Action.on_attach_of_owns owns
  construct steps holds _ _ _ args native constructor :=
    Interpreter.invoke_constructor_of_owns owns native constructor steps holds args
  describe := Operations.on_describeResource owns
  store type := Heap.store_eq_ok_iff owns type

/-- The promise has the outcome, and can be neither fulfilled nor rejected. -/
structure SettledForGood (p : Ref .promise) (outcome : Promise) (n : Machine) : Prop where
  found : n.heap.promises.get? p = some outcome
  settle : ∀ other, (Action.settle p other).on n =
    (.error (.fault { cause := .alreadySettled outcome.stateName }), n)

theorem settledForGood {p : Ref .promise} {outcome : Promise} {n : Machine}
    (found : n.heap.promises.get? p = some outcome) (settled : outcome.isPending = false) :
    SettledForGood p outcome n where
  found := found
  settle other := by
    rw [Action.settle, Run.on_bind, Action.on_viewHeap, Heap.checkPending, Heap.promise, found,
      Option.getD_some, settled]
    rfl

/-! ### Whole runs -/

namespace Interpreter

/-- At every later machine, an instance that owns a resource owns one of the same kind for good, and
a promise that is settled is so for good. The machines that a program visits are later than its
beginning, and each of them is later or earlier than every other one. Changing the store of an
instance, or running a native function that calls nothing back on it, leaves what any other instance
owns. -/
theorem ownership_and_outcomes_last (m : Machine) :
    (∀ n, Later m n →
      (∀ r resource, m.heap.Owns r resource →
        ∃ now, now.kind = resource.kind ∧ OwnsForGood r now n) ∧
      ∀ p outcome, m.heap.promises.get? p = some outcome → outcome.isPending = false →
        SettledForGood p outcome n) ∧
    (∀ e, (runExpression m e).1 ≠ .error .exhausted → ∀ n, Visits m e n →
      Later m n ∧ Later n (runExpression m e).2 ∧
        ∀ n', Visits m e n' → Later n n' ∨ Later n' n) ∧
    (∀ {σ : Type} (type : StoreType σ) step r s resource, r ≠ s → m.heap.Owns s resource →
      (m.changeStore type r step).heap.Owns s resource) ∧
    ∀ re action scope args s resource, action.isStoreOperation → m.heap.Owns s resource →
      action.subject (m.heap.lookupLocal scope receiverName) args ≠ some s →
      ((performNative re action scope args).on m).2.heap.Owns s resource := by
  refine ⟨fun n later => ⟨?_, ?_⟩, fun e finished n visits => ?_, ?_, ?_⟩
  · intro r resource owns
    obtain ⟨now, owns', kind⟩ := later.grows.owns owns
    exact ⟨now, kind, ownsForGood owns'⟩
  · intro p outcome found settled
    exact settledForGood (later.grows.promises p outcome found settled) settled
  · obtain ⟨before, behind⟩ := visits.later finished
    exact ⟨before, behind, fun n' visits' => visits.ordered finished visits'⟩
  · intro σ type step r s resource apart owns
    have frame : m.heap.Frame (some r) (m.changeStore type r step).heap :=
      .changeStore m.heap type r step
    exact frame.owner_eq owns fun same => apart (Option.some.inj same)
  · intro re action scope args s resource silent owns other
    exact (atomicAt_performNative re scope args m silent).owner_eq owns other

/-- A machine with global variables that hold a Stack, its constructor and a fulfilled promise. -/
def stacked : Machine := .fresh
  { functions := ⟨#[.native "Stack" (.stack .construct), .native "Stack.push" (.stack .push)]⟩
    classes := ⟨#[{ name := "Stack", native := true, methods := .ofList [("push", ⟨1⟩)] }]⟩
    instances := ⟨#[{ cls := ⟨0⟩, resource := some (.stack .empty) }]⟩
    promises := ⟨#[.fulfilled .null]⟩
    scopes := ⟨#[{ bindings := .ofList [("stack", .inst ⟨0⟩), ("Stack", .function ⟨0⟩),
      ("done", .promise ⟨0⟩)] }]⟩ }

/-- A program that pushes onto the Stack, and then tries to construct it again and to reject the
promise. -/
def pushing : Expr :=
  .block [.apply (.send "push") [.apply (.readName "stack") [], .literal (.boolean true)],
    .attempt (.apply .callBound [.apply (.readName "Stack") [], .apply (.readName "stack") []]),
    .attempt (.apply .reject [.apply (.readName "done") [], .literal (.boolean true)])]

/-- The Stack is left with what was pushed, and the promise as it was. -/
theorem ownership_and_outcomes_last_pushing :
    (runExpression stacked pushing).1 ≠ .error .exhausted ∧
      (runExpression stacked pushing).2.heap.Owns ⟨0⟩ (.stack ⟨[.boolean true], 1, rfl⟩) ∧
      (∃ now, now.kind = .stack ∧ OwnsForGood ⟨0⟩ now (runExpression stacked pushing).2) ∧
      SettledForGood ⟨0⟩ (.fulfilled .null) (runExpression stacked pushing).2 := by
  have finished : (runExpression stacked pushing).1 ≠ .error .exhausted := by decide +kernel
  obtain ⟨lasts, visited, -⟩ := ownership_and_outcomes_last stacked
  obtain ⟨later, -⟩ := visited pushing finished _ .ends
  obtain ⟨owning, settled⟩ := lasts _ later
  have owns : stacked.heap.Owns ⟨0⟩ (.stack .empty) := rfl
  have fulfilled : stacked.heap.promises.get? ⟨0⟩ = some (.fulfilled .null) := rfl
  have pushed : (runExpression stacked pushing).2.heap.owner ⟨0⟩ =
      some (some (.stack ⟨[.boolean true], 1, rfl⟩)) := by decide +kernel
  exact ⟨finished, pushed, owning ⟨0⟩ _ owns, settled ⟨0⟩ _ fulfilled rfl⟩

end Interpreter

end ScriptCore
