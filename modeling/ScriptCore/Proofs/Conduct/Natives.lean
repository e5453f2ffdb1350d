import ScriptCore.Proofs.Conduct.Routines

/-!
Native functions perform routines.

A native function acts through the actions on the heap and through the ways back into the
interpreter, and none of them catches anything: whatever the functions that it calls do, the first
one that fails ends it.
-/

namespace ScriptCore

open ScriptCore.Action

variable {catching inspecting : Prop}

/-! ### Actions -/

section Actions

variable {α β : Type}

/-- The heap after a change that is made only if the heap passes a test. -/
def Heap.tested (test : Heap → Except Cause Unit) (step : Heap → Heap) (h : Heap) : Heap :=
  match test h with
  | .ok () => step h
  | .error _ => h

namespace Action

/-- A fault is raised without a trace. Its cause may depend on what is held. -/
theorem performs_failHeld (cause : List Hold → Cause) :
    Performs catching inspecting fun re => (fail (cause re.holds) : Action α) :=
  .of_on (fun holds _ _ => .error (.fault { cause := cause holds })) id [] (fun _ _ => rfl) .refl
    fun _ _ _ fault raised => by cases raised; rfl

theorem performs_fail (cause : Cause) :
    Performs catching inspecting fun _ => (fail cause : Action α) :=
  performs_failHeld fun _ => cause

theorem performs_check (result : Except Cause α) :
    Performs catching inspecting fun _ => check result := by
  cases result with
  | ok a => exact .pure a
  | error cause => exact performs_fail cause

section Seeing

variable {ε : Type} [Failing ε] {view : Reentry → Machine → Run ε β}
  (each : ∀ m, Performs catching inspecting fun re => view re m)

include each

/-- What depends on the machine only by what a program sees of it. -/
theorem performs_see
    (same : ∀ re m, view re m = view re (m.world.machine (m.surroundings inspecting) {})) :
    Performs catching inspecting fun re => get >>= view re := by
  choose routine runs using each
  refine ⟨fun holds s w => routine (w.machine s {}) holds s w, fun re m => ?_⟩
  have read : (get : Run ε Machine).on m = (.ok m, m) := rfl
  refine (Run.on_bind_of_ok read (view re)).trans ?_
  rw [same]
  exact runs _ re m

/-- What also depends on the settings, where looking at them is allowed. -/
theorem performs_inspect (allowed : inspecting)
    (same : ∀ re m, view re m = view re (m.world.machine (m.surroundings inspecting) m.config)) :
    Performs catching inspecting fun re => get >>= view re := by
  choose routine runs using each
  refine ⟨fun holds s w => routine (w.machine s (s.settings allowed)) holds s w, fun re m => ?_⟩
  have read : (get : Run ε Machine).on m = (.ok m, m) := rfl
  refine (Run.on_bind_of_ok read (view re)).trans ?_
  rw [same]
  exact runs _ re m

end Seeing

theorem performs_readHeap (view : Heap → α) :
    Performs catching inspecting fun _ => readHeap view :=
  performs_see (fun _ => .pure _) fun _ _ => rfl

theorem performs_viewHeap (view : Heap → Except Cause α) :
    Performs catching inspecting fun _ => viewHeap view :=
  performs_see (fun _ => performs_check _) fun _ _ => rfl

theorem performs_step (step : World → World) (told : List Event)
    (own : ∀ w, World.Step inspecting w told (step w)) :
    Performs catching inspecting fun _ =>
      (modify fun m => m.inWorld (step m.world) told : Action Unit) :=
  .of_on (fun _ _ _ => .ok ()) step told (fun _ _ => rfl) (fun w => .single (own w))
    fun _ _ _ _ => nofun

theorem performs_onHeap {step : Heap → α × Heap}
    (grows : ∀ h : Heap, h.Grows inspecting (step h).2) :
    Performs catching inspecting fun _ => onHeap step :=
  .of_on (fun _ _ w => .ok (step w.heap).1) (fun w => { w with heap := (step w.heap).2 }) []
    (fun _ _ => rfl) (fun w => .single (.heap (grows w.heap))) fun _ _ _ _ => nofun

theorem performs_modifyHeap {step : Heap → Heap} (grows : ∀ h : Heap, h.Grows inspecting (step h)) :
    Performs catching inspecting fun _ => modifyHeap step :=
  performs_step (fun w => { w with heap := step w.heap }) [] fun w => .heap (grows w.heap)

theorem performs_tested {test : Heap → Except Cause Unit} {step : Heap → Heap}
    (grows : ∀ h : Heap, test h = .ok () → h.Grows inspecting (step h)) :
    Performs catching inspecting fun _ => (do
      viewHeap test
      modifyHeap step : Action Unit) := by
  refine .of_on (fun _ _ w => (test w.heap).mapError fun cause => .fault { cause })
    (fun w => { w with heap := w.heap.tested test step }) [] (fun re m => ?_)
    (fun w => .single (.heap ?_)) fun _ _ w fault failed => ?_
  · have world : m.world.heap = m.heap := rfl
    rw [Run.on_bind, on_viewHeap, world, Heap.tested]
    cases test m.heap <;> rfl
  · rw [Heap.tested]
    cases passed : test w.heap with
    | ok => exact grows w.heap passed
    | error => exact .refl w.heap
  · cases refused : test w.heap with
    | ok =>
      rw [refused] at failed
      cases failed
    | error cause =>
      rw [refused] at failed
      cases failed
      rfl

theorem performs_newArray (items : List Value) :
    Performs catching inspecting fun _ => newArray items :=
  performs_onHeap fun h => .newArray h items

theorem performs_newObject (entries : Table) :
    Performs catching inspecting fun _ => newObject entries :=
  performs_onHeap fun h => .newObject h entries

theorem performs_newNative (name : String) {action : NativeAction}
    (plain : action.inspects = true → inspecting) :
    Performs catching inspecting fun _ => newNative name action :=
  performs_onHeap fun h => .newFunction h plain

theorem performs_assign (s : Ref .scope) (name : String) (value : Value) :
    Performs catching inspecting fun _ => assign s name value :=
  .bind (performs_viewHeap _) fun _ => performs_modifyHeap fun h => .define h _ _ _

theorem performs_attach (r : Ref .inst) (resource : Resource) :
    Performs catching inspecting fun _ => attach r resource :=
  performs_tested fun _ unowned => .setResource unowned resource

theorem performs_settle (r : Ref .promise) (outcome : Promise) :
    Performs catching inspecting fun _ => settle r outcome :=
  performs_tested fun _ pending => .setOutcome pending outcome

section Stores

variable {σ : Type} (type : StoreType σ) (operation : String) (r : Ref .inst) (view : σ → α)

theorem performs_readStore :
    Performs catching inspecting fun _ => readStore type operation r view :=
  .bind (performs_viewHeap _) fun _ => .pure _

theorem performs_useStore [type.KeepsKind] (step : σ → σ) :
    Performs catching inspecting fun _ => useStore type operation r view step :=
  .bind (performs_readStore ..) fun _ =>
    .bind (performs_modifyHeap fun h => .changeStore h type r step) fun _ => .pure _

end Stores

/-- As part of a body an action fails as it fails on its own. -/
theorem performs_exec {op : Reentry → Action α} (performs : Performs catching inspecting op) :
    Performs catching inspecting fun re => (op re).exec := by
  refine .told (Except.mapError .failed) (fun result failure => ?_) (fun _ _ => rfl) performs
  cases result <;> simp [Except.mapError, Failing.ofFailure]

end Action

/-- An early result is the result of the whole, and a failure stays one. -/
theorem Execution.performs_result {op : Reentry → Execution Value}
    (performs : Performs catching inspecting op) :
    Performs catching inspecting fun re => (op re).result := by
  let tell : Except Interruption Value → Except Failure Value
    | .ok v | .error (.returned v) => .ok v
    | .error (.failed failure) => .error failure
  refine .told tell (fun result failure => ?_) (fun re m => ?_) performs
  · rcases result with (_ | _) | _ <;> simp [tell, Failing.ofFailure]
  · rw [Run.on, Run.on]
    unfold Execution.result
    rcases op re m with ⟨(_ | _) | _, _⟩ <;> rfl

end Actions

/-! ### Sorting -/

section Sorting

variable {ε α : Type} [Failing ε] {cmp : Reentry → α → α → Run ε Ordering}
  (compares : ∀ a b, Performs catching inspecting fun re => cmp re a b)

include compares

theorem Sort.performs_sink (x : α) (reversed : List α) :
    Performs catching inspecting fun re => Sort.sink (cmp re) x reversed := by
  induction reversed with
  | nil => exact .pure _
  | cons last before ih =>
    refine .bind (compares last x) fun order => ?_
    exact .ite (.bind ih fun _ => .pure _) (.pure _)

theorem Sort.performs_sinkAll (done xs : List α) :
    Performs catching inspecting fun re => Sort.sinkAll (cmp re) done xs := by
  induction xs generalizing done with
  | nil => exact .pure _
  | cons x rest ih => exact .bind (Sort.performs_sink compares x done) fun done => ih done

theorem Sort.performs_insertionSort (xs : List α) :
    Performs catching inspecting fun re => Sort.insertionSort (cmp re) xs :=
  .bind (Sort.performs_sinkAll compares [] xs) fun _ => .pure _

theorem Sort.performs_merge (xs ys : List α) :
    Performs catching inspecting fun re => Sort.merge (cmp re) xs ys := by
  induction xs, ys using Sort.merge.induct with
  | case1 ys =>
    simp only [Sort.merge]
    exact .pure _
  | case2 xs notNil =>
    simp only [Sort.merge]
    exact .pure _
  | case3 x xs y ys takeRight takeLeft =>
    simp only [Sort.merge]
    refine .bind (compares x y) fun order => ?_
    exact .ite (.bind takeRight fun _ => .pure _) (.bind takeLeft fun _ => .pure _)

theorem Sort.performs_stableSort (xs : List α) :
    Performs catching inspecting fun re => Sort.stableSort (cmp re) xs := by
  simp only [Sort.stableSort]
  generalize xs.length = halvings
  induction halvings generalizing xs with
  | zero => exact Sort.performs_insertionSort compares xs
  | succ halvings ih =>
    simp only [Sort.sortWithin]
    refine .ite (Sort.performs_insertionSort compares xs) ?_
    exact .bind (ih _) fun left => .bind (ih _) fun right => Sort.performs_merge compares left right

end Sorting

/-! ### Calls from native functions -/

namespace Invocation

theorem performs_construct (cls : Ref .cls) (args : List Value) :
    Performs catching inspecting fun re => construct re cls args := by
  refine .bind (performs_onHeap fun h => .newInstance h cls) fun r => ?_
  refine .bind (performs_readHeap _) fun constructor => ?_
  cases constructor with
  | some method =>
    exact .bind (.map _ (Reentry.performs_invoke _ _ _)) fun _ => .pure _
  | none =>
    exact .bind (performs_readHeap _) fun _ => .bind (performs_check _) fun _ => .pure _

theorem performs_callValue (callee : Value) (args : List Value) :
    Performs catching inspecting fun re => callValue re callee args := by
  cases callee with
  | function f => exact Reentry.performs_invoke f args none
  | cls cls => exact performs_construct cls args
  | _ => exact performs_fail _

theorem performs_callEach (callee : Ref .function) (calls : List (List Value)) :
    Performs catching inspecting fun re => callEach re callee calls := by
  induction calls with
  | nil => exact .pure _
  | cons args rest ih =>
    exact .bind (.map _ ((Reentry.performs_invoke callee args none).adding _)) fun _ => ih

theorem performs_callMethod (receiver : Value) (name : String) (args : List Value) :
    Performs catching inspecting fun re => callMethod re receiver name args :=
  .bind (performs_viewHeap _) fun _ => Reentry.performs_invoke _ _ _

end Invocation

/-! ### Stores of receivers -/

namespace Native

variable {σ α : Type} (type : StoreType σ) (label : String) (this : Option Value)

theorem performs_attachToReceiver (resource : Resource) :
    Performs catching inspecting fun _ => attachToReceiver label this resource :=
  .bind (performs_check _) fun _ => .bind (performs_attach _ _) fun _ => .pure _

theorem performs_readStore (view : σ → α) :
    Performs catching inspecting fun _ => readStore type label this view :=
  .bind (performs_check _) fun _ => Action.performs_readStore _ _ _ _

theorem performs_useStore [type.KeepsKind] (view : σ → α) (step : σ → σ) :
    Performs catching inspecting fun _ => useStore type label this view step :=
  .bind (performs_check _) fun _ => Action.performs_useStore _ _ _ _ _

theorem performs_changeStore [type.KeepsKind] (step : σ → σ) :
    Performs catching inspecting fun _ => changeStore type label this step :=
  performs_useStore _ _ _ _ _

theorem performs_newMethod (cls : Ref .cls) (name label : String) {action : NativeAction}
    (plain : action.inspects = false) :
    Performs catching inspecting fun _ => (do
      let f ← newNative label action
      modifyHeap fun h => h.setMethod cls name f : Action Unit) :=
  .bind (performs_newNative label (by simp [plain])) fun _ =>
    performs_modifyHeap fun h => .setMethod h _ _ _

theorem performs_newClass (name : String) {methods : List (String × NativeAction)}
    (plain : ∀ method ∈ methods, method.2.inspects = false) :
    Performs catching inspecting fun _ => newClass name methods := by
  refine .bind (performs_onHeap fun h => .newClass h _) fun cls => ?_
  refine .bind (.forM fun method member => ?_) fun _ => .pure _
  exact performs_newMethod cls _ _ (plain method member)

theorem performs_compareBy (comparator : Option (Ref .function)) (a b : Value) :
    Performs catching inspecting fun re => compareBy re comparator a b := by
  cases comparator with
  | some f => exact .bind (Reentry.performs_invoke _ _ _) fun _ => performs_check _
  | none => exact .pure _

theorem performs_keysSorted (args : List Value) :
    Performs catching inspecting fun re => keysSorted re args := by
  refine .bind (performs_check _) fun _ => .bind (performs_check _) fun comparator => ?_
  refine .bind (performs_viewHeap _) fun entries => ?_
  refine .bind (Sort.performs_stableSort (fun a b => ?_) _) fun _ => performs_newArray _
  exact ((performs_compareBy comparator a.2 b.2).holding _).holding _

end Native

/-! ### Methods of native classes -/

open Native

variable (this : Option Value) (args : List Value)

theorem MapMethod.performs_call (method : MapMethod) :
    Performs catching inspecting fun re => method.call re this args := by
  cases method with
  | construct =>
    exact .bind (performs_check _) fun _ => .bind (performs_viewHeap _) fun _ =>
      performs_attachToReceiver _ _ _
  | set =>
    exact .bind (performs_check _) fun _ => .bind (performs_readHeap _) fun _ =>
      .bind (performs_check _) fun _ => Action.performs_useStore _ _ _ _ _
  | get | has =>
    exact .bind (performs_check _) fun _ => .bind (performs_readHeap _) fun _ =>
      performs_readStore _ _ _ _
  | delete =>
    exact .bind (performs_check _) fun _ => .bind (performs_readHeap _) fun _ =>
      performs_useStore _ _ _ _ _
  | size => exact .bind (performs_check _) fun _ => performs_readStore _ _ _ _
  | clear => exact .bind (performs_check _) fun _ => performs_changeStore _ _ _ _
  | keys | values =>
    exact .bind (performs_check _) fun _ => .bind (performs_readStore _ _ _ _) fun _ =>
      performs_newArray _
  | entries =>
    refine .bind (performs_check _) fun _ => .bind (performs_readStore _ _ _ _) fun _ => ?_
    exact .bind (.mapM fun _ => performs_newArray _) fun _ => performs_newArray _
  | forEach =>
    refine .bind (performs_check _) fun _ => .bind (performs_check _) fun _ => ?_
    refine .bind (performs_readStore _ _ _ _) fun _ => ?_
    exact .bind (Invocation.performs_callEach _ _) fun _ => .pure _

theorem SetMethod.performs_call (method : SetMethod) :
    Performs catching inspecting fun re => method.call re this args := by
  cases method with
  | construct =>
    exact .bind (performs_check _) fun _ => .bind (performs_viewHeap _) fun _ =>
      performs_attachToReceiver _ _ _
  | add =>
    exact .bind (performs_check _) fun _ => .bind (performs_readHeap _) fun _ =>
      .bind (performs_check _) fun _ => Action.performs_useStore _ _ _ _ _
  | has =>
    exact .bind (performs_check _) fun _ => .bind (performs_readHeap _) fun _ =>
      performs_readStore _ _ _ _
  | delete =>
    exact .bind (performs_check _) fun _ => .bind (performs_readHeap _) fun _ =>
      performs_useStore _ _ _ _ _
  | size => exact .bind (performs_check _) fun _ => performs_readStore _ _ _ _
  | clear => exact .bind (performs_check _) fun _ => performs_changeStore _ _ _ _
  | values =>
    exact .bind (performs_check _) fun _ => .bind (performs_readStore _ _ _ _) fun _ =>
      performs_newArray _
  | forEach =>
    refine .bind (performs_check _) fun _ => .bind (performs_check _) fun _ => ?_
    refine .bind (performs_readStore _ _ _ _) fun _ => ?_
    exact .bind (Invocation.performs_callEach _ _) fun _ => .pure _

/-- Whether the class is in use depends on what is held. -/
theorem SetAlgebra.performs_operand (m : Machine) (operation : SetAlgebra) (cls : Ref .cls) :
    Performs catching inspecting fun re => check ((operand m.heap operation.label cls
      (args.getD 0 .null)).mapError (refusal re m cls)) := by
  cases operand m.heap operation.label cls (args.getD 0 .null) with
  | ok other => exact .pure other
  | error cause =>
    exact performs_failHeld fun holds =>
      if m.heap.inUse (m.referents ++ holds.flatMap Hold.referents) cls.identity then cause
      else .setClassGone

theorem SetAlgebra.performs_call (operation : SetAlgebra) (cls : Ref .cls) :
    Performs catching inspecting fun re => operation.call re cls this args := by
  refine .bind (performs_check _) fun _ => performs_see (fun m => ?_) fun _ _ => rfl
  refine .bind (performs_operand args m operation cls) fun other => ?_
  refine .bind (performs_readStore _ _ _ _) fun mine => .bind (performs_viewHeap _) fun theirs => ?_
  refine .bind (performs_readHeap _) fun result => ?_
  refine .bind (performs_onHeap fun h => .newInstance h cls) fun r => ?_
  exact .bind (performs_attach _ _) fun _ => .pure _

theorem performs_newSetClass : Performs catching inspecting fun _ => newSetClass := by
  refine .bind (performs_newClass _ (List.forall_mem_map.2 fun _ _ => rfl)) fun cls => ?_
  refine .bind (.forM fun operation _ => ?_) fun _ => .pure _
  exact performs_newMethod cls _ _ rfl

theorem StackMethod.performs_call (method : StackMethod) :
    Performs catching inspecting fun _ => method.call this args := by
  refine .bind (performs_check _) fun _ => ?_
  cases method with
  | construct => exact performs_attachToReceiver _ _ _
  | push | pop => exact performs_useStore _ _ _ _ _
  | peek | size | isEmpty => exact performs_readStore _ _ _ _
  | clear => exact performs_changeStore _ _ _ _
  | toArray => exact .bind (performs_readStore _ _ _ _) fun _ => performs_newArray _

theorem DequeMethod.performs_call (method : DequeMethod) :
    Performs catching inspecting fun _ => method.call this args := by
  refine .bind (performs_check _) fun _ => ?_
  cases method with
  | construct => exact performs_attachToReceiver _ _ _
  | push | unshift | pop | shift => exact performs_useStore _ _ _ _ _
  | peekFront | peekBack | size | isEmpty => exact performs_readStore _ _ _ _
  | clear => exact performs_changeStore _ _ _ _
  | toArray => exact .bind (performs_readStore _ _ _ _) fun _ => performs_newArray _

theorem QueueMethod.performs_call (method : QueueMethod) :
    Performs catching inspecting fun _ => method.call this args := by
  refine .bind (performs_check _) fun _ => ?_
  cases method with
  | construct => exact .bind (performs_check _) fun _ => performs_attachToReceiver _ _ _
  | push => exact .bind (performs_check _) fun _ => performs_useStore _ _ _ _ _
  | pop => exact performs_useStore _ _ _ _ _
  | peek | size | isEmpty => exact performs_readStore _ _ _ _
  | clear => exact performs_changeStore _ _ _ _

theorem BusMethod.performs_emitTo (listeners : List (Ref .function)) :
    Performs catching inspecting fun re => emitTo re listeners args :=
  .forM fun listener _ => .map _ ((Reentry.performs_invoke listener args none).holding _)

theorem BusMethod.performs_call (method : BusMethod) :
    Performs catching inspecting fun re => method.call re this args := by
  refine .bind (performs_check _) fun _ => ?_
  cases method with
  | construct => exact performs_attachToReceiver _ _ _
  | receive =>
    exact .bind (performs_check _) fun _ => .bind (performs_check _) fun _ =>
      performs_changeStore _ _ _ _
  | emit =>
    refine .bind (performs_check _) fun _ => .bind (performs_readStore _ _ _ _) fun listeners => ?_
    exact .bind (performs_emitTo _ listeners) fun _ => .pure _
  | off =>
    exact .bind (performs_check _) fun _ => .bind (performs_check _) fun _ =>
      performs_useStore _ _ _ _ _
  | listenerCount => exact .bind (performs_check _) fun _ => performs_readStore _ _ _ _
  | signals => exact .bind (performs_readStore _ _ _ _) fun _ => performs_newArray _

/-! ### Functions of the built-in packages -/

theorem Connection.performs_connect : Performs catching inspecting fun _ => connect args := by
  refine .bind (performs_check _) fun _ => .bind (performs_viewHeap _) fun sender => ?_
  refine .bind (performs_check _) fun signal => .bind (.map _ (performs_viewHeap _)) fun _ => ?_
  refine .bind ?_ fun listener => Action.performs_useStore _ _ _ _ _
  cases args.getD 3 .null with
  | text name => exact .bind (performs_viewHeap _) fun _ => performs_newNative _ nofun
  | function f => exact .pure f
  | _ => exact performs_fail _

namespace ArrayFunction

theorem performs_mapFrom (callback : Ref .function) (done items : List Value) :
    Performs catching inspecting fun re => mapFrom re callback done items := by
  induction items generalizing done with
  | nil => exact .pure _
  | cons item rest ih =>
    exact .bind (((Reentry.performs_invoke callback [item] none).holding _).holding _)
      fun result => ih _

theorem performs_filterFrom (predicate : Ref .function) (kept items : List Value) :
    Performs catching inspecting fun re => filterFrom re predicate kept items := by
  induction items generalizing kept with
  | nil => exact .pure _
  | cons item rest ih =>
    exact .bind (((Reentry.performs_invoke predicate [item] none).holding _).holding _)
      fun keep => ih _

theorem performs_reduceFrom (reducer : Ref .function) (acc : Value) (items : List Value) :
    Performs catching inspecting fun re => reduceFrom re reducer acc items := by
  induction items generalizing acc with
  | nil => exact .pure _
  | cons item rest ih =>
    exact .bind ((Reentry.performs_invoke reducer [acc, item] none).holding _) fun acc => ih acc

theorem performs_call (function : ArrayFunction) :
    Performs catching inspecting fun re => function.call re args := by
  refine .bind (performs_check _) fun _ => .bind (performs_check _) fun r => ?_
  refine .bind (performs_readHeap _) fun items => ?_
  cases function with
  | map =>
    exact .bind (performs_check _) fun f => .bind (performs_mapFrom f _ _) fun _ =>
      performs_newArray _
  | filter =>
    exact .bind (performs_check _) fun f => .bind (performs_filterFrom f _ _) fun _ =>
      performs_newArray _
  | forEach =>
    exact .bind (performs_check _) fun f =>
      .bind (Invocation.performs_callEach f _) fun _ => .pure _
  | reduce =>
    refine .bind (performs_check _) fun f => .bind (performs_check _) fun start => ?_
    exact performs_reduceFrom f _ _
  | sort =>
    refine .bind (performs_check _) fun comparator => ?_
    refine .bind (Sort.performs_stableSort (fun a b => ?_) _) fun _ => performs_newArray _
    exact (performs_compareBy comparator a b).holding _

end ArrayFunction

namespace Signalling

theorem performs_register (name : String) (handler : Ref .function) :
    Performs catching inspecting fun _ => register name handler :=
  .bind (performs_check _) fun s =>
    performs_step (fun w => { w with signals := w.signals.register s handler }) [] fun w =>
      .register w s handler

theorem performs_clear (name : String) : Performs catching inspecting fun _ => clear name := by
  refine .bind (performs_check _) fun s => ?_
  exact .of_on (fun _ _ w => .ok (w.signals.handler? s).isSome)
    (fun w => { w with signals := w.signals.unregister s }) [] (fun _ _ => rfl)
    (fun w => .single (.unregister w s)) fun _ _ _ _ => nofun

theorem performs_raise (name : String) : Performs catching inspecting fun _ => raise name :=
  .bind (performs_check _) fun s =>
    performs_step (fun w => { w with signals := w.signals.raise s }) [.raised s] fun w => .raise w s

theorem performs_isPending (name : String) :
    Performs catching inspecting fun _ => isPending name :=
  performs_see (fun _ => .pure _) fun _ _ => rfl

end Signalling

theorem SignalFunction.performs_call (function : SignalFunction) :
    Performs catching inspecting fun _ => function.call args := by
  refine .bind (performs_check _) fun _ => ?_
  cases function with
  | on =>
    refine .bind (performs_check _) fun _ => .bind (performs_check _) fun _ => ?_
    exact .bind (Signalling.performs_register _ _) fun _ => .pure _
  | clear =>
    exact .bind (performs_check _) fun _ => .bind (Signalling.performs_clear _) fun _ => .pure _
  | raise =>
    exact .bind (performs_check _) fun _ => .bind (Signalling.performs_raise _) fun _ => .pure _
  | supported => exact performs_newArray _

end ScriptCore
