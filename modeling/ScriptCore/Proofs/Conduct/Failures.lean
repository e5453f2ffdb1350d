import ScriptCore.Proofs.Conduct.Nesting

/-!
How failures go outwards.

Calls, requests and safe points are made within one another, to any depth. One encloses another if
what it comes to hangs on the answer to that one, at its safe point or in its body. If the innermost
of them fails with a fault, and no body on the way catches, then all of them fail with a fault of
the same cause, which is all of a fault but its trace: its kind, its message and the value thrown.
Nothing runs meanwhile: calls are left, dispatches end and initialisations fail.
-/

namespace ScriptCore

variable {m m' m'' : Machine} {cause : Cause} {fault : Fault}

/-! ### Unwinding -/

/-- Whether an event is the end of something that a failure of the given cause goes through. -/
def Event.Ends (cause : Cause) : Event → Prop
  | .left .. | .dispatchEnded => True
  | .initializerEnded _ (.error fault) => fault.cause = cause
  | _ => False

/-- The second machine is the first one after a failure went through calls, dispatches and
initialisations: each of them ended, and nothing else was done. -/
structure Unwound (cause : Cause) (m m' : Machine) : Prop where
  heap : m'.heap = m.heap
  output : m'.output = m.output
  signals : m'.signals = m.signals
  journal : ∃ ends, m'.journal = ends ++ m.journal ∧ ∀ event ∈ ends, event.Ends cause

namespace Unwound

theorem refl (m : Machine) : Unwound cause m m := ⟨rfl, rfl, rfl, [], rfl, nofun⟩

theorem trans (first : Unwound cause m m') (second : Unwound cause m' m'') :
    Unwound cause m m'' := by
  obtain ⟨ends, journal, ended⟩ := first.journal
  obtain ⟨more, journal', ended'⟩ := second.journal
  refine ⟨second.heap.trans first.heap, second.output.trans first.output,
    second.signals.trans first.signals, more ++ ends, ?_, fun event among => ?_⟩
  · rw [journal', journal, List.append_assoc]
  · exact (List.mem_append.1 among).elim (ended' event) (ended event)

theorem leave (unwound : Unwound cause m m') (callee : Ref .function) :
    Unwound cause m (Invocation.leave callee m') :=
  unwound.trans ⟨rfl, rfl, rfl, [_], rfl, by simp [Event.Ends]⟩

theorem endsDispatch (ended : Reentry.EndsDispatch m m') : Unwound cause m m' := by
  obtain rfl | rfl := ended
  · exact refl m'
  · exact ⟨rfl, rfl, rfl, [_], rfl, by simp [Event.Ends]⟩

theorem finishing (unwound : Unwound fault.cause m m') (name : String) :
    Unwound fault.cause m (m'.finishing name (.error fault)) :=
  unwound.trans ⟨rfl, rfl, rfl, [_], rfl, by simp [Event.Ends]⟩

end Unwound

namespace CallStack

variable {calls : CallStack}

theorem cause_attachTrace (fault : Fault) : (calls.attachTrace fault).cause = fault.cause := by
  rw [attachTrace]
  split <;> rfl

theorem attachTrace_of_traced (traced : fault.trace.isSome = true) :
    calls.attachTrace fault = fault := by
  rw [attachTrace, if_pos (by simp [traced])]

theorem attachTrace_of_untraced (untraced : fault.trace = none) {name : String}
    {frames : List String} (active : calls.frames = name :: frames) :
    calls.attachTrace fault = { fault with trace := some calls.frames } := by
  rw [attachTrace, if_neg (by simp [active, untraced]), capture]

end CallStack

namespace Interpreter

section Steps

variable {steps : Nat} {holds : List Hold} {callee : Ref .function} {args : List Value}
  {this : Option Value} {polled after : Machine} {calls : CallStack} {name : String}
  {initializer : Initializer} {table : Table} {registry : Registry}

/-- A call whose body fails gives the fault its trace and is left. -/
theorem invoke_of_fault
    (safe : (Invocation.poll (inside steps holds callee args this)).on m = (.ok (), polled))
    (room : polled.calls.push (polled.heap.functionName callee) = .ok calls)
    (failed : (work steps holds callee args this).on (polled.entering callee calls) =
      (.error (.fault fault), after)) :
    (invoke (steps + 1) holds callee args this).on m =
      (.error (.fault (after.calls.attachTrace fault)), Invocation.leave callee after) := by
  rw [invoke_of_room steps holds callee args this safe room, Invocation.on_traced_of_fault failed,
    failed]

/-- A request whose initialiser fails is answered with the fault, which the package keeps. -/
theorem ensure_of_fault (start : m.registry.request name = (.start initializer table, registry))
    (failed : (runInitializer (nested steps holds) initializer table).on
      (m.starting name initializer registry) = (.error (.fault fault), after)) :
    (ensure (steps + 1) holds name).on m =
      (.error (.fault fault), after.finishing name (.error fault)) :=
  (Packages.on_ensure_of_start start).trans (Packages.on_finish_of_fault failed)

end Steps

/-- The failure of a callback is the failure of the one that encloses it, but for a trace if it had
none, and nothing else is done. -/
theorem Encloses.fails {outer inner : Asked} (encloses : Encloses False outer inner)
    {after : Machine} (failed : inner.answer = (.error (.fault fault), after)) :
    ∃ fault' after', outer.answer = (.error (.fault fault'), after') ∧
      fault'.cause = fault.cause ∧ (fault.trace.isSome = true → fault' = fault) ∧
      Unwound fault.cause after after' := by
  cases encloses with
  | poll hangs =>
    rw [Asked.answer_eq] at failed
    obtain ⟨after', polled, ended⟩ := Invocation.follows_poll.fails hangs failed False.elim
    exact ⟨fault, after', Invocation.on_call_of_poll_failed polled _ _, rfl, fun _ => rfl,
      .endsDispatch ended⟩
  | @body steps holds callee args this m polled calls asked here safe room catches hangs =>
    rw [Asked.answer_eq] at failed
    have follows : Follows False fun re =>
        performCallable re args this (polled.heap.callable callee) :=
      (performs_performCallable args this catches fun _ => trivial).follows
    simp only [on_perform] at hangs
    obtain ⟨after', runs, ended⟩ := follows.fails hangs failed False.elim
    have failed : (work steps holds callee args this).on (polled.entering callee calls) =
        (.error (.fault fault), after') := (on_perform _ _ _ _ _).trans runs
    exact ⟨_, _, invoke_of_fault safe room failed, CallStack.cause_attachTrace fault,
      CallStack.attachTrace_of_traced, (Unwound.endsDispatch ended).leave callee⟩
  | initializer start catches hangs =>
    rw [Asked.answer_eq] at failed
    obtain ⟨after', runs, ended⟩ :=
      (performs_runInitializer catches (fun _ => trivial) _).follows.fails hangs failed False.elim
    exact ⟨fault, _, ensure_of_fault start runs, rfl, fun _ => rfl,
      (Unwound.endsDispatch ended).finishing _⟩
  | safePoint hangs =>
    rw [Asked.answer_eq] at failed
    obtain ⟨after', runs, ended⟩ := Invocation.follows_safePoint.fails hangs failed False.elim
    exact ⟨fault, after', runs, rfl, fun _ => rfl, .endsDispatch ended⟩

/-! ### Chains of enclosing callbacks -/

/-- A fault at the end of a chain of enclosing callbacks is the fault of all of them, but for a
trace if it had none. -/
theorem fails_of_chain {outer inner : Asked}
    (chain : Relation.ReflTransGen (Encloses False) outer inner) {after : Machine}
    (failed : inner.answer = (.error (.fault fault), after)) :
    ∃ fault' after', outer.answer = (.error (.fault fault'), after') ∧
      fault'.cause = fault.cause ∧ (fault.trace.isSome = true → fault' = fault) ∧
      Unwound fault.cause after after' := by
  induction chain using Relation.ReflTransGen.head_induction_on with
  | refl => exact ⟨fault, after, failed, rfl, fun _ => rfl, .refl after⟩
  | head encloses _ ih =>
    obtain ⟨fault', after', answered, cause, same, unwound⟩ := ih
    obtain ⟨fault'', after'', answered', cause', same', unwound'⟩ := encloses.fails answered
    refine ⟨fault'', after'', answered', cause'.trans cause, fun traced => ?_,
      unwound.trans (cause ▸ unwound')⟩
    have kept := same traced
    rw [kept] at same'
    exact same' traced

/-- However deep callbacks are nested, a fault of the innermost one is what every callback around
it and the program around them all fail with, with the same cause, as long as no body on the way
catches; and after the innermost one failed nothing is done but to leave calls and to end dispatches
and initialisations. -/
theorem fault_reaches_outermost {outer inner : Asked}
    (chain : Relation.ReflTransGen (Encloses False) outer inner) {after : Machine}
    (failed : inner.answer = (.error (.fault fault), after)) :
    (∃ fault' after', outer.answer = (.error (.fault fault'), after') ∧
      fault'.cause = fault.cause ∧ Unwound fault.cause after after') ∧
    ∀ (m : Machine) (e : Expr), e.catches = false → outer.steps = nestingBound →
      (reentry nestingBound).HangsOn (fun re => (runProgram re (evaluate re e)).on m)
        outer.callback outer.machine →
      ∃ fault' after', runExpression m e = (.error (.fault fault'), after') ∧
        fault'.cause = fault.cause ∧ Unwound fault.cause after after' := by
  obtain ⟨fault', after', answered, cause, -, unwound⟩ := fails_of_chain chain failed
  refine ⟨⟨fault', after', answered, cause, unwound⟩, fun m e catches bound hangs => ?_⟩
  have follows : Follows False fun re => runProgram re (evaluate re e) :=
    (performs_run e (by simp [catches]) fun _ => trivial).follows
  rw [Asked.answer, bound] at answered
  obtain ⟨after'', runs, ended⟩ := follows.fails hangs answered False.elim
  exact ⟨fault', after'', runs, cause, unwound.trans (.endsDispatch ended)⟩

/-- What the global scope binds. -/
def connectedNames : Table :=
  .ofList [("items", .array ⟨0⟩), ("map", .function ⟨0⟩), ("slot", .function ⟨1⟩)]

/-- A machine with an array of one element, the function that maps arrays, and a slot connected to a
method that takes no arguments. The first three are bound in the global scope. -/
def connected : Machine :=
  { blank { signalPolling := false } with
    heap :=
      { arrays := ⟨#[#[.null]]⟩
        functions := ⟨#[.native "map" (.array .map), .native "slot" (.bound ⟨2⟩ .null),
          .script "method" [] none ⟨0⟩ []]⟩
        scopes := ⟨#[{ bindings := connectedNames }]⟩ } }

/-- The program that maps the array with the slot. -/
def mapProgram : Expr :=
  .apply .call [.apply (.readName "map") [], .apply (.readName "items") [],
    .apply (.readName "slot") []]

/-- The machine in which the slot is called on the element of the array. -/
def mapping : Machine := connected.entering ⟨0⟩ (connected.calls.cons "map")

/-- The machine in which the slot calls its method. -/
def signalled : Machine := mapping.entering ⟨1⟩ (mapping.calls.cons "slot")

/-- What is held while the array is mapped: the values that the program calls `map` with. -/
def mapHolds : List Hold := [.values [.function ⟨0⟩, .array ⟨0⟩, .function ⟨1⟩]]

/-- The call of `map` that the program makes. -/
def mapCall : Asked :=
  ⟨nestingBound, .call mapHolds ⟨0⟩ [.array ⟨0⟩, .function ⟨1⟩] none, connected⟩

/-- What is held while the slot is called: no more elements, no results yet, and the call of `map`
with its arguments. -/
def slotHolds : List Hold :=
  .values [] :: .values [] :: .values [.function ⟨0⟩, .array ⟨0⟩, .function ⟨1⟩] :: mapHolds

/-- The call of the slot that it makes. -/
def slotCall : Asked := ⟨nestingBound - 1, .call slotHolds ⟨1⟩ [.null] none, mapping⟩

/-- The call of the method that the slot makes. -/
def methodCall : Asked :=
  ⟨nestingBound - 2, .call (.values [.function ⟨1⟩, .null] :: slotHolds) ⟨2⟩ [.null] (some .null),
    signalled⟩

theorem mapCall_encloses : Encloses False mapCall slotCall := by
  have safe : (Invocation.poll (inside (nestingBound - 1) mapHolds ⟨0⟩
      [.array ⟨0⟩, .function ⟨1⟩] none)).on connected = (.ok (), connected) := rfl
  refine .body safe rfl nofun (Reentry.hangsOn_of_cut ?_ (by nofun))
  show ((ArrayFunction.mapFrom _ ⟨1⟩ [] [.null] >>= Action.newArray).on mapping).1 = _
  exact Run.on_bind_fst_of_error (Run.on_bind_fst_of_error
    (congrArg Prod.fst (Reentry.call_cutting _ _ _ _ _ _)) _) _

theorem slotCall_encloses : Encloses False slotCall methodCall := by
  have safe : (Invocation.poll (inside (nestingBound - 2) slotHolds ⟨1⟩ [.null] none)).on mapping =
      (.ok (), mapping) := rfl
  exact .body safe rfl nofun
    (Reentry.hangsOn_of_cut (congrArg Prod.fst (Reentry.call_cutting _ _ _ _ _ _)) (by nofun))

/-- What the program comes to is what that call comes to. -/
theorem on_mapProgram (re : Reentry) :
    (runProgram re (evaluate re mapProgram)).on connected =
      (re.call (.values [.function ⟨0⟩, .array ⟨0⟩, .function ⟨1⟩] :: re.holds) ⟨0⟩
        [.array ⟨0⟩, .function ⟨1⟩] none).on connected := by
  show Execution.result (Action.exec (re.call _ ⟨0⟩ _ none)) connected = _
  rw [Execution.result_exec]
  rfl

theorem mapProgram_hangs : (reentry nestingBound).HangsOn
    (fun re => (runProgram re (evaluate re mapProgram)).on connected) mapCall.callback
      mapCall.machine := by
  refine Reentry.hangsOn_of_cut ?_ ?_
  · rw [on_mapProgram]
    exact congrArg Prod.fst (Reentry.call_cutting _ _ _ _ _ _)
  · rw [on_mapProgram]
    nofun

/-- The method is called with an argument too many, and the whole pass over the array fails with
that, and so does the program. -/
theorem fault_reaches_outermost_mapping :
    Relation.ReflTransGen (Encloses False) mapCall methodCall ∧
      methodCall.answer.1 = .error (.fault
        { cause := .arity "method" 0 1 false, trace := some ["method", "slot", "map"] }) ∧
      (∃ fault after, mapCall.answer = (.error (.fault fault), after) ∧
        fault.cause = .arity "method" 0 1 false) ∧
      mapProgram.catches = false ∧ mapCall.steps = nestingBound ∧
      (reentry nestingBound).HangsOn
        (fun re => (runProgram re (evaluate re mapProgram)).on connected)
        mapCall.callback mapCall.machine ∧
      ∃ fault after, runExpression connected mapProgram = (.error (.fault fault), after) ∧
        fault.cause = .arity "method" 0 1 false := by
  have chain : Relation.ReflTransGen (Encloses False) mapCall methodCall :=
    .head mapCall_encloses (.single slotCall_encloses)
  obtain ⟨⟨fault, after, answered, cause, -⟩, whole⟩ :=
    fault_reaches_outermost chain (show methodCall.answer = (.error (.fault _), _) from rfl)
  obtain ⟨fault', after', runs, cause', -⟩ := whole connected mapProgram rfl rfl mapProgram_hangs
  exact ⟨chain, rfl, ⟨fault, after, answered, cause⟩, rfl, rfl, mapProgram_hangs, fault', after',
    runs, cause'⟩

end Interpreter

end ScriptCore
