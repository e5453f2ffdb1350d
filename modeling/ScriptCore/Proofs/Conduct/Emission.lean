import ScriptCore.Proofs.Collections.Calls
import ScriptCore.Proofs.Collections.Listeners
import ScriptCore.Proofs.Conduct.Balance

/-!
What an emission does.

An emission calls the listeners that are registered when it begins, one after another, and the
first of them that fails ends it. Each call goes from the machine that the call before it left, so
whatever listeners do to the bus stays done; but the listeners still to come were settled at the
beginning. This is said over any ways back into an interpreter, and at any machine: a listener that
emits again begins an emission of its own, from the machine and the table of that moment.
-/

namespace ScriptCore

open Registration

/-! ### Emissions -/

/-- The call of a listener: the machines before and after it, and how it ended. -/
structure ListenerCall where
  listener : Ref .function
  before : Machine
  answer : Except Failure Value
  after : Machine

/-- The calls that an emission to listeners comes to, how it ends and the machine that it leaves. -/
inductive Emission (re : Reentry) (args : List Value) :
    List (Ref .function) → Machine → List ListenerCall → Except Failure Unit → Machine → Prop
  | finished {m : Machine} : Emission re args [] m [] (.ok ()) m
  | failed {f : Ref .function} {rest : List (Ref .function)} {m m' : Machine} {failure : Failure}
      (made : (re.invoke f args none).on m = (.error failure, m')) :
    Emission re args (f :: rest) m [⟨f, m, .error failure, m'⟩] (.error failure) m'
  | next {f : Ref .function} {rest : List (Ref .function)} {m m' m'' : Machine} {v : Value}
      {calls : List ListenerCall} {outcome : Except Failure Unit}
      (made : (re.invoke f args none).on m = (.ok v, m'))
      (others : Emission re args rest m' calls outcome m'') :
    Emission re args (f :: rest) m (⟨f, m, .ok v, m'⟩ :: calls) outcome m''

/-- If an emission succeeds, all listeners were called in order; if it fails, they were called up to
the one whose call failed, and the others were skipped. -/
def InTurn (listeners : List (Ref .function)) (calls : List ListenerCall) :
    Except Failure Unit → Prop
  | .ok () => calls.map ListenerCall.listener = listeners ∧ ∀ call ∈ calls, ∃ v, call.answer = .ok v
  | .error failure => ∃ done last skipped, calls = done ++ [last] ∧
    listeners = calls.map ListenerCall.listener ++ skipped ∧
    (∀ call ∈ done, ∃ v, call.answer = .ok v) ∧ last.answer = .error failure

/-- Calling listeners one after another is an emission to them. -/
theorem emission_forM (re : Reentry) (args : List Value) (listeners : List (Ref .function))
    (m : Machine) :
    ∃ calls outcome m',
      (listeners.forM fun listener => discard (re.invoke listener args none)).on m =
        (outcome, m') ∧
      Emission re args listeners m calls outcome m' := by
  induction listeners generalizing m with
  | nil => exact ⟨[], .ok (), m, rfl, .finished⟩
  | cons f rest ih =>
    have first : ((f :: rest).forM fun listener => discard (re.invoke listener args none)) =
        discard (re.invoke f args none) >>= fun _ =>
          rest.forM fun listener => discard (re.invoke listener args none) := rfl
    rw [first, Run.on_bind, Run.on_discard]
    cases made : (re.invoke f args none).on m with
    | mk answer m' =>
      cases answer with
      | error failure => exact ⟨_, _, _, rfl, .failed made⟩
      | ok v =>
        obtain ⟨calls, outcome, m'', done, others⟩ := ih m'
        exact ⟨_, outcome, m'', done, .next made others⟩

namespace Emission

variable {re : Reentry} {args : List Value} {listeners : List (Ref .function)} {m m' : Machine}
  {calls : List ListenerCall} {outcome : Except Failure Unit}

/-- Every call is one of its listener with the arguments of the emission and no receiver. -/
theorem made (emission : Emission re args listeners m calls outcome m') :
    ∀ call ∈ calls, (re.invoke call.listener args none).on call.before =
      (call.answer, call.after) := by
  induction emission with
  | finished => exact List.forall_mem_nil _
  | failed made => exact List.forall_mem_singleton.2 made
  | next made others ih => exact List.forall_mem_cons.2 ⟨made, ih⟩

theorem inTurn (emission : Emission re args listeners m calls outcome m') :
    InTurn listeners calls outcome := by
  induction emission with
  | finished => exact ⟨rfl, List.forall_mem_nil _⟩
  | @failed f rest => exact ⟨[], _, rest, rfl, rfl, List.forall_mem_nil _, rfl⟩
  | @next f rest m m' m'' v calls outcome made others ih =>
    have answered : ∃ answer, (Except.ok v : Except Failure Value) = .ok answer := ⟨v, rfl⟩
    cases outcome with
    | ok =>
      obtain ⟨listeners, succeeded⟩ := ih
      exact ⟨congrArg (f :: ·) listeners, List.forall_mem_cons.2 ⟨answered, succeeded⟩⟩
    | error failure =>
      obtain ⟨done, last, skipped, rfl, listeners, succeeded, failed⟩ := ih
      exact ⟨_ :: done, last, skipped, rfl, congrArg (f :: ·) listeners,
        List.forall_mem_cons.2 ⟨answered, succeeded⟩, failed⟩

/-- Where calls leave the stack of calls as it was, every listener is called, and has finished, with
the calls active that were so when the emission began. -/
theorem calls_eq {c : Config} [re.Leads (Balanced c)]
    (emission : Emission re args listeners m calls outcome m')
    (within : outcome ≠ .error .exhausted) :
    ∀ call ∈ calls, call.before.calls = m.calls ∧ call.after.calls = m.calls := by
  -- One call leaves the stack as it was, unless it used up the bound.
  have kept : ∀ {f : Ref .function} {m m' : Machine} {answer : Except Failure Value},
      (re.invoke f args none).on m = (answer, m') → answer ≠ .error .exhausted →
      m'.calls = m.calls := by
    intro f m m' answer made finished
    have balanced := (re.leads_invoke (R := Balanced c) f args none).related m
    rw [made] at balanced
    exact (balanced finished).calls
  induction emission with
  | finished => exact List.forall_mem_nil _
  | failed made =>
    have last := kept made fun cut => within (congrArg _ (Except.error.inj cut))
    exact List.forall_mem_singleton.2 ⟨rfl, last⟩
  | next made others ih =>
    have first := kept made nofun
    refine List.forall_mem_cons.2 ⟨⟨rfl, first⟩, fun call member => ?_⟩
    obtain ⟨before, after⟩ := ih within call member
    exact ⟨before.trans first, after.trans first⟩

end Emission

/-! ### Emissions of a bus -/

section Bus

variable (re : Reentry) {r : Ref .inst} {m : Machine}
  {registrations : List (Registration (Ref .function))} (bus : m.heap.OwnsBus r registrations)

include bus

theorem BusMethod.on_emit (signal : String) (args : List Value) :
    (BusMethod.emit.call re (some (.inst r)) (.text signal :: args)).on m =
      (emitTo re (listenersOf registrations signal) args >>= fun _ => pure .null).on m := by
  obtain ⟨table, owns, stands⟩ := bus
  simp [call, checkCount, Arguments.atLeast, Arguments.text,
    Native.on_readStore ListenerTable.lawful owns, stands signal]

/-- Receiving puts a registration behind all others and taking off leaves registrations out; and
emitting a signal calls the listeners that are registered for it in that state of the bus, with the
remaining arguments and without a receiver, in the order of registration and as often as they are
registered, each from the machine that the one before it left, until one fails; it ends in the
machine that the last call left. In the interpreter each of them starts when no call made by the
emission is active any more. -/
theorem emit_calls_registered :
    (∀ signal listener, ∃ m',
      (BusMethod.receive.call re (some (.inst r)) [.text signal, .function listener]).on m =
          (.ok .null, m') ∧
        m'.heap.OwnsBus r (registrations ++ [(signal, listener)])) ∧
    (∀ signal listener, ∃ m',
      (BusMethod.off.call re (some (.inst r))
            (.text signal :: (listener.map Value.function).toList)).on m =
          (.ok (.ofNat (registrations.filter (goesWith signal listener)).length), m') ∧
        m'.heap.OwnsBus r (without registrations signal listener)) ∧
    ∀ signal args, ∃ calls outcome m',
      (BusMethod.emit.call re (some (.inst r)) (.text signal :: args)).on m =
        (outcome.map fun _ => .null, m') ∧
      Emission (re.holding ((listenersOf registrations signal).map .function)) args
        (listenersOf registrations signal) m calls outcome m' ∧
      InTurn (listenersOf registrations signal) calls outcome ∧
      ∀ steps holds, re = Interpreter.nested steps holds → outcome ≠ .error .exhausted →
        ∀ call ∈ calls, call.before.calls = m.calls ∧ call.after.calls = m.calls := by
  refine ⟨BusMethod.ownsBus_receive re bus, BusMethod.ownsBus_off re bus, fun signal args => ?_⟩
  obtain ⟨calls, outcome, m', done, emission⟩ :=
    emission_forM (re.holding ((listenersOf registrations signal).map .function)) args
      (listenersOf registrations signal) m
  refine ⟨calls, outcome, m', ?_, emission, emission.inTurn, ?_⟩
  · rw [BusMethod.on_emit re bus, Run.on_bind, BusMethod.emitTo, done]
    cases outcome <;> rfl
  · rintro steps holds rfl within
    exact emission.calls_eq (c := {}) within

end Bus

/-- A machine with a bus, and with a function that registers its second argument on that bus for the
signal that is its first argument, one that does nothing, and the first one twice among the
listeners. -/
def selfRegistering : Machine := .fresh
  { functions := ⟨#[.native "receive" (.bus .receive), .native "on" (.bound ⟨0⟩ (.inst ⟨0⟩)),
      .native "f" .inert]⟩
    instances := ⟨#[{ cls := ⟨0⟩, resource := some (.listeners
      ((ListenerTable.empty.add "s" ⟨1⟩).add "s" ⟨1⟩)) }]⟩ }

/-- Emits the signal of that bus so that its listener registers the function that does nothing. -/
def selfEmission : Action Value :=
  BusMethod.emit.call (Interpreter.nested 2 []) (some (.inst ⟨0⟩))
    [.text "s", .text "s", .function ⟨2⟩]

/-- The two registrations that the listener makes are not called and not lost. -/
theorem emit_calls_registered_selfRegistering :
    selfRegistering.heap.OwnsBus ⟨0⟩ [("s", ⟨1⟩), ("s", ⟨1⟩)] ∧
      ∃ calls m', selfEmission.on selfRegistering = (.ok .null, m') ∧
        InTurn [⟨1⟩, ⟨1⟩] calls (.ok ()) ∧
        (∀ call ∈ calls, call.before.calls = selfRegistering.calls) ∧
        m'.heap.OwnsBus ⟨0⟩ [("s", ⟨1⟩), ("s", ⟨1⟩), ("s", ⟨2⟩), ("s", ⟨2⟩)] := by
  let on : Ref .function := ⟨1⟩
  let f : Ref .function := ⟨2⟩
  have stands := (ListenerTable.standsFor_empty.add "s" on).add "s" on
  have bus : selfRegistering.heap.OwnsBus ⟨0⟩ [("s", on), ("s", on)] := ⟨_, rfl, stands⟩
  obtain ⟨-, -, emits⟩ := emit_calls_registered (Interpreter.nested 2 []) bus
  obtain ⟨calls, outcome, m', done, -, inTurn, balanced⟩ := emits "s" [.text "s", .function f]
  have succeeds : (selfEmission.on selfRegistering).1 = .ok .null := by decide +kernel
  have owner : (selfEmission.on selfRegistering).2.heap.owner ⟨0⟩ = some (some (.listeners
      ((((ListenerTable.empty.add "s" ⟨1⟩).add "s" ⟨1⟩).add "s" ⟨2⟩).add "s" ⟨2⟩))) := by
    decide +kernel
  have run : selfEmission.on selfRegistering = (outcome.map fun _ => .null, m') := done
  rw [run] at succeeds owner
  cases outcome with
  | error failure => cases succeeds
  | ok =>
    refine ⟨bus, calls, m', done, inTurn, fun call member => ?_, _, owner, ?_⟩
    · exact (balanced 2 [] rfl nofun call member).1
    · exact (stands.add "s" f).add "s" f

end ScriptCore
