import ScriptCore.Proofs.Conduct.Balance
import ScriptCore.Proofs.Conduct.Callbacks

/-!
How callbacks are nested.

Calls, requests and safe points are made within one another, to any depth. One encloses another
directly if what it comes to hangs on the answer to that one, at its safe point or in its body.
Whatever is entered while a call or a request is answered is enclosed by it.
-/

namespace ScriptCore

variable {m m' : Machine}

namespace Interpreter

/-! ### Enclosing callbacks -/

/-- A callback that is asked for in a machine, with a number of nested steps left. -/
structure Asked where
  steps : Nat
  callback : Callback
  machine : Machine

/-- What the callback comes to. -/
def Asked.answer (asked : Asked) : Except Failure asked.callback.Answer × Machine :=
  ((nested asked.steps []).answer asked.callback).on asked.machine

/-- What is held does not matter for the answer, since callbacks come with it. -/
theorem Asked.answer_eq (asked : Asked) (holds : List Hold) :
    asked.answer = ((nested asked.steps holds).answer asked.callback).on asked.machine := by
  rw [answer, ← (nested asked.steps []).answer_withHolds holds]
  rfl

/-- The first callback encloses the second one directly. Bodies that catch are among them only if
that is allowed. -/
inductive Encloses (catching : Prop) : Asked → Asked → Prop
  /-- The handler of a signal is called at the safe point of a call. -/
  | poll {steps holds callee args this m asked here}
      (hangs : (inside steps holds callee args this).HangsOn
        (fun re => (Invocation.poll re).on m) asked here) :
      Encloses catching ⟨steps + 1, .call holds callee args this, m⟩ ⟨steps, asked, here⟩
  /-- A callback is made by the body of a call. -/
  | body {steps holds callee args this m polled calls asked here}
      (safe : (Invocation.poll (inside steps holds callee args this)).on m = (.ok (), polled))
      (room : polled.calls.push (polled.heap.functionName callee) = .ok calls)
      (catches : (polled.heap.callable callee).catches = true → catching)
      (hangs : (inside steps holds callee args this).HangsOn
        (fun re => (perform re callee args this).on (polled.entering callee calls)) asked here) :
      Encloses catching ⟨steps + 1, .call holds callee args this, m⟩ ⟨steps, asked, here⟩
  /-- A callback is made by the initialiser that a request starts. -/
  | initializer {steps holds name m initializer table registry asked here}
      (start : m.registry.request name = (.start initializer table, registry))
      (catches : initializer.catches = true → catching)
      (hangs : (nested steps holds).HangsOn
        (fun re => (runInitializer re initializer table).on (m.starting name initializer registry))
        asked here) :
      Encloses catching ⟨steps + 1, .request holds name, m⟩ ⟨steps, asked, here⟩
  /-- The handler of a signal is called at a safe point that is made by itself. -/
  | safePoint {steps holds m asked here}
      (hangs : (nested steps holds).HangsOn
        (fun re => (Invocation.safePoint re).on m) asked here) :
      Encloses catching ⟨steps, .safePoint holds, m⟩ ⟨steps, asked, here⟩

/-! ### What is entered is enclosed -/

/-- The callback is a call that is entered, with as many calls active as its event tells. -/
inductive Enters (callee : Ref .function) (depth : Nat) : Asked → Prop
  | call {steps holds args this m polled calls}
      (safe : (Invocation.poll (inside steps holds callee args this)).on m = (.ok (), polled))
      (room : polled.calls.push (polled.heap.functionName callee) = .ok calls)
      (counted : calls.depth = depth) :
      Enters callee depth ⟨steps + 1, .call holds callee args this, m⟩

/-- What was told since the first machine does not include the entry of a call. -/
def Unentered (callee : Ref .function) (depth : Nat) (m m' : Machine) : Prop :=
  ∃ later, m'.journal = later ++ m.journal ∧ .entered callee depth ∉ later

section Unentered

variable {callee : Ref .function} {depth : Nat}

theorem Unentered.of_event {event : Event} (told : m'.journal = event :: m.journal)
    (other : event ≠ .entered callee depth) : Unentered callee depth m m' :=
  ⟨[event], told, by simpa using other.symm⟩

instance : Passive (Unentered callee depth) where
  refl _ := ⟨[], rfl, nofun⟩
  trans := by
    rintro m m' m'' ⟨first, told, absent⟩ ⟨second, told', absent'⟩
    refine ⟨second ++ first, by rw [told', told, List.append_assoc], fun among => ?_⟩
    exact (List.mem_append.1 among).elim absent' absent
  change step := by
    cases step with
    | heap | output | register | unregister => exact ⟨[], rfl, nofun⟩
    | raise | registerPackage | registerSymbol => exact .of_event rfl nofun
  dispatchBegun _ := .of_event rfl nofun
  taking _ _ := .of_event rfl nofun
  dispatchOver _ := .of_event rfl nofun

variable {steps : Nat} {holds : List Hold} {f : Ref .function} {args : List Value}
  {this : Option Value} {name : String}
  (below : ∀ {asked here}, (∀ holds, asked ≠ .safePoint holds) →
    (∀ inner, Relation.ReflTransGen (Encloses True) ⟨steps, asked, here⟩ inner →
      ¬ Enters callee depth inner) →
    (Asked.answer ⟨steps, asked, here⟩).1 ≠ .error .exhausted →
      Unentered callee depth here (Asked.answer ⟨steps, asked, here⟩).2)

include below

/-- What a callback does enters nothing but what the callbacks that it encloses enter. -/
theorem unentered_of_op {ε α : Type} [Failing ε] {op : Reentry → Run ε α}
    (follows : Follows True op) {outer : Asked}
    (absent : ∀ inner, Relation.ReflTransGen (Encloses True) outer inner →
      ¬ Enters callee depth inner)
    (encloses : ∀ {asked here},
      (nested steps holds).HangsOn (fun re => (op re).on m) asked here →
        Encloses True outer ⟨steps, asked, here⟩)
    (finished : ((op (nested steps holds)).on m).1 ≠ .error (Failing.ofFailure .exhausted)) :
    Unentered callee depth m ((op (nested steps holds)).on m).2 := by
  refine follows.related_of_callbacks (fun asked here hangs answered => ?_) finished
  rw [← Asked.answer_eq ⟨steps, asked, here⟩] at answered ⊢
  exact below hangs.ne_safePoint (fun inner chain => absent inner (chain.head (encloses hangs)))
    answered

theorem unentered_of_call
    (absent : ∀ inner,
      Relation.ReflTransGen (Encloses True) ⟨steps + 1, .call holds f args this, m⟩ inner →
        ¬ Enters callee depth inner)
    (finished : ((invoke (steps + 1) holds f args this).on m).1 ≠ .error .exhausted) :
    Unentered callee depth m ((invoke (steps + 1) holds f args this).on m).2 := by
  have quiet : ((Invocation.poll (inside steps holds f args this)).on m).1 ≠ .error .exhausted →
      Unentered callee depth m ((Invocation.poll (inside steps holds f args this)).on m).2 :=
    unentered_of_op below Invocation.follows_poll absent .poll
  have outcome := invoke_outcome steps holds f args this (m := m)
  generalize (invoke (steps + 1) holds f args this).on m = result at finished outcome ⊢
  cases outcome with
  | interrupted failed =>
    rw [failed] at quiet
    exact quiet fun cut => finished (congrArg _ (Except.error.inj cut))
  | refused safe full =>
    rw [safe] at quiet
    exact Passive.trans (quiet nofun) (.of_event rfl nofun)
  | @entered calls polled safe room =>
    rw [safe] at quiet
    have entered : Event.entered f calls.depth ≠ .entered callee depth := by
      rintro same
      cases same
      exact absent _ .refl (.call safe room rfl)
    have body : Unentered callee depth (polled.entering f calls)
        ((work steps holds f args this).on (polled.entering f calls)).2 :=
      unentered_of_op below (performs_perform f args this).follows absent
        (.body safe room fun _ => trivial)
        fun cut => finished (Invocation.on_traced_of_exhausted cut)
    have left : Unentered callee depth polled (Invocation.leave f
        ((work steps holds f args this).on (polled.entering f calls)).2) :=
      Passive.trans (.of_event rfl entered) (Passive.trans body (.of_event rfl nofun))
    exact Passive.trans (quiet nofun) left

theorem unentered_of_request
    (absent : ∀ inner,
      Relation.ReflTransGen (Encloses True) ⟨steps + 1, .request holds name, m⟩ inner →
        ¬ Enters callee depth inner)
    (finished : ((ensure (steps + 1) holds name).on m).1 ≠ .error .exhausted) :
    Unentered callee depth m ((ensure (steps + 1) holds name).on m).2 := by
  have body {initializer : Initializer} {table : Table} {registry : Registry}
      (start : m.registry.request name = (.start initializer table, registry)) :=
    unentered_of_op (m := m.starting name initializer registry) below
      (performs_runInitializer (fun _ => trivial) (fun _ => trivial) table).follows absent
      (.initializer start fun _ => trivial)
  have started {initializer : Initializer} {registry : Registry} :
      Unentered callee depth m (m.starting name initializer registry) := .of_event rfl nofun
  have outcome := ensure_outcome steps holds name m
  generalize (ensure (steps + 1) holds name).on m = result at finished outcome ⊢
  cases outcome with
  | refused | ready => exact Passive.refl m
  | filled start came | failed start came =>
    have filled := body start
    rw [came] at filled
    exact Passive.trans started (Passive.trans (filled nofun) (.of_event rfl nofun))
  | exhausted => exact absurd rfl finished

end Unentered

/-- A call that is entered while another call or a request is answered is enclosed by that one. -/
theorem enclosed_of_entered {steps : Nat} {callback : Callback}
    (way : ∀ holds, callback ≠ .safePoint holds)
    (finished : (Asked.answer ⟨steps, callback, m⟩).1 ≠ .error .exhausted)
    {callee : Ref .function} {depth : Nat} {later : List Event}
    (told : (Asked.answer ⟨steps, callback, m⟩).2.journal = later ++ m.journal)
    (entered : .entered callee depth ∈ later) :
    ∃ inner, Relation.ReflTransGen (Encloses True) ⟨steps, callback, m⟩ inner ∧
      Enters callee depth inner := by
  by_contra absent
  push Not at absent
  suffices untold : Unentered callee depth m (Asked.answer ⟨steps, callback, m⟩).2 by
    obtain ⟨others, told', missing⟩ := untold
    rw [List.append_cancel_right (told.symm.trans told')] at entered
    exact missing entered
  clear told
  induction steps generalizing callback m with
  | zero => cases callback <;> first | exact absurd rfl finished | exact absurd rfl (way _)
  | succ steps ih =>
    have below : ∀ {asked here}, (∀ holds, asked ≠ .safePoint holds) →
        (∀ inner, Relation.ReflTransGen (Encloses True) ⟨steps, asked, here⟩ inner →
          ¬ Enters callee depth inner) →
        (Asked.answer ⟨steps, asked, here⟩).1 ≠ .error .exhausted →
          Unentered callee depth here (Asked.answer ⟨steps, asked, here⟩).2 :=
      fun way absent finished => ih way finished absent
    cases callback with
    | call => exact unentered_of_call below absent finished
    | request => exact unentered_of_request below absent finished
    | safePoint holds => exact absurd rfl (way holds)

end Interpreter

end ScriptCore
