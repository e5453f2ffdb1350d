import ScriptCore.Proofs.Conduct.Failures

/-!
Where traces come from.

A call that was entered gives the fault of its body the names of the calls that are active then, its
own first, unless the fault has a trace already. So a fault has its trace from the innermost entered
call that saw it, and everything around that call fails with that very fault: what is left and what
is called meanwhile does not show in the trace. A call that is refused is never active, and is not
in the trace of its refusal.
-/

namespace ScriptCore.Interpreter

variable {m m' : Machine} {fault : Fault}

/-! ### Calls that stay active -/

theorem nested_keepsCalls (steps : Nat) (holds : List Hold) : (nested steps holds).KeepsCalls :=
  fun asked m finished =>
    (((nested steps holds).leads_answer (R := Balanced {}) asked).related m finished).calls

section Call

variable {steps : Nat} {holds : List Hold} {callee : Ref .function} {args : List Value}
  {this : Option Value} {polled after : Machine} {calls : CallStack} {left : Fault}

variable (safe : (Invocation.poll (inside steps holds callee args this)).on m = (.ok (), polled))
  (room : polled.calls.push (polled.heap.functionName callee) = .ok calls)

include safe room

theorem frames_of_room : calls.frames = polled.heap.functionName callee :: m.calls.frames := by
  have balanced : Balanced {} m polled := balanced_of_polled steps holds callee args this safe
  obtain ⟨rfl, -⟩ := CallStack.push_eq_ok_iff.1 room
  rw [CallStack.cons, balanced.calls]

/-- When a fault leaves the body of a call, the calls active are those that were active before, and
the call itself. -/
theorem frames_of_fault
    (failed : (work steps holds callee args this).on (polled.entering callee calls) =
      (.error (.fault left), after)) :
    after.calls.frames = polled.heap.functionName callee :: m.calls.frames := by
  have balanced := ((performs_perform callee args this).leads (R := Balanced {})
    (inside steps holds callee args this)).related (polled.entering callee calls)
  rw [work] at failed
  rw [failed] at balanced
  rw [(balanced nofun).calls]
  exact frames_of_room safe room

/-- A call that was entered and fails has a body that failed, and gives the fault its trace. -/
theorem fault_of_invoke
    (failed : (invoke (steps + 1) holds callee args this).on m = (.error (.fault fault), m')) :
    ∃ left after, (work steps holds callee args this).on (polled.entering callee calls) =
        (.error (.fault left), after) ∧ fault = after.calls.attachTrace left := by
  match came : (work steps holds callee args this).on (polled.entering callee calls) with
  | (.error (.fault left), after) =>
    refine ⟨left, after, rfl, ?_⟩
    cases (invoke_of_fault safe room came).symm.trans failed
    rfl
  | (.ok v, after) | (.error .exhausted, after) =>
    rw [invoke_of_room steps holds callee args this safe room] at failed
    have same := congrArg Prod.fst failed
    rw [Run.on] at came same
    rw [Invocation.traced, came] at same
    cases same

end Call

/-! ### Where a trace was taken -/

/-- The callback comes to a fault. -/
def Asked.FailsWith (asked : Asked) (fault : Fault) : Prop :=
  ∃ after, asked.answer = (.error (.fault fault), after)

/-- The first callback encloses the second one directly, and both fail with the fault. -/
def Passes (fault : Fault) (outer inner : Asked) : Prop :=
  outer.FailsWith fault ∧ Encloses True outer inner ∧ inner.FailsWith fault

/-- The callback is a call that was entered and whose body left with a fault that had no trace. The
call gave it as its trace the names of the calls active then, which are its own and those of the
calls that were active before. -/
inductive TakenIn (fault : Fault) : Asked → Prop
  | call {steps holds callee args this m polled calls left after}
      (safe : (Invocation.poll (inside steps holds callee args this)).on m = (.ok (), polled))
      (room : polled.calls.push (polled.heap.functionName callee) = .ok calls)
      (failed : (work steps holds callee args this).on (polled.entering callee calls) =
        (.error (.fault left), after))
      (untraced : left.trace = none)
      (taken : fault = { left with trace := some after.calls.frames })
      (active : after.calls.frames = polled.heap.functionName callee :: m.calls.frames) :
      TakenIn fault ⟨steps + 1, .call holds callee args this, m⟩

/-- The callback is a request for a package that had failed with the fault before. -/
inductive KeptBy (fault : Fault) : Asked → Prop
  | request {steps holds name m} (failed : (m.registry.request name).1 = .refused fault) :
    KeptBy fault ⟨steps, .request holds name, m⟩

/-- The callback fails with a fault that was given its trace by a call within it, or that a package
had kept, and that everything between fails with as it is. The trace of the call ends with the
given frames. -/
def ComesFromWithin (fault : Fault) (frames : List String) (outer : Asked) : Prop :=
  ∃ origin, Relation.ReflTransGen (Passes fault) outer origin ∧
    ((TakenIn fault origin ∧ ∃ trace, fault.trace = some trace ∧ frames <:+ trace) ∨
      KeptBy fault origin)

theorem ComesFromWithin.passed {frames frames' : List String} {outer inner : Asked}
    (within : ComesFromWithin fault frames inner) (passes : Passes fault outer inner)
    (active : frames' <:+ frames) : ComesFromWithin fault frames' outer := by
  obtain ⟨origin, chain, ⟨taken, trace, told, suffix⟩ | kept⟩ := within
  · exact ⟨origin, chain.head passes, .inl ⟨taken, trace, told, active.trans suffix⟩⟩
  · exact ⟨origin, chain.head passes, .inr kept⟩

section Origin

variable {steps : Nat} {holds : List Hold} {callee : Ref .function} {args : List Value}
  {this : Option Value} {name : String} {polled after : Machine} {calls : CallStack}
  (traced : fault.trace.isSome = true)
  (below : ∀ {asked here}, (∀ holds, asked ≠ .safePoint holds) →
    Asked.FailsWith ⟨steps, asked, here⟩ fault →
      ComesFromWithin fault here.calls.frames ⟨steps, asked, here⟩)

include below

/-- A fault with a trace that what a callback does fails with comes from a callback of its own. -/
theorem comesFromWithin_of_op {ε α : Type} [Failing ε] {op : Reentry → Run ε α}
    (follows : Follows True op) (traced : fault.trace.isSome = true) {outer : Asked}
    (failed : outer.FailsWith fault)
    (came : (op (nested steps holds)).on m = (.error (Failing.ofFailure (.fault fault)), after))
    (encloses : ∀ {asked here},
      (nested steps holds).HangsOn (fun re => (op re).on m) asked here →
        Encloses True outer ⟨steps, asked, here⟩) :
    ComesFromWithin fault m.calls.frames outer := by
  obtain untraced | ⟨asked, here, last, answered, hangs⟩ := follows.origin_of_fault came
  · rw [untraced] at traced
    cases traced
  · have inner : Asked.FailsWith ⟨steps, asked, here⟩ fault :=
      ⟨last, (Asked.answer_eq ⟨steps, asked, here⟩ _).trans answered⟩
    have active := follows.calls_eq (nested_keepsCalls steps holds) hangs
    refine (below hangs.ne_safePoint inner).passed ⟨failed, encloses hangs, inner⟩ ?_
    exact active ▸ List.suffix_rfl

/-- A call that was entered has given the fault its trace, or a callback of its body has failed
with the fault. -/
theorem comesFromWithin_of_room
    (safe : (Invocation.poll (inside steps holds callee args this)).on m = (.ok (), polled))
    (room : polled.calls.push (polled.heap.functionName callee) = .ok calls)
    (failed : (invoke (steps + 1) holds callee args this).on m = (.error (.fault fault), m')) :
    ComesFromWithin fault (polled.heap.functionName callee :: m.calls.frames)
      ⟨steps + 1, .call holds callee args this, m⟩ := by
  obtain ⟨left, after, came, taken⟩ := fault_of_invoke safe room failed
  cases traced : left.trace with
  | none =>
    have active := frames_of_fault safe room came
    have told := taken.trans (CallStack.attachTrace_of_untraced traced active)
    refine ⟨_, .refl, .inl ⟨.call safe room came traced told active, _, ?_, List.suffix_rfl⟩⟩
    rw [told, active]
  | some trace =>
    rw [CallStack.attachTrace_of_traced (by simp [traced])] at taken
    subst taken
    have outer : Asked.FailsWith ⟨steps + 1, .call holds callee args this, m⟩ fault := ⟨_, failed⟩
    rw [← frames_of_room safe room]
    exact comesFromWithin_of_op below (performs_perform callee args this).follows (by simp [traced])
      outer came (.body safe room fun _ => trivial)

include traced

theorem comesFromWithin_of_call
    (failed : (invoke (steps + 1) holds callee args this).on m = (.error (.fault fault), m')) :
    ComesFromWithin fault m.calls.frames ⟨steps + 1, .call holds callee args this, m⟩ := by
  have outcome := invoke_outcome steps holds callee args this (m := m)
  generalize told : (invoke (steps + 1) holds callee args this).on m = result at outcome
  cases outcome with
  | interrupted came =>
    cases told.symm.trans failed
    exact comesFromWithin_of_op below Invocation.follows_poll traced ⟨_, failed⟩ came .poll
  | refused =>
    cases told.symm.trans failed
    cases traced
  | entered safe room =>
    obtain ⟨origin, chain, ⟨taken, trace, told, suffix⟩ | kept⟩ :=
      comesFromWithin_of_room below safe room failed
    · exact ⟨origin, chain, .inl ⟨taken, trace, told, (List.suffix_cons _ _).trans suffix⟩⟩
    · exact ⟨origin, chain, .inr kept⟩

theorem comesFromWithin_of_request
    (failed : (ensure (steps + 1) holds name).on m = (.error (.fault fault), m')) :
    ComesFromWithin fault m.calls.frames ⟨steps + 1, .request holds name, m⟩ := by
  have outer : Asked.FailsWith ⟨steps + 1, .request holds name, m⟩ fault := ⟨_, failed⟩
  have outcome := ensure_outcome steps holds name m
  rw [failed] at outcome
  cases outcome with
  | refused kept => exact ⟨_, .refl, .inr (.request kept)⟩
  | @failed initializer table registry _ _ start came =>
    exact comesFromWithin_of_op (m := m.starting name initializer registry) below
      (performs_runInitializer (fun _ => trivial) (fun _ => trivial) table).follows traced outer came
      (.initializer start fun _ => trivial)

end Origin

/-- A fault with a trace comes from a call that gave it the trace, or from a package. -/
theorem comesFromWithin_of_fault (traced : fault.trace.isSome = true) {steps : Nat}
    {callback : Callback} (way : ∀ holds, callback ≠ .safePoint holds)
    (failed : Asked.FailsWith ⟨steps, callback, m⟩ fault) :
    ComesFromWithin fault m.calls.frames ⟨steps, callback, m⟩ := by
  obtain ⟨after, failed⟩ := failed
  induction steps generalizing callback m after with
  | zero => cases callback <;> first | cases failed | exact absurd rfl (way _)
  | succ steps ih =>
    have below : ∀ {asked here}, (∀ holds, asked ≠ .safePoint holds) →
        Asked.FailsWith ⟨steps, asked, here⟩ fault →
          ComesFromWithin fault here.calls.frames ⟨steps, asked, here⟩ :=
      fun way ⟨after, failed⟩ => ih way after failed
    cases callback with
    | call => exact comesFromWithin_of_call traced below failed
    | request => exact comesFromWithin_of_request traced below failed
    | safePoint holds => exact absurd rfl (way holds)

/-! ### Refused calls -/

/-- The callback is a call that is refused after its safe point. -/
inductive Refused (cause : Cause) : Asked → Prop
  | call {steps holds callee args this m polled}
      (safe : (Invocation.poll (inside steps holds callee args this)).on m = (.ok (), polled))
      (full : polled.calls.push (polled.heap.functionName callee) = .error cause) :
      Refused cause ⟨steps + 1, .call holds callee args this, m⟩

theorem Refused.failsWith {cause : Cause} {asked : Asked} (refused : Refused cause asked) :
    asked.FailsWith { cause } := by
  cases refused with
  | call safe full => exact ⟨_, invoke_of_full _ _ _ _ _ safe full⟩

/-! ### The trace of a fault -/

section Call

variable {steps : Nat} {holds : List Hold} {callee : Ref .function} {args : List Value}
  {this : Option Value} {polled : Machine} {calls : CallStack}
  (safe : (Invocation.poll (inside steps holds callee args this)).on m = (.ok (), polled))
  (room : polled.calls.push (polled.heap.functionName callee) = .ok calls)

include safe room

/-- The fault of a callback that a call encloses and does not catch leaves the body of the call, and
the calls that are active in the body were active when the callback was made. -/
theorem fault_of_enclosed {inner : Asked} {left : Fault}
    (encloses : Encloses False ⟨steps + 1, .call holds callee args this, m⟩ inner)
    (failed : inner.FailsWith left) :
    inner.machine.calls = calls ∧
      ∃ after, (work steps holds callee args this).on (polled.entering callee calls) =
        (.error (.fault left), after) := by
  obtain ⟨after, failed⟩ := failed
  rw [Asked.answer_eq] at failed
  cases encloses with
  | poll hangs =>
    obtain ⟨_, refuses, -⟩ := Invocation.follows_poll.fails hangs failed False.elim
    cases safe.symm.trans refuses
  | body safe' room' catches hangs =>
    cases safe.symm.trans safe'
    cases room.symm.trans room'
    have follows : Follows False fun re =>
        performCallable re args this (polled.heap.callable callee) :=
      (performs_performCallable args this catches fun _ => trivial).follows
    simp only [on_perform] at hangs
    obtain ⟨after', runs, -⟩ := follows.fails hangs failed False.elim
    exact ⟨follows.calls_eq (nested_keepsCalls _ _) hangs,
      after', (on_perform _ _ _ _ _).trans runs⟩

/-- A call that was entered and fails does so with a fault that has a trace. If the fault left the
body without one, the trace is the names of the calls that were active then, that of this call
first; if it had one, it is unchanged. In any case the trace was taken by the innermost call that
was entered and that the fault came through, or the fault is one that a package kept; all callbacks
between fail with it as it is, and so do all callbacks around this call as long as no body catches.
A call that is refused in this one is not in the trace of its refusal. -/
theorem fault_traced_innermost
    (failed : (invoke (steps + 1) holds callee args this).on m = (.error (.fault fault), m')) :
    let outer : Asked := ⟨steps + 1, .call holds callee args this, m⟩
    let frames := polled.heap.functionName callee :: m.calls.frames
    (∃ left after, (work steps holds callee args this).on (polled.entering callee calls) =
        (.error (.fault left), after) ∧
      after.calls.frames = frames ∧
      (left.trace = none → fault = { left with trace := some after.calls.frames }) ∧
      (left.trace.isSome = true → fault = left)) ∧
    fault.trace.isSome = true ∧
    ComesFromWithin fault frames outer ∧
    (∀ around, Relation.ReflTransGen (Encloses False) around outer → around.FailsWith fault) ∧
    ∀ inner cause, Encloses False outer inner → Refused cause inner →
      inner.machine.calls.frames = frames ∧ fault = { cause, trace := some frames } := by
  intro outer frames
  obtain ⟨left, after, came, taken⟩ := fault_of_invoke safe room failed
  have active : after.calls.frames = frames := frames_of_fault safe room came
  have untraced (none : left.trace = none) :
      fault = { left with trace := some after.calls.frames } :=
    taken.trans (CallStack.attachTrace_of_untraced none active)
  have unchanged (some : left.trace.isSome = true) : fault = left :=
    taken.trans (CallStack.attachTrace_of_traced some)
  have traced : fault.trace.isSome = true := by
    cases had : left.trace with
    | none => rw [untraced had]; rfl
    | some trace => rw [unchanged (by rw [had]; rfl), had]; rfl
  refine ⟨⟨left, after, came, active, untraced, unchanged⟩, traced, ?_, ?_, ?_⟩
  · refine comesFromWithin_of_room (fun way inner => ?_) safe room failed
    exact comesFromWithin_of_fault traced way inner
  · intro around chain
    obtain ⟨fault', after', answered, -, same, -⟩ := fails_of_chain chain failed
    exact ⟨after', same traced ▸ answered⟩
  · intro inner cause encloses refused
    obtain ⟨calls_eq, after', came'⟩ := fault_of_enclosed safe room encloses refused.failsWith
    cases came.symm.trans came'
    rw [calls_eq]
    exact ⟨frames_of_room safe room, active ▸ untraced rfl⟩

end Call

/-- The method of a slot that an array is mapped with fails, and the trace that it gave the fault is
that of the whole pass. -/
theorem fault_traced_innermost_mapping :
    (Invocation.poll (inside 2 [] ⟨0⟩ [.array ⟨0⟩, .function ⟨1⟩] none)).on connected =
        (.ok (), connected) ∧
      ∃ m', (invoke 3 [] ⟨0⟩ [.array ⟨0⟩, .function ⟨1⟩] none).on connected =
          (.error (.fault
            { cause := .arity "method" 0 1 false, trace := some ["method", "slot", "map"] }), m') ∧
        ComesFromWithin
          { cause := .arity "method" 0 1 false, trace := some ["method", "slot", "map"] } ["map"]
          ⟨3, .call [] ⟨0⟩ [.array ⟨0⟩, .function ⟨1⟩] none, connected⟩ := by
  have safe : (Invocation.poll (inside 2 [] ⟨0⟩ [.array ⟨0⟩, .function ⟨1⟩] none)).on connected =
      (.ok (), connected) := rfl
  have failed : (invoke 3 [] ⟨0⟩ [.array ⟨0⟩, .function ⟨1⟩] none).on connected =
      (.error (.fault
        { cause := .arity "method" 0 1 false, trace := some ["method", "slot", "map"] }), _) := rfl
  obtain ⟨-, -, within, -⟩ := fault_traced_innermost safe rfl failed
  exact ⟨safe, _, failed, within⟩

end ScriptCore.Interpreter
