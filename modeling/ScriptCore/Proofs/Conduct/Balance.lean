import ScriptCore.Proofs.Conduct.Moments

/-!
Calls of functions leave the interpreter balanced and within its limit.

When a call is over, with a value or a fault, the stack of calls and the dispatching mark are what
they were before it, whatever the function did. All along, as many calls are on the stack as were
entered and not left, and no more than the limit. After its safe point a call is refused exactly if
the limit is reached; then nothing changes, and else its body runs one call deeper.
-/

namespace ScriptCore

variable {c : Config} {m m' : Machine}

/-- At every moment the depth is the number of active calls, and within the limit. -/
theorem Moment.depth_within (moment : Moment c m) :
    m.calls.depth = active m.journal ∧ ∀ n, c.maxCallDepth = some n → m.calls.depth ≤ n := by
  have orderly := moment.orderly
  refine ⟨orderly.depth, fun n limited => ?_⟩
  rw [orderly.depth]
  exact orderly.lawful.active_le limited

namespace Interpreter

section Call

variable (steps : Nat) (holds : List Hold) (callee : Ref .function) (args : List Value)
  (this : Option Value)

/-- The ways back into the interpreter that a call has. -/
def inside : Reentry := nested steps (.values (.function callee :: this.toList ++ args) :: holds)

instance {R : Machine → Machine → Prop} [Abiding R] :
    (inside steps holds callee args this).Leads R := leads_nested steps _

/-- What a call does between entering and leaving. -/
def work : Action Value := perform (inside steps holds callee args this) callee args this

theorem invoke_leads {R : Machine → Machine → Prop} [Abiding R]
    (finished : ((invoke steps holds callee args this).on m).1 ≠ .error .exhausted) :
    R m ((invoke steps holds callee args this).on m).2 :=
  ((leads_nested steps holds).call holds callee args this).related m finished

/-- The safe point of a call is balanced. -/
theorem balanced_of_polled {polled : Machine}
    (safe : (Invocation.poll (inside steps holds callee args this)).on m = (.ok (), polled)) :
    Balanced c m polled := by
  have balanced := (Invocation.leads_poll (R := Balanced c)
    (inside steps holds callee args this)).related m
  rw [safe] at balanced
  exact balanced nofun

theorem invoke_outcome : Invocation.CallOutcome (inside steps holds callee args this) callee
    (work steps holds callee args this) m ((invoke (steps + 1) holds callee args this).on m) :=
  Invocation.call_outcome _ _ _ _

/-- What a call that is entered comes to. -/
theorem invoke_of_room {polled : Machine} {calls : CallStack}
    (safe : (Invocation.poll (inside steps holds callee args this)).on m = (.ok (), polled))
    (room : polled.calls.push (polled.heap.functionName callee) = .ok calls) :
    (invoke (steps + 1) holds callee args this).on m =
      (((Invocation.traced (work steps holds callee args this)).on
          (polled.entering callee calls)).1,
        Invocation.leave callee
          ((work steps holds callee args this).on (polled.entering callee calls)).2) :=
  (Invocation.on_call_of_polled safe callee _).trans (Invocation.on_admitted_of_room room _)

/-- What a call that is not entered comes to. -/
theorem invoke_of_full {polled : Machine} {cause : Cause}
    (safe : (Invocation.poll (inside steps holds callee args this)).on m = (.ok (), polled))
    (full : polled.calls.push (polled.heap.functionName callee) = .error cause) :
    (invoke (steps + 1) holds callee args this).on m =
      (.error (.fault { cause }), polled.refusing callee) :=
  (Invocation.on_call_of_polled safe callee _).trans (Invocation.on_admitted_of_full full _)

/-- What a call comes to after its safe point: it is refused if the limit is reached, and entered
if it is not. -/
theorem invoke_of_polled {polled : Machine} (moment : Moment c polled)
    (safe : (Invocation.poll (inside steps holds callee args this)).on m = (.ok (), polled)) :
    (c.maxCallDepth = some polled.calls.depth ∧
      (invoke (steps + 1) holds callee args this).on m =
        (.error (.fault { cause := .depthExceeded polled.calls.depth }),
          polled.refusing callee)) ∨
    (c.maxCallDepth ≠ some polled.calls.depth ∧
      ∃ calls, polled.calls.push (polled.heap.functionName callee) = .ok calls ∧
        (invoke (steps + 1) holds callee args this).on m =
          (((Invocation.traced (work steps holds callee args this)).on
              (polled.entering callee calls)).1,
            Invocation.leave callee
              ((work steps holds callee args this).on (polled.entering callee calls)).2)) := by
  have depth := moment.orderly.depth
  cases place : polled.calls.push (polled.heap.functionName callee) with
  | error cause =>
    obtain ⟨full, rfl⟩ := moment.orderly.full place
    rw [← depth] at full place
    exact .inl ⟨full, invoke_of_full steps holds callee args this safe place⟩
  | ok calls =>
    obtain ⟨-, room⟩ := moment.orderly.room place
    rw [← depth] at room
    exact .inr ⟨room, calls, rfl, invoke_of_room steps holds callee args this safe place⟩

end Call

/-- A call leaves the calls and the dispatching mark as they were; at every moment up to its end
the depth is the number of active calls and within the limit; and once its safe point is over it is
refused exactly if as many calls are active as may be, and then nothing has changed and nothing has
run, while otherwise its body runs one call deeper. -/
theorem invoke_balanced (moment : Moment c m) (steps : Nat) (holds : List Hold)
    (callee : Ref .function) (args : List Value) (this : Option Value)
    {answer : Except Failure Value}
    (done : (invoke (steps + 1) holds callee args this).on m = (answer, m'))
    (finished : answer ≠ .error .exhausted) :
    (m'.calls = m.calls ∧ m'.dispatching = m.dispatching) ∧
    (Moment c m' ∧ (∀ here, Moment c here →
        here.calls.depth = active here.journal ∧
          ∀ n, c.maxCallDepth = some n → here.calls.depth ≤ n) ∧
      ∀ past, m.journal <:+ past → past <:+ m'.journal →
        toldDepth past = active past ∧ ∀ n, c.maxCallDepth = some n → active past ≤ n) ∧
    ∀ polled,
      (Invocation.poll (inside steps holds callee args this)).on m = (.ok (), polled) →
      Moment c polled ∧
      (∀ n, (answer, m') =
          (.error (.fault { cause := .depthExceeded n }), polled.refusing callee) ↔
        c.maxCallDepth = some n ∧ active polled.journal = n) ∧
      (c.maxCallDepth ≠ some (active polled.journal) →
        ∃ calls : CallStack,
          calls.frames = polled.heap.functionName callee :: polled.calls.frames ∧
          Moment c (polled.entering callee calls) ∧
          answer = ((Invocation.traced (work steps holds callee args this)).on
            (polled.entering callee calls)).1 ∧
          m' = Invocation.leave callee
            ((work steps holds callee args this).on (polled.entering callee calls)).2) := by
  have balanced : Balanced c m m' := by
    have := invoke_leads (R := Balanced c) (m := m) (steps + 1) holds callee args this
    rw [done] at this
    exact this finished
  have moment' := balanced.moment moment
  refine ⟨⟨balanced.calls, balanced.dispatching⟩, ⟨moment', fun here => Moment.depth_within, ?_⟩,
    fun polled safe => ?_⟩
  · intro past _ before
    have lawful := moment'.orderly.lawful.of_suffix before
    exact ⟨lawful.toldDepth_eq, fun n => lawful.active_le⟩
  · have here : Moment c polled :=
      (balanced_of_polled steps holds callee args this safe).moment moment
    have after := invoke_of_polled steps holds callee args this here safe
    rw [done] at after
    rw [← here.orderly.depth]
    refine ⟨here, fun n => ⟨fun refused => ?_, fun ⟨limited, reached⟩ => ?_⟩, fun room => ?_⟩
    · obtain ⟨full, outcome⟩ | ⟨room, calls, -, outcome⟩ := after
      · have same := refused.symm.trans outcome
        simp only [Prod.mk.injEq, Except.error.injEq, Failure.fault.injEq, Fault.mk.injEq,
          Cause.depthExceeded.injEq] at same
        exact ⟨same.1.1 ▸ full, same.1.1.symm⟩
      · -- A call that was entered has left an event of its end.
        have same := congrArg (fun outcome => outcome.2.journal.head?) (refused.symm.trans outcome)
        cases same
    · obtain ⟨full, outcome⟩ | ⟨room, -⟩ := after
      · rw [outcome, reached]
      · exact absurd (reached ▸ limited) room
    · obtain ⟨full, -⟩ | ⟨-, calls, place, outcome⟩ := after
      · exact absurd full room
      · obtain ⟨rfl, -⟩ := CallStack.push_eq_ok_iff.1 place
        exact ⟨_, rfl, .enter here place, congrArg Prod.fst outcome, congrArg Prod.snd outcome⟩

/-- The settings that allow one call at a time. -/
def single : Config := { maxCallDepth := some 1 }

/-- A machine with one function, which does nothing. -/
def lone : Machine :=
  { blank single with heap := ((blank single).heap.newFunction (.native "f" .inert)).2 }

/-- The machine while that function is called. -/
def busy : Machine := lone.entering ⟨0⟩ (lone.calls.cons "f")

/-- The machine after a safe point in that call. -/
def checked : Machine := busy.dispatchBegun.dispatchOver

/-- The function is called, and in that call it cannot be called again. -/
theorem invoke_balanced_single :
    Moment single lone ∧ Moment single busy ∧
      (∃ m', (invoke 1 [] ⟨0⟩ [] none).on lone = (.ok .null, m') ∧ m'.calls = lone.calls) ∧
      ∃ m', (invoke 1 [] ⟨0⟩ [] none).on busy =
          (.error (.fault { cause := .depthExceeded 1 }), m') ∧
        m' = checked.refusing ⟨0⟩ ∧ m'.calls = busy.calls := by
  have first : Moment single lone := .change .blank (.heap _ _)
  have second : Moment single busy := .enter first rfl
  obtain ⟨⟨kept, -⟩, -⟩ := invoke_balanced first 0 [] ⟨0⟩ [] none rfl nofun
  obtain ⟨⟨kept', -⟩, -, refused⟩ := invoke_balanced second 0 [] ⟨0⟩ [] none rfl nofun
  obtain ⟨-, exactly, -⟩ := refused checked rfl
  have same := (exactly 1).2 ⟨rfl, rfl⟩
  exact ⟨first, second, ⟨_, rfl, kept⟩, _, rfl, congrArg Prod.snd same, kept'⟩

end Interpreter

end ScriptCore
