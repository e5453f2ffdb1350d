import ScriptCore.Proofs.Conduct.Plans

/-!
What hangs on the answer to a callback.

What is come to with the ways back into the interpreter hangs on the answer to a callback in a
machine if it can come to something else when nothing but that answer is another.

A dispatch makes callbacks without being a way back itself. It hangs on nothing but the calls of
handlers: the failure of one of them ends the dispatch, and the dispatch fails with nothing else.
-/

namespace ScriptCore

open ScriptCore.Action

variable {ε α β : Type} {re other : Reentry} {asked : Callback} {here m m' : Machine}
  {failure : Failure} {fault : Fault}

theorem Run.on_bind_fst_of_error {run : Run ε α} {e : ε} (failed : (run.on m).1 = .error e)
    (next : α → Run ε β) : ((run >>= next).on m).1 = .error e := by
  rw [on_bind]
  cases done : run.on m with
  | mk result m' =>
    rw [done] at failed
    cases failed
    rfl

/-! ### Answers that matter -/

namespace Reentry

/-- Two ways back into the interpreter that differ at most in the answer to one callback in one
machine. -/
structure AgreesBut (re other : Reentry) (asked : Callback) (here : Machine) : Prop where
  holds : other.holds = re.holds
  call : ∀ holds callee args this m, (Callback.call holds callee args this, m) ≠ (asked, here) →
    (other.call holds callee args this).on m = (re.call holds callee args this).on m
  request : ∀ holds name m, (Callback.request holds name, m) ≠ (asked, here) →
    (other.request holds name).on m = (re.request holds name).on m

theorem AgreesBut.symm (agrees : re.AgreesBut other asked here) :
    other.AgreesBut re asked here where
  holds := agrees.holds.symm
  call _ _ _ _ _ away := (agrees.call _ _ _ _ _ away).symm
  request _ _ _ away := (agrees.request _ _ _ away).symm

theorem AgreesBut.trans {third : Reentry} (first : re.AgreesBut other asked here)
    (second : other.AgreesBut third asked here) : re.AgreesBut third asked here where
  holds := second.holds.trans first.holds
  call _ _ _ _ _ away := (second.call _ _ _ _ _ away).trans (first.call _ _ _ _ _ away)
  request _ _ _ away := (second.request _ _ _ away).trans (first.request _ _ _ away)

/-- A callback leaves the calls as they were. -/
def KeepsCalls (re : Reentry) : Prop := ∀ asked m,
  ((re.answer asked).on m).1 ≠ .error .exhausted → ((re.answer asked).on m).2.calls = m.calls

/-- What is come to with the ways back hangs on the answer to a callback in a machine. -/
def HangsOn (re : Reentry) (outcome : Reentry → β) (asked : Callback) (here : Machine) : Prop :=
  ∃ other, re.AgreesBut other asked here ∧ outcome other ≠ outcome re

/-- Whether something hangs on an answer does not depend on what is answered there. -/
theorem HangsOn.congr {outcome : Reentry → β} (hangs : re.HangsOn outcome asked here)
    (agrees : re.AgreesBut other asked here) : other.HangsOn outcome asked here := by
  obtain ⟨third, agrees', differs⟩ := hangs
  by_cases same : outcome other = outcome re
  · exact ⟨third, agrees.symm.trans agrees', same ▸ differs⟩
  · exact ⟨re, agrees.symm, Ne.symm same⟩

theorem HangsOn.bind {op : Reentry → Run ε α} {rest : Reentry → α → Run ε β}
    (hangs : re.HangsOn (fun re => (op re >>= rest re).on m) asked here) :
    re.HangsOn (fun re => (op re).on m) asked here ∨
      ∃ a m', (op re).on m = (.ok a, m') ∧
        re.HangsOn (fun re => (rest re a).on m') asked here := by
  obtain ⟨other, agrees, differs⟩ := hangs
  by_cases same : (op other).on m = (op re).on m
  · refine .inr ?_
    simp only [Run.on_bind, same] at differs
    cases done : (op re).on m with
    | mk result m' =>
      rw [done] at differs
      cases result with
      | ok a => exact ⟨a, m', rfl, other, agrees, differs⟩
      | error e => exact absurd rfl differs
  · exact .inl ⟨other, agrees, same⟩

open Classical in
/-- The ways back with which the bound on nested calls is used up at one callback in one
machine. -/
noncomputable def cutting (re : Reentry) (asked : Callback) (here : Machine) : Reentry where
  holds := re.holds
  call holds callee args this := fun m =>
    if (Callback.call holds callee args this, m) = (asked, here) then (.error .exhausted, m)
    else re.call holds callee args this m
  request holds name := fun m =>
    if (Callback.request holds name, m) = (asked, here) then (.error .exhausted, m)
    else re.request holds name m

theorem agreesBut_cutting (re : Reentry) (asked : Callback) (here : Machine) :
    re.AgreesBut (re.cutting asked here) asked here where
  holds := rfl
  call _ _ _ _ _ away := if_neg away
  request _ _ _ away := if_neg away

theorem call_cutting (re : Reentry) (holds : List Hold) (callee : Ref .function)
    (args : List Value) (this : Option Value) (here : Machine) :
    ((re.cutting (.call holds callee args this) here).call holds callee args this).on here =
      (.error .exhausted, here) := if_pos rfl

theorem request_cutting (re : Reentry) (holds : List Hold) (name : String) (here : Machine) :
    ((re.cutting (.request holds name) here).request holds name).on here =
      (.error .exhausted, here) := if_pos rfl

/-- Nothing hangs on the answer to a safe point, which is no way back of its own. -/
theorem HangsOn.ne_safePoint {outcome : Reentry → β} (hangs : re.HangsOn outcome asked here)
    (holds : List Hold) : asked ≠ .safePoint holds := by
  rintro rfl
  obtain ⟨other, agrees, differs⟩ := hangs
  refine differs (congrArg outcome ?_)
  obtain ⟨_, call, request⟩ := re
  obtain ⟨_, call', request'⟩ := other
  have sameHolds := agrees.holds
  have sameCall : call' = call := by
    funext holds callee args this m
    exact agrees.call holds callee args this m nofun
  have sameRequest : request' = request := by
    funext holds name m
    exact agrees.request holds name m nofun
  dsimp only at sameHolds
  rw [sameHolds, sameCall, sameRequest]

theorem HangsOn.answer_cutting {outcome : Reentry → β} (hangs : re.HangsOn outcome asked here) :
    ((re.cutting asked here).answer asked).on here = (.error .exhausted, here) := by
  cases asked with
  | call => exact re.call_cutting _ _ _ _ here
  | request => exact re.request_cutting _ _ here
  | safePoint holds => exact absurd rfl (hangs.ne_safePoint holds)

/-- The relation holds across every callback with which the outcome is cut short. -/
def Across [Failing ε] (re : Reentry) (R : Machine → Machine → Prop)
    (outcome : Reentry → Except ε β × Machine) : Prop :=
  ∀ asked here, (outcome (re.cutting asked here)).1 = .error (Failing.ofFailure .exhausted) →
    ((re.answer asked).on here).1 ≠ .error .exhausted → R here ((re.answer asked).on here).2

end Reentry

/-- The relation holds across everything that is done besides callbacks. -/
class Passive (R : Machine → Machine → Prop) : Prop where
  refl : ∀ m, R m m
  trans : ∀ {m m' m''}, R m m' → R m' m'' → R m m''
  change : ∀ {m m'}, Change m m' → R m m'
  dispatchBegun : ∀ m, R m m.dispatchBegun
  taking : ∀ m s, R m (m.taking s)
  dispatchOver : ∀ m, R m m.dispatchOver

/-! ### Callbacks in a dispatch -/

namespace Invocation

variable {s : OsSignal} {signals : List OsSignal} {after : Machine}

/-- The turn of a signal calls nothing and comes to the same whatever the ways back are, or it is
the call of the signal's handler. -/
theorem dispatchSignal_cases (s : OsSignal) (m : Machine) :
    (∃ m', (m = m' ∨ m' = m.taking s) ∧ ∀ re, (dispatchSignal re s).on m = (.ok (), m')) ∨
      ∃ f, ∀ re, (dispatchSignal re s).on m =
        (discard (re.invoke f [.text s.name] none) : Action Unit).on (m.taking s) := by
  cases pending : m.signals.isPending s with
  | false => exact .inl ⟨m, .inl rfl, fun re => on_dispatchSignal_of_idle re pending⟩
  | true =>
    cases handler : m.signals.handler? s with
    | none =>
      exact .inl ⟨m.taking s, .inr rfl, fun re =>
        on_dispatchSignal_of_unhandled re pending handler⟩
    | some f => exact .inr ⟨f, fun re => on_dispatchSignal_of_handled re pending handler⟩

/-- The turn of a signal hangs only on the call of the signal's handler. -/
theorem asked_of_dispatchSignal
    (hangs : re.HangsOn (fun re => (dispatchSignal re s).on m) asked here) :
    ∃ f, asked = .call re.holds f [.text s.name] none ∧ here = m.taking s ∧
      ∀ re, (dispatchSignal re s).on m =
        (discard (re.invoke f [.text s.name] none) : Action Unit).on (m.taking s) := by
  obtain ⟨other, agrees, differs⟩ := hangs
  obtain ⟨m', -, same⟩ | ⟨f, turn⟩ := dispatchSignal_cases s m
  · exact absurd ((same other).trans (same re).symm) differs
  · by_cases met : (Callback.call re.holds f [.text s.name] none, m.taking s) = (asked, here)
    · cases met
      exact ⟨f, rfl, rfl, turn⟩
    · have same := agrees.call re.holds f [.text s.name] none (m.taking s) met
      refine absurd ?_ differs
      dsimp only
      rw [turn, turn, Run.on_discard, Run.on_discard, Reentry.invoke, Reentry.invoke,
        agrees.holds, same]

/-- The failure of a handler ends the turns of all signals. -/
theorem on_dispatch_of_hangs
    (hangs : re.HangsOn (fun re => (signals.forM (dispatchSignal re)).on m) asked here)
    (failed : (re.answer asked).on here = (.error failure, after)) :
    (signals.forM (dispatchSignal re)).on m = (.error failure, after) := by
  induction signals generalizing m with
  | nil =>
    obtain ⟨other, -, differs⟩ := hangs
    exact absurd rfl differs
  | cons s rest ih =>
    simp only [dispatch_cons] at hangs ⊢
    obtain now | ⟨⟨⟩, m', done, later⟩ := hangs.bind
    · obtain ⟨f, rfl, rfl, turn⟩ := asked_of_dispatchSignal now
      have invoked : (re.invoke f [.text s.name] none).on (m.taking s) = (.error failure, after) :=
        failed
      rw [Run.on_bind, turn, Run.on_discard, invoked]
    · rw [Run.on_bind_of_ok done]
      exact ih later

/-- Only a dispatch hangs on a callback. -/
theorem HangsOn.safePoint (hangs : re.HangsOn (fun re => (safePoint re).on m) asked here) :
    m.dispatching = false ∧
      re.HangsOn (fun re => (dispatchPending re).on m.dispatchBegun) asked here := by
  obtain ⟨other, agrees, differs⟩ := hangs
  dsimp only at differs
  cases outside : m.dispatching with
  | true =>
    rw [on_safePoint_of_dispatching other outside, on_safePoint_of_dispatching re outside]
      at differs
    exact absurd rfl differs
  | false =>
    refine ⟨rfl, other, agrees, fun same => differs ?_⟩
    dsimp only at same
    rw [on_safePoint_of_not_dispatching other outside,
      on_safePoint_of_not_dispatching re outside, same]

theorem on_safePoint_of_hangs (hangs : re.HangsOn (fun re => (safePoint re).on m) asked here)
    (failed : (re.answer asked).on here = (.error failure, after)) :
    (safePoint re).on m = (.error failure, after.dispatchOver) := by
  obtain ⟨outside, inside⟩ := HangsOn.safePoint hangs
  have ended : (dispatchPending re).on m.dispatchBegun = (.error failure, after) :=
    on_dispatch_of_hangs inside failed
  rw [on_safePoint_of_not_dispatching re outside, ended]

section Calls

variable (keeps : re.KeepsCalls)

include keeps

theorem calls_of_dispatchSignal (done : (dispatchSignal re s).on m = (.ok (), m')) :
    m'.calls = m.calls := by
  obtain ⟨after, rfl | rfl, same⟩ | ⟨f, turn⟩ := dispatchSignal_cases s m
  · rw [same] at done
    cases done
    rfl
  · rw [same] at done
    cases done
    rfl
  · have called := keeps (.call re.holds f [.text s.name] none) (m.taking s)
    rw [turn, Run.on_discard, Reentry.invoke] at done
    rw [Reentry.answer] at called
    cases answered : (re.call re.holds f [.text s.name] none).on (m.taking s) with
    | mk answer after =>
      rw [answered] at done called
      cases answer with
      | ok v =>
        cases done
        exact called (by rintro ⟨⟩)
      | error failure => cases done

/-- The handlers that a dispatch calls are called with the calls active that were active before. -/
theorem calls_of_hangs_dispatch
    (hangs : re.HangsOn (fun re => (signals.forM (dispatchSignal re)).on m) asked here) :
    here.calls = m.calls := by
  induction signals generalizing m with
  | nil =>
    obtain ⟨other, -, differs⟩ := hangs
    exact absurd rfl differs
  | cons s rest ih =>
    simp only [dispatch_cons] at hangs
    obtain now | ⟨⟨⟩, m', done, later⟩ := hangs.bind
    · obtain ⟨f, -, rfl, -⟩ := asked_of_dispatchSignal now
      rfl
    · exact (ih later).trans (calls_of_dispatchSignal keeps done)

theorem calls_of_hangs_safePoint
    (hangs : re.HangsOn (fun re => (safePoint re).on m) asked here) : here.calls = m.calls := by
  obtain ⟨-, inside⟩ := HangsOn.safePoint hangs
  exact calls_of_hangs_dispatch keeps (m := m.dispatchBegun) inside

end Calls

/-! ### Where the fault of a dispatch comes from -/

theorem cut_dispatchSignal {f : Ref .function}
    (turn : ∀ re, (dispatchSignal re s).on m =
      (discard (re.invoke f [.text s.name] none) : Action Unit).on (m.taking s)) :
    ((dispatchSignal (re.cutting (.call re.holds f [.text s.name] none) (m.taking s)) s).on m).1 =
      .error .exhausted := by
  have cut : ((re.cutting (.call re.holds f [.text s.name] none) (m.taking s)).invoke f
      [.text s.name] none).on (m.taking s) = (.error .exhausted, m.taking s) :=
    re.call_cutting _ _ _ _ _
  rw [turn, Run.on_discard, cut]

/-- Cutting a callback short cuts the turn of a signal short, or else makes no difference to it. -/
theorem cutting_dispatchSignal (re : Reentry) (asked : Callback) (here m : Machine) :
    (dispatchSignal (re.cutting asked here) s).on m = (dispatchSignal re s).on m ∨
      ((dispatchSignal (re.cutting asked here) s).on m).1 = .error .exhausted := by
  by_cases hangs : re.HangsOn (fun re => (dispatchSignal re s).on m) asked here
  · obtain ⟨f, rfl, rfl, turn⟩ := asked_of_dispatchSignal hangs
    exact .inr (cut_dispatchSignal turn)
  · by_contra neither
    exact hangs ⟨_, re.agreesBut_cutting asked here, fun same => neither (.inl same)⟩

theorem fault_of_dispatchSignal
    (failed : (dispatchSignal re s).on m = (.error (.fault fault), m')) :
    ∃ asked here after, (re.answer asked).on here = (.error (.fault fault), after) ∧
      ((dispatchSignal (re.cutting asked here) s).on m).1 = .error .exhausted := by
  obtain ⟨_, -, same⟩ | ⟨f, turn⟩ := dispatchSignal_cases s m
  · cases (same re).symm.trans failed
  · refine ⟨_, _, m', ?_, cut_dispatchSignal turn⟩
    rw [turn, Run.on_discard] at failed
    cases answered : (re.invoke f [.text s.name] none).on (m.taking s) with
    | mk answer after =>
      rw [answered] at failed
      cases answer <;> cases failed
      exact answered

/-- A dispatch fails only with what a handler fails with. -/
theorem fault_of_dispatch
    (failed : (signals.forM (dispatchSignal re)).on m = (.error (.fault fault), m')) :
    ∃ asked here after, (re.answer asked).on here = (.error (.fault fault), after) ∧
      ((signals.forM (dispatchSignal (re.cutting asked here))).on m).1 = .error .exhausted := by
  induction signals generalizing m with
  | nil => cases failed
  | cons s rest ih =>
    rw [dispatch_cons, Run.on_bind] at failed
    simp only [dispatch_cons]
    cases done : (dispatchSignal re s).on m with
    | mk result next =>
      rw [done] at failed
      cases result with
      | ok =>
        obtain ⟨asked, here, after, answered, cut⟩ := ih failed
        refine ⟨asked, here, after, answered, ?_⟩
        obtain same | short := cutting_dispatchSignal (s := s) re asked here m
        · rw [Run.on_bind_of_ok (same.trans done)]
          exact cut
        · exact Run.on_bind_fst_of_error short _
      | error failure =>
        cases failed
        obtain ⟨asked, here, after, answered, cut⟩ := fault_of_dispatchSignal done
        exact ⟨asked, here, after, answered, Run.on_bind_fst_of_error cut _⟩

theorem fault_of_safePoint (failed : (safePoint re).on m = (.error (.fault fault), m')) :
    ∃ asked here after, (re.answer asked).on here = (.error (.fault fault), after) ∧
      ((safePoint (re.cutting asked here)).on m).1 = .error .exhausted := by
  cases outside : m.dispatching with
  | true =>
    rw [on_safePoint_of_dispatching re outside] at failed
    cases failed
  | false =>
    rw [on_safePoint_of_not_dispatching re outside] at failed
    cases ended : (dispatchPending re).on m.dispatchBegun with
    | mk result after =>
      rw [ended] at failed
      cases failed
      obtain ⟨asked, here, after, answered, cut⟩ := fault_of_dispatch ended
      refine ⟨asked, here, after, answered, ?_⟩
      rw [on_safePoint_of_not_dispatching _ outside]
      exact cut

/-! ### What holds across a dispatch -/

section Across

variable {R : Machine → Machine → Prop} [Passive R]

theorem related_dispatchSignal (across : re.Across R fun re => (dispatchSignal re s).on m)
    (finished : ((dispatchSignal re s).on m).1 ≠ .error .exhausted) :
    R m ((dispatchSignal re s).on m).2 := by
  obtain ⟨_, rfl | rfl, same⟩ | ⟨f, turn⟩ := dispatchSignal_cases s m
  · rw [same]
    exact Passive.refl m
  · rw [same]
    exact Passive.taking m s
  · have called := across _ _ (cut_dispatchSignal turn)
    rw [turn, Run.on_discard, Reentry.invoke] at finished ⊢
    rw [Reentry.answer] at called
    refine Passive.trans (Passive.taking m s) ?_
    cases answered : (re.call re.holds f [.text s.name] none).on (m.taking s) with
    | mk answer after =>
      rw [answered] at finished called
      cases answer with
      | ok v => exact called (by rintro ⟨⟩)
      | error failure => exact called fun cut => finished (congrArg _ (Except.error.inj cut))

theorem related_dispatch
    (across : re.Across R fun re => (signals.forM (dispatchSignal re)).on m)
    (finished : ((signals.forM (dispatchSignal re)).on m).1 ≠ .error .exhausted) :
    R m ((signals.forM (dispatchSignal re)).on m).2 := by
  induction signals generalizing m with
  | nil => exact Passive.refl m
  | cons s rest ih =>
    simp only [dispatch_cons] at across finished ⊢
    have first : ((dispatchSignal re s).on m).1 ≠ .error .exhausted →
        R m ((dispatchSignal re s).on m).2 :=
      related_dispatchSignal fun asked here cut =>
        across asked here (Run.on_bind_fst_of_error cut _)
    rw [Run.on_bind] at finished ⊢
    cases done : (dispatchSignal re s).on m with
    | mk result next =>
      rw [done] at first finished
      cases result with
      | ok =>
        refine Passive.trans (first nofun) (ih (fun asked here cut => ?_) finished)
        refine across asked here ?_
        dsimp only at cut ⊢
        obtain same | short := cutting_dispatchSignal (s := s) re asked here m
        · rw [Run.on_bind_of_ok (same.trans done)]
          exact cut
        · exact Run.on_bind_fst_of_error short _
      | error failure => exact first fun cut => finished (congrArg _ (Except.error.inj cut))

theorem related_safePoint (across : re.Across R fun re => (safePoint re).on m)
    (finished : ((safePoint re).on m).1 ≠ .error .exhausted) : R m ((safePoint re).on m).2 := by
  cases outside : m.dispatching with
  | true =>
    rw [on_safePoint_of_dispatching re outside]
    exact Passive.refl m
  | false =>
    rw [on_safePoint_of_not_dispatching re outside] at finished ⊢
    refine Passive.trans (Passive.dispatchBegun m) (Passive.trans ?_ (Passive.dispatchOver _))
    refine related_dispatch (fun asked here cut => across asked here ?_) finished
    dsimp only
    rw [on_safePoint_of_not_dispatching _ outside]
    exact cut

end Across

end Invocation

/-! ### Callbacks of callbacks -/

namespace Reentry

variable {within : Callback} {after : Machine}

/-- The second machine is the first one, or the first one with its dispatch ended. -/
def EndsDispatch (after after' : Machine) : Prop := after' = after ∨ after' = after.dispatchOver

/-- A call hangs on no other callback. -/
theorem asked_of_call {holds : List Hold} {callee : Ref .function} {args : List Value}
    {this : Option Value}
    (hangs : re.HangsOn (fun re => (re.answer (.call holds callee args this)).on m) asked here) :
    asked = .call holds callee args this ∧ here = m := by
  obtain ⟨other, agrees, differs⟩ := hangs
  by_contra elsewhere
  refine differs (agrees.call holds callee args this m fun met => elsewhere ?_)
  cases met
  exact ⟨rfl, rfl⟩

/-- A request hangs on no other callback. -/
theorem asked_of_request {holds : List Hold} {name : String}
    (hangs : re.HangsOn (fun re => (re.answer (.request holds name)).on m) asked here) :
    asked = .request holds name ∧ here = m := by
  obtain ⟨other, agrees, differs⟩ := hangs
  by_contra elsewhere
  refine differs (agrees.request holds name m fun met => elsewhere ?_)
  cases met
  exact ⟨rfl, rfl⟩

/-- A safe point with other holds hangs on what a safe point with those holds hangs on. -/
theorem AgreesBut.withHolds (agrees : re.AgreesBut other asked here) (holds : List Hold) :
    AgreesBut { re with holds } { other with holds } asked here where
  holds := rfl
  call := agrees.call
  request := agrees.request

theorem HangsOn.withHolds {holds : List Hold} {outcome : Reentry → β}
    (hangs : re.HangsOn (fun re => outcome { re with holds }) asked here) :
    HangsOn { re with holds } outcome asked here := by
  obtain ⟨other, agrees, differs⟩ := hangs
  exact ⟨_, agrees.withHolds holds, differs⟩

theorem on_answer_of_hangs (hangs : re.HangsOn (fun re => (re.answer within).on m) asked here)
    (failed : (re.answer asked).on here = (.error failure, after)) :
    ∃ after', (re.answer within).on m = (.error failure, after') ∧ EndsDispatch after after' := by
  cases within with
  | call =>
    obtain ⟨rfl, rfl⟩ := asked_of_call hangs
    exact ⟨after, failed, .inl rfl⟩
  | request =>
    obtain ⟨rfl, rfl⟩ := asked_of_request hangs
    exact ⟨after, failed, .inl rfl⟩
  | safePoint holds =>
    have inside : HangsOn { re with holds } (fun re => (Invocation.safePoint re).on m) asked here :=
      hangs.withHolds
    rw [← re.answer_withHolds holds] at failed
    exact ⟨after.dispatchOver, Invocation.on_safePoint_of_hangs inside failed, .inr rfl⟩

theorem calls_of_hangs_answer (keeps : re.KeepsCalls)
    (hangs : re.HangsOn (fun re => (re.answer within).on m) asked here) : here.calls = m.calls := by
  cases within with
  | call => rw [(asked_of_call hangs).2]
  | request => rw [(asked_of_request hangs).2]
  | safePoint holds =>
    have keeps' : KeepsCalls { re with holds } := fun within => by
      rw [re.answer_withHolds]
      exact keeps within
    exact Invocation.calls_of_hangs_safePoint keeps' hangs.withHolds

/-- Cutting a callback short cuts another one short, or else makes no difference to it. -/
theorem answer_cutting (re : Reentry) (asked : Callback) (here : Machine) (within : Callback)
    (m : Machine) :
    ((re.cutting asked here).answer within).on m = (re.answer within).on m ∨
      (((re.cutting asked here).answer within).on m).1 = .error .exhausted := by
  by_cases hangs : re.HangsOn (fun re => (re.answer within).on m) asked here
  · obtain ⟨_, cut, -⟩ := on_answer_of_hangs (hangs.congr (re.agreesBut_cutting asked here))
      hangs.answer_cutting
    exact .inr (congrArg Prod.fst cut)
  · by_contra neither
    exact hangs ⟨_, re.agreesBut_cutting asked here, fun same => neither (.inl same)⟩

/-- A callback that fails is a way back itself, or fails with what one of its own failed with. -/
theorem fault_of_answer (failed : (re.answer within).on m = (.error (.fault fault), m')) :
    ∃ asked here after, (re.answer asked).on here = (.error (.fault fault), after) ∧
      (((re.cutting asked here).answer within).on m).1 = .error .exhausted := by
  cases within with
  | call => exact ⟨_, _, _, failed, congrArg Prod.fst (re.call_cutting _ _ _ _ _)⟩
  | request => exact ⟨_, _, _, failed, congrArg Prod.fst (re.request_cutting _ _ _)⟩
  | safePoint holds =>
    have safe : (Invocation.safePoint { re with holds }).on m = (.error (.fault fault), m') :=
      failed
    obtain ⟨asked, here, after, answered, cut⟩ := Invocation.fault_of_safePoint safe
    rw [re.answer_withHolds] at answered
    exact ⟨asked, here, after, answered, cut⟩

theorem related_answer {R : Machine → Machine → Prop} [Passive R]
    (across : re.Across R fun re => (re.answer within).on m)
    (finished : ((re.answer within).on m).1 ≠ .error .exhausted) :
    R m ((re.answer within).on m).2 := by
  cases within with
  | call => exact across _ m (congrArg Prod.fst (re.call_cutting _ _ _ _ _)) finished
  | request => exact across _ m (congrArg Prod.fst (re.request_cutting _ _ _)) finished
  | safePoint holds =>
    have across' : Across { re with holds } R fun re => (Invocation.safePoint re).on m :=
      fun asked here cut => by
        rw [re.answer_withHolds]
        exact across asked here cut
    exact Invocation.related_safePoint across' finished

end Reentry

end ScriptCore
