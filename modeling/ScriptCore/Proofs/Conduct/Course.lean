import ScriptCore.Proofs.Conduct.Connections
import ScriptCore.Proofs.Conduct.Nesting

/-!
The order of the machines that a run passes.

A run comes to the machine in which a callback is asked for, and from the machine that the answer
leaves it goes on, to the next callback or to its end. So the machines in which the callbacks of a
program are asked for, at whatever depth, and those that their answers leave stand in one order,
between the machine at which the program begins and the one at which it ends.
-/

namespace ScriptCore

open Invocation

variable {ε ε' α β : Type} {re : Reentry} {asked : Callback} {here m m' : Machine}

/-! ### Callbacks in their order -/

/-- If what is done first comes to what it comes to with the given ways back, the outcome is that of
the rest. So what the outcome hangs on is asked for at first or by the rest. -/
theorem Reentry.HangsOn.split {first : Reentry → α} {outcome : Reentry → β} (rest : Reentry → β)
    (hangs : re.HangsOn outcome asked here)
    (goes : ∀ other : Reentry, other.holds = re.holds → first other = first re →
      outcome other = rest other) :
    re.HangsOn first asked here ∨ re.HangsOn rest asked here := by
  obtain ⟨other, agrees, differs⟩ := hangs
  by_cases same : first other = first re
  · rw [goes other agrees.holds same, goes re rfl rfl] at differs
    exact .inr ⟨other, agrees, differs⟩
  · exact .inl ⟨other, agrees, same⟩

/-- The callbacks that the outcome hangs on stand between the machine and the end, each of them
before or behind every other one. -/
structure Reentry.Brackets [Exhaustible ε] (re : Reentry) (m : Machine)
    (outcome : Reentry → Except ε α × Machine) : Prop where
  before : ∀ asked here, re.HangsOn outcome asked here → Later m here
  behind : ∀ asked here, re.HangsOn outcome asked here →
    (outcome re).1 ≠ .error Exhaustible.exhausted →
      Later ((re.answer asked).on here).2 (outcome re).2
  apart : ∀ asked here asked' here',
    re.HangsOn outcome asked here → re.HangsOn outcome asked' here' →
      (asked, here) = (asked', here') ∨ Later ((re.answer asked).on here).2 here' ∨
        Later ((re.answer asked').on here').2 here

namespace Reentry.Brackets

variable [Exhaustible ε] [Exhaustible ε'] {outcome : Reentry → Except ε α × Machine}
  {first : Reentry → Except ε' β × Machine} {result : Except ε' β}

theorem of_constant (m : Machine) (same : ∀ other, outcome other = outcome re) :
    re.Brackets m outcome := by
  have none : ∀ asked here, ¬ re.HangsOn outcome asked here := by
    rintro asked here ⟨other, -, differs⟩
    exact differs (same other)
  exact ⟨fun asked here hangs => absurd hangs (none asked here),
    fun asked here hangs => absurd hangs (none asked here),
    fun asked here _ _ hangs => absurd hangs (none asked here)⟩

theorem of_later (brackets : re.Brackets m' outcome) (later : Later m m') :
    re.Brackets m outcome :=
  { brackets with before := fun asked here hangs => later.trans (brackets.before asked here hangs) }

section Parts

variable (early : re.Brackets m first) (done : first re = (result, m'))

include early done

/-- The callbacks of what is done first stand before those of the rest. -/
theorem after {rest : Reentry → Except ε α × Machine} (late : re.Brackets m' rest)
    (goes : ∀ other : Reentry, other.holds = re.holds → first other = (result, m') →
      outcome other = rest other)
    (alive : result ≠ .error Exhaustible.exhausted) (reached : Later m m')
    (goesOn : (rest re).1 ≠ .error Exhaustible.exhausted → Later m' (rest re).2) :
    re.Brackets m outcome := by
  have split : ∀ asked here, re.HangsOn outcome asked here →
      re.HangsOn first asked here ∨ re.HangsOn rest asked here := fun asked here hangs =>
    hangs.split rest fun other holds same => goes other holds (same.trans done)
  have between : ∀ asked here, re.HangsOn first asked here →
      Later ((re.answer asked).on here).2 m' := by
    intro asked here now
    have goesOn := early.behind asked here now
    rw [done] at goesOn
    exact goesOn alive
  have whole : outcome re = rest re := goes re rfl done
  constructor
  · intro asked here hangs
    rcases split asked here hangs with now | later
    · exact early.before asked here now
    · exact reached.trans (late.before asked here later)
  · intro asked here hangs finished
    rw [whole] at finished ⊢
    rcases split asked here hangs with now | later
    · exact (between asked here now).trans (goesOn finished)
    · exact late.behind asked here later finished
  · intro asked here asked' here' hangs hangs'
    -- Of two callbacks that stand in different parts, the one in the first part is answered before
    -- the rest begins.
    rcases split asked here hangs with now | later
    · rcases split asked' here' hangs' with now' | later'
      · exact early.apart asked here asked' here' now now'
      · exact .inr (.inl ((between asked here now).trans (late.before asked' here' later')))
    · rcases split asked' here' hangs' with now' | later'
      · exact .inr (.inr ((between asked' here' now').trans (late.before asked here later)))
      · exact late.apart asked here asked' here' later later'

/-- Nothing is called back once the callbacks of what is done first are answered. -/
theorem ended
    (goes : ∀ other : Reentry, other.holds = re.holds → first other = (result, m') →
      outcome other = outcome re)
    (ends : (outcome re).1 ≠ .error Exhaustible.exhausted →
      result ≠ .error Exhaustible.exhausted ∧ Later m' (outcome re).2) :
    re.Brackets m outcome := by
  have split : ∀ asked here, re.HangsOn outcome asked here → re.HangsOn first asked here := by
    intro asked here hangs
    obtain now | ⟨_, -, differs⟩ := hangs.split (fun _ => outcome re)
      fun other holds same => goes other holds (same.trans done)
    · exact now
    · exact absurd rfl differs
  constructor
  · intro asked here hangs
    exact early.before asked here (split asked here hangs)
  · intro asked here hangs finished
    obtain ⟨alive, goesOn⟩ := ends finished
    have between := early.behind asked here (split asked here hangs)
    rw [done] at between
    exact (between alive).trans goesOn
  · intro asked here asked' here' hangs hangs'
    exact early.apart _ _ _ _ (split asked here hangs) (split asked' here' hangs')

end Parts

end Reentry.Brackets

/-! ### Dispatches -/

/-- An answer that hangs on nothing but itself. -/
theorem brackets_of_single {within : Callback}
    (only : ∀ asked here, re.HangsOn (fun re => (re.answer within).on m) asked here →
      asked = within ∧ here = m) : re.Brackets m fun re => (re.answer within).on m where
  before asked here hangs := by
    obtain ⟨-, rfl⟩ := only asked here hangs
    exact .refl
  behind asked here hangs _ := by
    obtain ⟨rfl, rfl⟩ := only asked here hangs
    exact .refl
  apart asked here asked' here' hangs hangs' := by
    obtain ⟨rfl, rfl⟩ := only asked here hangs
    obtain ⟨rfl, rfl⟩ := only asked' here' hangs'
    exact .inl rfl

section Dispatch

variable (re)

theorem brackets_dispatchSignal (s : OsSignal) (m : Machine) :
    re.Brackets m fun re => (dispatchSignal re s).on m := by
  obtain ⟨m', -, same⟩ | ⟨f, turn⟩ := dispatchSignal_cases s m
  · exact .of_constant m fun other => (same other).trans (same re).symm
  · have called : re.Brackets (m.taking s) fun other =>
        (other.answer (.call re.holds f [.text s.name] none)).on (m.taking s) :=
      brackets_of_single fun asked here => Reentry.asked_of_call
    have told : ∀ other : Reentry, other.holds = re.holds → (dispatchSignal other s).on m =
        (discard (other.answer (.call re.holds f [.text s.name] none)) : Action Unit).on
          (m.taking s) := by
      intro other holds
      rw [turn, Reentry.invoke, holds]
      rfl
    refine .of_later ?_ (.single (.take m s))
    cases done : (re.answer (.call re.holds f [.text s.name] none)).on (m.taking s) with
    | mk answer after =>
      refine called.ended done (fun other holds same => ?_) fun finished => ?_
      · rw [told other holds, told re rfl, Run.on_discard, Run.on_discard, same, done]
      · rw [told re rfl, Run.on_discard, done] at finished ⊢
        cases answer with
        | ok v => exact ⟨by rintro ⟨⟩, .refl⟩
        | error failure =>
          exact ⟨fun cut => finished (congrArg _ (Except.error.inj cut)), .refl⟩

variable [re.Leads Reaches]

theorem later_invoke (f : Ref .function) (args : List Value) (m : Machine)
    (finished : ((re.invoke f args none).on m).1 ≠ .error .exhausted) :
    Later m ((re.invoke f args none).on m).2 :=
  ((re.leads_invoke (R := Reaches) f args none).related m finished).later

theorem later_dispatchSignal (s : OsSignal) (m : Machine)
    (finished : ((dispatchSignal re s).on m).1 ≠ .error .exhausted) :
    Later m ((dispatchSignal re s).on m).2 := by
  obtain ⟨_, rfl | rfl, same⟩ | ⟨f, turn⟩ := dispatchSignal_cases s m
  · rw [same]
  · rw [same]
    exact .single (.take m s)
  · have called := later_invoke re f [.text s.name] (m.taking s)
    rw [turn, Run.on_discard] at finished ⊢
    refine .head (.take m s) ?_
    cases answered : (re.invoke f [.text s.name] none).on (m.taking s) with
    | mk answer after =>
      rw [answered] at finished called
      cases answer with
      | ok v => exact called nofun
      | error failure => exact called fun cut => finished (congrArg _ (Except.error.inj cut))

theorem later_dispatch (signals : List OsSignal) (m : Machine)
    (finished : ((signals.forM (dispatchSignal re)).on m).1 ≠ .error .exhausted) :
    Later m ((signals.forM (dispatchSignal re)).on m).2 := by
  induction signals generalizing m with
  | nil => exact .refl
  | cons s rest ih =>
    have first := later_dispatchSignal re s m
    rw [dispatch_cons, Run.on_bind] at finished ⊢
    cases done : (dispatchSignal re s).on m with
    | mk result m' =>
      rw [done] at finished first
      cases result with
      | ok => exact (first nofun).trans (ih m' finished)
      | error failure => exact first fun cut => finished (congrArg _ (Except.error.inj cut))

theorem brackets_dispatch (signals : List OsSignal) (m : Machine) :
    re.Brackets m fun re => (signals.forM (dispatchSignal re)).on m := by
  induction signals generalizing m with
  | nil => exact .of_constant m fun _ => rfl
  | cons s rest ih =>
    have first := brackets_dispatchSignal re s m
    have reached := later_dispatchSignal re s m
    simp only [dispatch_cons, Run.on_bind]
    cases done : (dispatchSignal re s).on m with
    | mk result m' =>
      rw [done] at reached
      cases result with
      | ok =>
        refine first.after done (ih m') (fun other _ same => ?_) nofun (reached nofun)
          (later_dispatch re rest m')
        rw [same]
      | error failure =>
        refine first.ended done (fun other _ same => ?_) fun finished => ?_
        · rw [same, done]
        · rw [done] at finished ⊢
          exact ⟨fun cut => finished (congrArg _ (Except.error.inj cut)), .refl⟩

theorem brackets_safePoint (m : Machine) : re.Brackets m fun re => (safePoint re).on m := by
  cases outside : m.dispatching with
  | true =>
    refine .of_constant m fun other => ?_
    rw [on_safePoint_of_dispatching other outside, on_safePoint_of_dispatching re outside]
  | false =>
    have inside := brackets_dispatch re OsSignal.all m.dispatchBegun
    refine .of_later ?_ (.single (.beginDispatch m))
    simp only [on_safePoint_of_not_dispatching _ outside]
    refine inside.ended rfl (fun other _ same => ?_) fun finished => ?_
    · rw [dispatchPending, same]
      rfl
    · exact ⟨finished, .single (.endDispatch _)⟩

end Dispatch

/-! ### Routines -/

section Routines

variable (re) [re.Leads Reaches]

theorem brackets_answer (within : Callback) (m : Machine) :
    re.Brackets m fun re => (re.answer within).on m := by
  cases within with
  | call => exact brackets_of_single fun asked here => Reentry.asked_of_call
  | request => exact brackets_of_single fun asked here => Reentry.asked_of_request
  | safePoint holds =>
    have inside := brackets_safePoint { re with holds } m
    obtain ⟨before, behind, apart⟩ := inside
    simp only [re.answer_withHolds] at behind apart
    exact ⟨fun asked here hangs => before asked here hangs.withHolds,
      fun asked here hangs => behind asked here hangs.withHolds,
      fun asked here asked' here' hangs hangs' =>
        apart asked here asked' here' hangs.withHolds hangs'.withHolds⟩

theorem brackets_meet (within : Demand) (m : Machine) :
    re.Brackets m fun re => (re.meet within).on m := by
  cases within with
  | back within => exact brackets_answer re within m
  | poll holds =>
    cases polling : m.polling with
    | true =>
      simp only [Reentry.meet, on_poll_of_polling _ polling]
      exact brackets_answer re (.safePoint holds) m
    | false =>
      refine .of_constant m fun other => ?_
      simp only [Reentry.meet, on_poll_of_not_polling _ polling]

variable {re} {catching inspecting : Prop} [Failing ε]

theorem Routine.later {w : World} (routine : Routine catching inspecting ε α w) {m : Machine}
    (start : m.world = w) (finished : (routine.run re m).1 ≠ .error Exhaustible.exhausted) :
    Later m (routine.run re m).2 := (routine.related (R := Reaches) start finished).later

theorem Routine.brackets {w : World} (routine : Routine catching inspecting ε α w)
    {m : Machine} (start : m.world = w) : re.Brackets m fun re => routine.run re m := by
  -- At a demand, what is done first is to meet it, and the answer tells what the rest is.
  induction routine generalizing m with
  | ended => exact .of_constant m fun _ => rfl
  | asks within w' told own next ih =>
    have begins : Later m (m.inWorld w' told) := (Abiding.steps (R := Reaches) (start ▸ own)).later
    have met := (re.leads_meet (R := Reaches) within).related (m.inWorld w' told)
    have early := brackets_meet re within (m.inWorld w' told)
    refine .of_later ?_ begins
    cases answered : (re.meet within).on (m.inWorld w' told) with
    | mk answer after =>
      rw [answered] at met
      cases answer with
      | ok a =>
        refine early.after answered (ih a (after.surroundings inspecting) after.world rfl)
          (fun other _ same => ?_) (by rintro ⟨⟩) (met (by rintro ⟨⟩)).later (later _ rfl)
        rw [run, same]
      | error failure =>
        refine early.ended answered (fun other _ same => ?_) fun finished => ?_
        · rw [run, run, same, answered]
        · rw [run, answered] at finished ⊢
          refine ⟨fun cut => finished ?_, .refl⟩
          rw [Except.error.inj cut]
          exact congrArg _ Failing.ofFailure_exhausted
  | guards allowed within w' told own next caught ih ihCaught =>
    have begins : Later m (m.inWorld w' told) := (Abiding.steps (R := Reaches) (start ▸ own)).later
    have met := (re.leads_meet (R := Reaches) within).related (m.inWorld w' told)
    have early := brackets_meet re within (m.inWorld w' told)
    refine .of_later ?_ begins
    cases answered : (re.meet within).on (m.inWorld w' told) with
    | mk answer after =>
      rw [answered] at met
      cases answer with
      | ok a =>
        refine early.after answered (ih a (after.surroundings inspecting) after.world rfl)
          (fun other _ same => ?_) (by rintro ⟨⟩) (met (by rintro ⟨⟩)).later (later _ rfl)
        rw [run, same]
      | error failure =>
        cases failure with
        | fault fault =>
          refine early.after answered
            (ihCaught fault (after.surroundings inspecting) after.world rfl)
            (fun other _ same => ?_) (by rintro ⟨⟩) (met (by rintro ⟨⟩)).later (later _ rfl)
          rw [run, same]
        | exhausted =>
          refine early.ended answered (fun other _ same => ?_) fun finished => ?_
          · rw [run, run, same, answered]
          · rw [run, answered] at finished
            exact absurd (congrArg _ Failing.ofFailure_exhausted) finished

variable (re) in
/-- What an operation calls back stands between its beginning and its end. -/
theorem Performs.brackets {op : Reentry → Run ε α} (performs : Performs catching inspecting op)
    (m : Machine) : re.Brackets m fun re => (op re).on m := by
  obtain ⟨routine, runs⟩ := performs
  have brackets : re.Brackets m fun other =>
      (routine re.holds (m.surroundings inspecting) m.world).run other m :=
    (routine re.holds (m.surroundings inspecting) m.world).brackets rfl
  refine brackets.ended (runs re m).symm (fun other holds same => ?_) fun finished =>
    ⟨finished, .refl⟩
  rw [runs other m, holds]
  exact same

end Routines

/-- An operation that is not cut short has answers to all that it hangs on. -/
theorem Follows.answered [Failing ε] {catching : Prop} {op : Reentry → Run ε α}
    (follows : Follows catching op) (hangs : re.HangsOn (fun re => (op re).on m) asked here)
    (finished : ((op re).on m).1 ≠ .error (Failing.ofFailure .exhausted)) :
    ((re.answer asked).on here).1 ≠ .error .exhausted := by
  intro cut
  cases answered : (re.answer asked).on here with
  | mk answer after =>
    rw [answered] at cut
    cases cut
    obtain ⟨after', ended, -⟩ := follows.fails hangs answered fun _ => rfl
    exact finished (congrArg Prod.fst ended)

/-! ### Callbacks within callbacks -/

namespace Interpreter

theorem brackets_poll (re : Reentry) [re.Leads Reaches] (m : Machine) :
    re.Brackets m fun re => (poll re).on m := by
  have performs : Performs True True poll := performs_poll
  exact performs.brackets re m

section Enclosed

variable {steps : Nat} {holds : List Hold} {callee : Ref .function} {args : List Value}
  {this : Option Value} {name : String}

theorem later_polled {m' : Machine}
    (safe : (poll (inside steps holds callee args this)).on m = (.ok (), m')) : Later m m' := by
  have reached := (leads_poll (R := Reaches) (inside steps holds callee args this)).related m
  rw [safe] at reached
  exact (reached nofun).later

/-- From its safe point, whatever comes of it, a call goes to its end. -/
theorem later_of_poll
    (finished : ((invoke (steps + 1) holds callee args this).on m).1 ≠ .error .exhausted) :
    ((poll (inside steps holds callee args this)).on m).1 ≠ .error .exhausted ∧
      Later ((poll (inside steps holds callee args this)).on m).2
        ((invoke (steps + 1) holds callee args this).on m).2 := by
  cases safe : (poll (inside steps holds callee args this)).on m with
  | mk result polled =>
    cases result with
    | error failure =>
      have failed : (invoke (steps + 1) holds callee args this).on m = (.error failure, polled) :=
        on_call_of_poll_failed safe callee _
      rw [failed] at finished ⊢
      exact ⟨finished ∘ fun cut => congrArg _ (Except.error.inj cut), .refl⟩
    | ok =>
      have called : (invoke (steps + 1) holds callee args this).on m =
          (admitted callee (work steps holds callee args this)).on polled :=
        on_call_of_polled safe callee _
      have works : (work steps holds callee args this).Leads Reaches :=
        (performs_perform callee args this).leads (inside steps holds callee args this)
      rw [called] at finished ⊢
      exact ⟨nofun, (called_admitted works finished).later⟩

/-- From what its body comes to, a call that is entered goes to its end. -/
theorem later_of_work {polled : Machine} {calls : CallStack}
    (safe : (poll (inside steps holds callee args this)).on m = (.ok (), polled))
    (room : polled.calls.push (polled.heap.functionName callee) = .ok calls)
    (finished : ((invoke (steps + 1) holds callee args this).on m).1 ≠ .error .exhausted) :
    ((work steps holds callee args this).on (polled.entering callee calls)).1 ≠
        .error .exhausted ∧
      Later ((work steps holds callee args this).on (polled.entering callee calls)).2
        ((invoke (steps + 1) holds callee args this).on m).2 := by
  rw [invoke_of_room steps holds callee args this safe room] at finished ⊢
  exact ⟨fun cut => finished (on_traced_of_exhausted cut), .single (.leave _ callee)⟩

/-- From what the initialiser comes to, a request that starts it goes to its end. -/
theorem later_of_initializer {initializer : Initializer} {table : Table} {registry : Registry}
    (start : m.registry.request name = (.start initializer table, registry))
    (finished : ((ensure (steps + 1) holds name).on m).1 ≠ .error .exhausted) :
    ((runInitializer (nested steps holds) initializer table).on
        (m.starting name initializer registry)).1 ≠ .error .exhausted ∧
      Later ((runInitializer (nested steps holds) initializer table).on
          (m.starting name initializer registry)).2
        ((ensure (steps + 1) holds name).on m).2 := by
  have runs : (ensure (steps + 1) holds name).on m =
      (Packages.finish name (runInitializer (nested steps holds) initializer table)).on
        (m.starting name initializer registry) := Packages.on_ensure_of_start start
  rw [runs] at finished ⊢
  cases came : (runInitializer (nested steps holds) initializer table).on
      (m.starting name initializer registry) with
  | mk result after =>
    cases result with
    | ok filling =>
      rw [Packages.on_finish_of_ok came]
      exact ⟨nofun, .single (.finish after name (.ok filling))⟩
    | error failure =>
      cases failure with
      | fault fault =>
        rw [Packages.on_finish_of_fault came]
        exact ⟨nofun, .single (.finish after name (.error fault))⟩
      | exhausted =>
        rw [Packages.on_finish_of_exhausted came] at finished
        exact absurd rfl finished

theorem performs_initializer (initializer : Initializer) (table : Table) :
    Performs True True fun re => runInitializer re initializer table :=
  performs_runInitializer (fun _ => trivial) (fun _ => trivial) table

end Enclosed

/-- From the machine in which it is asked for, a callback goes to the one that its answer leaves. -/
theorem Asked.later (asked : Asked) (finished : asked.answer.1 ≠ .error .exhausted) :
    Later asked.machine asked.answer.2 :=
  ((Reentry.leads_answer (R := Reaches) asked.callback).related asked.machine finished).later

/-- A callback that is enclosed by another one stands between the machine in which that one is asked
for and the one that its answer leaves. -/
theorem Encloses.later {outer inner : Asked} (encloses : Encloses True outer inner) :
    Later outer.machine inner.machine ∧
      (outer.answer.1 ≠ .error .exhausted →
        inner.answer.1 ≠ .error .exhausted ∧ Later inner.answer.2 outer.answer.2) := by
  cases encloses with
  | @poll steps holds callee args this m asked here hangs =>
    have follows : Follows True Invocation.poll := follows_poll
    have brackets := brackets_poll (inside steps holds callee args this) m
    refine ⟨brackets.before asked here hangs, fun finished => ?_⟩
    obtain ⟨polls, goesOn⟩ := later_of_poll finished
    rw [Asked.answer_eq]
    exact ⟨follows.answered hangs polls, (brackets.behind asked here hangs polls).trans goesOn⟩
  | @body steps holds callee args this m polled calls asked here safe room catches hangs =>
    have performs := performs_perform callee args this
    have brackets := performs.brackets (inside steps holds callee args this)
      (polled.entering callee calls)
    have entered : Later m (polled.entering callee calls) := (later_polled safe).tail (.enter room)
    refine ⟨entered.trans (brackets.before asked here hangs), fun finished => ?_⟩
    obtain ⟨works, goesOn⟩ := later_of_work safe room finished
    rw [Asked.answer_eq]
    exact ⟨performs.follows.answered hangs works,
      (brackets.behind asked here hangs works).trans goesOn⟩
  | @initializer steps holds name m initializer table registry asked here start catches hangs =>
    have performs := performs_initializer initializer table
    have brackets := performs.brackets (nested steps holds) (m.starting name initializer registry)
    refine ⟨.head (.start start) (brackets.before asked here hangs), fun finished => ?_⟩
    obtain ⟨fills, goesOn⟩ := later_of_initializer start finished
    rw [Asked.answer_eq ⟨steps, asked, here⟩ holds]
    exact ⟨performs.follows.answered hangs fills,
      (brackets.behind asked here hangs fills).trans goesOn⟩
  | @safePoint steps holds m asked here hangs =>
    have follows : Follows True Invocation.safePoint := follows_safePoint
    have brackets := brackets_safePoint (nested steps holds) m
    rw [Asked.answer_eq ⟨steps, asked, here⟩ holds]
    exact ⟨brackets.before asked here hangs, fun finished =>
      ⟨follows.answered hangs finished, brackets.behind asked here hangs finished⟩⟩

/-- The same of callbacks that are enclosed at any depth. -/
theorem later_of_chain {outer inner : Asked}
    (chain : Relation.ReflTransGen (Encloses True) outer inner)
    (finished : outer.answer.1 ≠ .error .exhausted) :
    inner.answer.1 ≠ .error .exhausted ∧ Later outer.machine inner.machine ∧
      Later inner.answer.2 outer.answer.2 := by
  induction chain using Relation.ReflTransGen.head_induction_on with
  | refl => exact ⟨finished, .refl, .refl⟩
  | head encloses _ ih =>
    obtain ⟨before, behind⟩ := encloses.later
    obtain ⟨answered, goesOn⟩ := behind finished
    obtain ⟨ends, before', behind'⟩ := ih answered
    exact ⟨ends, before.trans before', behind'.trans goesOn⟩

/-! ### Callbacks before and behind one another -/

/-- The second callback is asked for after the first one is answered. -/
def Asked.Precedes (first second : Asked) : Prop := Later first.answer.2 second.machine

/-- Of two callbacks that one outcome hangs on, one precedes the other. -/
theorem precedes_of_brackets {ε α : Type} [Exhaustible ε] {steps : Nat} {holds : List Hold}
    {outcome : Reentry → Except ε α × Machine} {asked asked' : Callback} {here here' : Machine}
    (brackets : (nested steps holds).Brackets m outcome)
    (hangs : (nested steps holds).HangsOn outcome asked here)
    (hangs' : (nested steps holds).HangsOn outcome asked' here') :
    (⟨steps, asked, here⟩ : Asked) = ⟨steps, asked', here'⟩ ∨
      Asked.Precedes ⟨steps, asked, here⟩ ⟨steps, asked', here'⟩ ∨
      Asked.Precedes ⟨steps, asked', here'⟩ ⟨steps, asked, here⟩ := by
  rw [Asked.Precedes, Asked.Precedes, Asked.answer_eq _ holds, Asked.answer_eq _ holds]
  refine (brackets.apart asked here asked' here' hangs hangs').imp_left fun same => ?_
  cases same
  rfl

/-- What is called back at the safe point of a call precedes what its body calls back. -/
theorem precedes_body {steps : Nat} {holds : List Hold} {callee : Ref .function}
    {args : List Value} {this : Option Value} {polled : Machine} {calls : CallStack}
    {asked asked' : Callback} {here here' : Machine}
    (safe : (poll (inside steps holds callee args this)).on m = (.ok (), polled))
    (room : polled.calls.push (polled.heap.functionName callee) = .ok calls)
    (polls : (inside steps holds callee args this).HangsOn
      (fun re => (poll re).on m) asked here)
    (works : (inside steps holds callee args this).HangsOn
      (fun re => (perform re callee args this).on (polled.entering callee calls)) asked' here') :
    Asked.Precedes ⟨steps, asked, here⟩ ⟨steps, asked', here'⟩ := by
  have before := (brackets_poll (inside steps holds callee args this) m).behind asked here polls
  have behind := ((performs_perform callee args this).brackets _ _).before asked' here' works
  rw [safe] at before
  rw [Asked.Precedes, Asked.answer_eq]
  exact ((before nofun).tail (.enter room)).trans behind

/-- Of two callbacks that are directly enclosed by one, one precedes the other. -/
theorem Encloses.apart {outer first second : Asked} (encloses : Encloses True outer first)
    (encloses' : Encloses True outer second) :
    first = second ∨ first.Precedes second ∨ second.Precedes first := by
  cases encloses with
  | poll hangs =>
    cases encloses' with
    | poll hangs' => exact precedes_of_brackets (brackets_poll _ _) hangs hangs'
    | body safe room _ hangs' => exact .inr (.inl (precedes_body safe room hangs hangs'))
  | @body _ _ callee args this _ _ _ _ _ safe room _ hangs =>
    cases encloses' with
    | poll hangs' => exact .inr (.inr (precedes_body safe room hangs' hangs))
    | body safe' room' _ hangs' =>
      cases safe.symm.trans safe'
      cases room.symm.trans room'
      have performs := performs_perform callee args this
      exact precedes_of_brackets (performs.brackets _ _) hangs hangs'
  | @initializer _ _ _ _ initializer table _ _ _ start _ hangs =>
    cases encloses' with
    | initializer start' _ hangs' =>
      cases start.symm.trans start'
      have performs := performs_initializer initializer table
      exact precedes_of_brackets (performs.brackets _ _) hangs hangs'
  | safePoint hangs =>
    cases encloses' with
    | safePoint hangs' => exact precedes_of_brackets (brackets_safePoint _ _) hangs hangs'

/-- One of two callbacks encloses the other, or one of them precedes the other. -/
def Asked.Ordered (first second : Asked) : Prop :=
  Relation.ReflTransGen (Encloses True) first second ∨
    Relation.ReflTransGen (Encloses True) second first ∨
    first.Precedes second ∨ second.Precedes first

theorem Asked.Precedes.of_chains {outer outer' first second : Asked}
    (precedes : outer.Precedes outer')
    (chain : Relation.ReflTransGen (Encloses True) outer first)
    (chain' : Relation.ReflTransGen (Encloses True) outer' second)
    (finished : outer.answer.1 ≠ .error .exhausted)
    (finished' : outer'.answer.1 ≠ .error .exhausted) : first.Precedes second := by
  obtain ⟨-, -, behind⟩ := later_of_chain chain finished
  obtain ⟨-, before, -⟩ := later_of_chain chain' finished'
  exact (behind.trans precedes).trans before

/-- Callbacks that are enclosed by one are ordered. -/
theorem ordered_of_chains {outer first second : Asked}
    (chain : Relation.ReflTransGen (Encloses True) outer first)
    (chain' : Relation.ReflTransGen (Encloses True) outer second)
    (finished : outer.answer.1 ≠ .error .exhausted) : first.Ordered second := by
  induction chain using Relation.ReflTransGen.head_induction_on with
  | refl => exact .inl chain'
  | @head outer next encloses chain ih =>
    obtain rfl | ⟨next', encloses', chain'⟩ := chain'.cases_head
    · exact .inr (.inl (chain.head encloses))
    · -- The chains part at callbacks of which one precedes the other, and so does all within them.
      obtain ⟨answered, -⟩ := encloses.later.2 finished
      obtain ⟨answered', -⟩ := encloses'.later.2 finished
      obtain rfl | before | behind := encloses.apart encloses'
      · exact ih chain' answered
      · exact .inr (.inr (.inl (before.of_chains chain chain' answered answered')))
      · exact .inr (.inr (.inr (behind.of_chains chain' chain answered' answered)))

/-- The machine is the one in which the callback is asked for, or the one that its answer leaves. -/
inductive Asked.Bounds (asked : Asked) : Machine → Prop
  | begins : asked.Bounds asked.machine
  | ends : asked.Bounds asked.answer.2

section Bounds

variable {first second : Asked} {n n' : Machine}

theorem Asked.Bounds.later {asked : Asked} (bounds : asked.Bounds n)
    (finished : asked.answer.1 ≠ .error .exhausted) :
    Later asked.machine n ∧ Later n asked.answer.2 := by
  cases bounds with
  | begins => exact ⟨.refl, asked.later finished⟩
  | ends => exact ⟨asked.later finished, .refl⟩

theorem Asked.Bounds.later_of_precedes (bounds : first.Bounds n) (bounds' : second.Bounds n')
    (finished : first.answer.1 ≠ .error .exhausted)
    (finished' : second.answer.1 ≠ .error .exhausted) (precedes : first.Precedes second) :
    Later n n' :=
  ((bounds.later finished).2.trans precedes).trans (bounds'.later finished').1

theorem Asked.Bounds.later_of_chain (bounds : first.Bounds n) (bounds' : second.Bounds n')
    (finished : first.answer.1 ≠ .error .exhausted)
    (chain : Relation.ReflTransGen (Encloses True) first second) : Later n n' ∨ Later n' n := by
  obtain ⟨finished', before, behind⟩ := Interpreter.later_of_chain chain finished
  obtain ⟨begins, ends⟩ := bounds'.later finished'
  cases bounds with
  | begins => exact .inl (before.trans begins)
  | ends => exact .inr (ends.trans behind)

/-- The machines of ordered callbacks are ordered. -/
theorem Asked.Ordered.later (ordered : first.Ordered second) (bounds : first.Bounds n)
    (bounds' : second.Bounds n') (finished : first.answer.1 ≠ .error .exhausted)
    (finished' : second.answer.1 ≠ .error .exhausted) : Later n n' ∨ Later n' n := by
  rcases ordered with outside | inside | before | behind
  · exact bounds.later_of_chain bounds' finished outside
  · exact (bounds'.later_of_chain bounds finished' inside).symm
  · exact .inl (bounds.later_of_precedes bounds' finished finished' before)
  · exact .inr (bounds'.later_of_precedes bounds finished' finished behind)

end Bounds

/-! ### Programs -/

/-- A program makes the callback in its course, at whatever depth. -/
def Makes (m : Machine) (e : Expr) (asked : Asked) : Prop :=
  ∃ callback here, (reentry nestingBound).HangsOn
      (fun re => (runProgram re (evaluate re e)).on m) callback here ∧
    Relation.ReflTransGen (Encloses True) ⟨nestingBound, callback, here⟩ asked

/-- The machines that the run of a program passes where it begins and ends, and where in its course
a callback is asked for or answered. -/
inductive Visits (m : Machine) (e : Expr) : Machine → Prop
  | begins : Visits m e m
  | within {asked : Asked} {n : Machine} (makes : Makes m e asked) (bounds : asked.Bounds n) :
    Visits m e n
  | ends : Visits m e (runExpression m e).2

theorem performs_program (e : Expr) :
    Performs True True fun re => runProgram re (evaluate re e) :=
  performs_run e (fun _ => trivial) fun _ => trivial

section Programs

variable {e : Expr} {n n' : Machine} {asked first second : Asked}
  (finished : (runExpression m e).1 ≠ .error .exhausted)

include finished

/-- What a program calls back stands between its beginning and its end. -/
theorem Makes.later (makes : Makes m e asked) :
    asked.answer.1 ≠ .error .exhausted ∧ Later m asked.machine ∧
      Later asked.answer.2 (runExpression m e).2 := by
  obtain ⟨callback, here, hangs, chain⟩ := makes
  have brackets : (reentry nestingBound).Brackets m fun re =>
    (runProgram re (evaluate re e)).on m := (performs_program e).brackets _ m
  have answered := (performs_program e).follows.answered hangs finished
  obtain ⟨ends, before, behind⟩ := later_of_chain chain answered
  exact ⟨ends, (brackets.before callback here hangs).trans before,
    behind.trans (brackets.behind callback here hangs finished)⟩

theorem Makes.ordered (makes : Makes m e first) (makes' : Makes m e second) :
    first.Ordered second := by
  obtain ⟨callback, here, hangs, chain⟩ := makes
  obtain ⟨callback', here', hangs', chain'⟩ := makes'
  have answered := (performs_program e).follows.answered hangs finished
  have answered' := (performs_program e).follows.answered hangs' finished
  have brackets : (nested nestingBound []).Brackets m fun re =>
    (runProgram re (evaluate re e)).on m := (performs_program e).brackets _ m
  obtain same | before | behind := precedes_of_brackets brackets hangs hangs'
  · rw [← same] at chain'
    exact ordered_of_chains chain chain' answered
  · exact .inr (.inr (.inl (before.of_chains chain chain' answered answered')))
  · exact .inr (.inr (.inr (behind.of_chains chain' chain answered' answered)))

/-- Whatever a program visits is later than its beginning, and its end is later still. -/
theorem Visits.later (visits : Visits m e n) : Later m n ∧ Later n (runExpression m e).2 := by
  cases visits with
  | begins => exact ⟨.refl, later_runExpression m e finished⟩
  | within makes bounds =>
    obtain ⟨ends, before, behind⟩ := makes.later finished
    obtain ⟨reached, goesOn⟩ := bounds.later ends
    exact ⟨before.trans reached, goesOn.trans behind⟩
  | ends => exact ⟨later_runExpression m e finished, .refl⟩

/-- Of two machines that a program visits, one is later than the other. -/
theorem Visits.ordered (visits : Visits m e n) (visits' : Visits m e n') :
    Later n n' ∨ Later n' n := by
  cases visits with
  | begins => exact .inl (visits'.later finished).1
  | ends => exact .inr (visits'.later finished).2
  | within makes bounds =>
    cases visits' with
    | begins => exact .inr ((Visits.within makes bounds).later finished).1
    | ends => exact .inl ((Visits.within makes bounds).later finished).2
    | within makes' bounds' =>
      obtain ⟨ends, -⟩ := makes.later finished
      obtain ⟨ends', -⟩ := makes'.later finished
      exact (makes.ordered finished makes').later bounds bounds' ends ends'

end Programs

end Interpreter

end ScriptCore
