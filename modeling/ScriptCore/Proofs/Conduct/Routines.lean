import ScriptCore.Proofs.Conduct.Plans

/-!
What an operation does, told by what it sees.

A routine is a plan that is laid down for a world and its surroundings. It asks for callbacks, and
it may poll for signals, which comes to a callback only where the machine polls. So on machines that
differ in nothing that a program sees, an operation follows one and the same routine; what becomes
of it there is told by what its callbacks come to. That an operation performs a routine is shown by
putting it together as the operation is put together.
-/

namespace ScriptCore

/-! ### Demands -/

/-- What an operation asks the interpreter for. -/
inductive Demand where
  | back (asked : Callback)
  /-- A safe point if the machine polls. -/
  | poll (holds : List Hold)

/-- What the interpreter gives. -/
@[reducible]
def Demand.Answer : Demand → Type
  | .back asked => asked.Answer
  | .poll _ => Unit

/-- How the ways back meet a demand. -/
def Reentry.meet (re : Reentry) : (asked : Demand) → Action asked.Answer
  | .back asked => re.answer asked
  | .poll holds => Invocation.poll { re with holds }

theorem Reentry.meet_withHolds (re : Reentry) (holds : List Hold) (asked : Demand) :
    Reentry.meet { re with holds } asked = re.meet asked := by
  cases asked with
  | back asked => exact re.answer_withHolds holds asked
  | poll => rfl

section Routines

variable {catching inspecting : Prop} {ε ε' α β : Type} [Failing ε] [Failing ε']

/-! ### Routines -/

/-- What is done from a world: an end, or a demand and what is done with each of its answers. A
routine may go on after a fault only where it may catch. -/
inductive Routine (catching inspecting : Prop) (ε α : Type) [Failing ε] : World → Type
  | ended {w : World} (result : Except ε α) (w' : World) (told : List Event)
      (own : World.Steps inspecting w told w')
      (untraced : ∀ fault, result = .error (Failing.ofFailure (.fault fault)) →
        fault.trace = none) : Routine catching inspecting ε α w
  | asks {w : World} (asked : Demand) (w' : World) (told : List Event)
      (own : World.Steps inspecting w told w')
      (next : asked.Answer → Surroundings inspecting → (after : World) →
        Routine catching inspecting ε α after) : Routine catching inspecting ε α w
  | guards {w : World} (allowed : catching) (asked : Demand) (w' : World) (told : List Event)
      (own : World.Steps inspecting w told w')
      (next : asked.Answer → Surroundings inspecting → (after : World) →
        Routine catching inspecting ε α after)
      (caught : Fault → Surroundings inspecting → (after : World) →
        Routine catching inspecting ε α after) : Routine catching inspecting ε α w

namespace Routine

variable {w w' : World} {events : List Event}

/-- Runs a routine at a machine with ways back into the interpreter. -/
def run (re : Reentry) {w : World} :
    Routine catching inspecting ε α w → Machine → Except ε α × Machine
  | ended result w' told _ _, m => (result, m.inWorld w' told)
  | asks asked w' told _ next, m =>
    match (re.meet asked).on (m.inWorld w' told) with
    | (.ok a, after) => (next a (after.surroundings inspecting) after.world).run re after
    | (.error failure, after) => (.error (Failing.ofFailure failure), after)
  | guards _ asked w' told _ next caught, m =>
    match (re.meet asked).on (m.inWorld w' told) with
    | (.ok a, after) => (next a (after.surroundings inspecting) after.world).run re after
    | (.error (.fault fault), after) =>
      (caught fault (after.surroundings inspecting) after.world).run re after
    | (.error .exhausted, after) => (.error (Failing.ofFailure .exhausted), after)

section Telling

variable {re re' : Reentry} {asked : Demand} {told : List Event} {m : Machine}
  {own : World.Steps inspecting w told w'}
  {next : asked.Answer → Surroundings inspecting → (after : World) →
    Routine catching inspecting ε α after}
  {next' : asked.Answer → Surroundings inspecting → (after : World) →
    Routine catching inspecting ε' β after}
  (tell : Except ε α × Machine → Except ε' β × Machine)
  (goes : ∀ a (after : Machine),
    (next' a (after.surroundings inspecting) after.world).run re' after =
      tell ((next a (after.surroundings inspecting) after.world).run re after))

include goes

/-- If the answers of a demand lead to ends of which the ones tell the others, then so do the two
routines that make the demand. -/
theorem run_asks_eq (same : re'.meet asked = re.meet asked)
    (passes : ∀ failure (after : Machine), tell (.error (Failing.ofFailure failure), after) =
      (.error (Failing.ofFailure failure), after)) :
    (asks asked w' told own next').run re' m = tell ((asks asked w' told own next).run re m) := by
  rw [run, run, same]
  rcases (re.meet asked).on (m.inWorld w' told) with ⟨failure | a, after⟩
  · exact (passes failure after).symm
  · exact goes a after

theorem run_guards_eq {allowed : catching}
    {caught : Fault → Surroundings inspecting → (after : World) →
      Routine catching inspecting ε α after}
    {caught' : Fault → Surroundings inspecting → (after : World) →
      Routine catching inspecting ε' β after}
    (same : re'.meet asked = re.meet asked)
    (passes : ∀ after : Machine, tell (.error (Failing.ofFailure .exhausted), after) =
      (.error (Failing.ofFailure .exhausted), after))
    (catches : ∀ fault (after : Machine),
      (caught' fault (after.surroundings inspecting) after.world).run re' after =
        tell ((caught fault (after.surroundings inspecting) after.world).run re after)) :
    (guards allowed asked w' told own next' caught').run re' m =
      tell ((guards allowed asked w' told own next caught).run re m) := by
  rw [run, run, same]
  rcases (re.meet asked).on (m.inWorld w' told) with ⟨(fault | _) | a, after⟩
  · exact catches fault after
  · exact (passes after).symm
  · exact goes a after

end Telling

/-- A routine after steps of the operation's own. -/
def after (own : World.Steps inspecting w events w') :
    Routine catching inspecting ε α w' → Routine catching inspecting ε α w
  | ended result w'' more rest untraced =>
    ended result w'' (more ++ events) (own.trans rest) untraced
  | asks asked w'' more rest next => asks asked w'' (more ++ events) (own.trans rest) next
  | guards allowed asked w'' more rest next caught =>
    guards allowed asked w'' (more ++ events) (own.trans rest) next caught

theorem run_after (re : Reentry) (own : World.Steps inspecting w events w')
    (routine : Routine catching inspecting ε α w') (m : Machine) :
    (routine.after own).run re m = routine.run re (m.inWorld w' events) := by
  cases routine <;> simp only [after, run, Machine.inWorld_inWorld]

/-- Demands come with what is held, so the ways back do not matter for that. -/
theorem run_adding (re : Reentry) (hold : Hold) (routine : Routine catching inspecting ε α w)
    (m : Machine) : routine.run (re.adding hold) m = routine.run re m := by
  have same : ∀ asked, (re.adding hold).meet asked = re.meet asked := re.meet_withHolds _
  induction routine generalizing m with
  | ended => rfl
  | asks asked _ _ _ _ ih =>
    exact run_asks_eq id (fun a after => ih a _ _ after) (same asked) fun _ _ => rfl
  | guards _ asked _ _ _ _ _ ih ihCaught =>
    exact run_guards_eq id (fun a after => ih a _ _ after) (same asked) (fun _ => rfl)
      fun fault after => ihCaught fault _ _ after

/-- A routine, and then what is done with its value. -/
def bind (s : Surroundings inspecting) {w : World} (routine : Routine catching inspecting ε α w)
    (rest : α → Surroundings inspecting → (after : World) →
      Routine catching inspecting ε β after) : Routine catching inspecting ε β w :=
  match routine with
  | ended (.ok a) w' _ own _ => (rest a s w').after own
  | ended (.error e) w' told own untraced =>
    ended (.error e) w' told own fun fault failed =>
      untraced fault (congrArg _ (Except.error.inj failed))
  | asks asked w' told own next =>
    asks asked w' told own fun a s after => (next a s after).bind s rest
  | guards allowed asked w' told own next caught =>
    guards allowed asked w' told own (fun a s after => (next a s after).bind s rest)
      fun fault s after => (caught fault s after).bind s rest

/-- What is done with the value that a routine comes to. -/
def goOn (re : Reentry) (rest : α → Surroundings inspecting → (after : World) →
    Routine catching inspecting ε β after) : Except ε α × Machine → Except ε β × Machine
  | (.ok a, after) => (rest a (after.surroundings inspecting) after.world).run re after
  | (.error e, after) => (.error e, after)

theorem run_bind (re : Reentry) (routine : Routine catching inspecting ε α w)
    (rest : α → Surroundings inspecting → (after : World) →
      Routine catching inspecting ε β after) (m : Machine) :
    (routine.bind (m.surroundings inspecting) rest).run re m =
      goOn re rest (routine.run re m) := by
  induction routine generalizing m with
  | ended result w' told own untraced =>
    cases result with
    | ok a => exact run_after re own _ m
    | error e => rfl
  | asks _ _ _ _ _ ih =>
    exact run_asks_eq (goOn re rest) (fun a after => ih a _ _ after) rfl fun _ _ => rfl
  | guards _ _ _ _ _ _ _ ih ihCaught =>
    exact run_guards_eq (goOn re rest) (fun a after => ih a _ _ after) rfl (fun _ => rfl)
      fun fault after => ihCaught fault _ _ after

/-- A routine whose end is told in another way, in which the failures of the interpreter stay what
they are. -/
def told (tell : Except ε α → Except ε' β)
    (passes : ∀ result failure, tell result = .error (Failing.ofFailure failure) ↔
      result = .error (Failing.ofFailure failure)) {w : World} :
    Routine catching inspecting ε α w → Routine catching inspecting ε' β w
  | ended result w' events own untraced =>
    ended (tell result) w' events own fun fault failed =>
      untraced fault ((passes result _).1 failed)
  | asks asked w' events own next =>
    asks asked w' events own fun a s after => (next a s after).told tell passes
  | guards allowed asked w' events own next caught =>
    guards allowed asked w' events own (fun a s after => (next a s after).told tell passes)
      fun fault s after => (caught fault s after).told tell passes

theorem run_told (re : Reentry) (tell : Except ε α → Except ε' β)
    (passes : ∀ result failure, tell result = .error (Failing.ofFailure failure) ↔
      result = .error (Failing.ofFailure failure))
    (routine : Routine catching inspecting ε α w) (m : Machine) :
    (routine.told tell passes).run re m =
      (tell (routine.run re m).1, (routine.run re m).2) := by
  have passed : ∀ failure, tell (.error (Failing.ofFailure failure)) =
      .error (Failing.ofFailure failure) := fun failure => (passes _ failure).2 rfl
  induction routine generalizing m with
  | ended => rfl
  | asks _ _ _ _ _ ih =>
    exact run_asks_eq (Prod.map tell id) (fun a after => ih a _ _ after) rfl
      fun failure _ => Prod.ext (passed failure) rfl
  | guards _ _ _ _ _ _ _ ih ihCaught =>
    exact run_guards_eq (Prod.map tell id) (fun a after => ih a _ _ after) rfl
      (fun _ => Prod.ext (passed .exhausted) rfl) fun fault after => ihCaught fault _ _ after

/-- A routine that goes on after every fault. -/
def rescue (allowed : catching)
    (handler : Fault → Surroundings inspecting → (after : World) →
      Routine catching inspecting ε α after) (s : Surroundings inspecting) {w : World} :
    Routine catching inspecting ε α w → Routine catching inspecting ε α w
  | ended (.ok a) w' events own untraced => ended (.ok a) w' events own untraced
  | ended (.error e) w' events own untraced =>
    match Failing.fault? e with
    | some fault => (handler fault s w').after own
    | none => ended (.error e) w' events own untraced
  | asks asked w' events own next =>
    guards allowed asked w' events own
      (fun a s after => (next a s after).rescue allowed handler s) handler
  | guards _ asked w' events own next caught =>
    guards allowed asked w' events own
      (fun a s after => (next a s after).rescue allowed handler s)
      fun fault s after => (caught fault s after).rescue allowed handler s

theorem run_rescue (re : Reentry) (allowed : catching)
    (handler : Fault → Surroundings inspecting → (after : World) →
      Routine catching inspecting ε α after)
    (routine : Routine catching inspecting ε α w) (m : Machine) :
    (routine.rescue allowed handler (m.surroundings inspecting)).run re m =
      match routine.run re m with
      | (.ok a, after) => (.ok a, after)
      | (.error e, after) =>
        match Failing.fault? e with
        | some fault => (handler fault (after.surroundings inspecting) after.world).run re after
        | none => (.error e, after) := by
  have found : ∀ fault, Failing.fault? (Failing.ofFailure (.fault fault) : ε) = some fault :=
    fun fault => Failing.fault?_eq_some_iff.2 rfl
  have cut : Failing.fault? (Failing.ofFailure .exhausted : ε) = none := by
    rw [Option.eq_none_iff_forall_ne_some]
    intro fault told
    cases Failing.ofFailure_inj.1 (Failing.fault?_eq_some_iff.1 told)
  induction routine generalizing m with
  | ended result w' events own untraced =>
    cases result with
    | ok a => rfl
    | error e =>
      rw [rescue, run]
      dsimp only
      cases Failing.fault? e with
      | some fault => exact run_after re own _ m
      | none => rfl
  | asks asked w' events own next ih =>
    rw [rescue, run, run]
    cases (re.meet asked).on (m.inWorld w' events) with
    | mk answer after =>
      cases answer with
      | ok a => exact ih a _ _ after
      | error failure =>
        cases failure with
        | fault fault =>
          dsimp only
          rw [found]
        | exhausted =>
          dsimp only
          rw [cut]
  | guards _ asked w' events own next caught ih ihCaught =>
    rw [rescue, run, run]
    cases (re.meet asked).on (m.inWorld w' events) with
    | mk answer after =>
      cases answer with
      | ok a => exact ih a _ _ after
      | error failure =>
        cases failure with
        | fault fault => exact ihCaught fault _ _ after
        | exhausted =>
          dsimp only
          rw [cut]

end Routine

/-! ### Performing a routine -/

/-- Whatever the ways back into the interpreter are, the operation runs as a routine does that
depends only on what is held and on what a program sees. -/
def Performs (catching inspecting : Prop) (op : Reentry → Run ε α) : Prop :=
  ∃ routine : List Hold → Surroundings inspecting → (w : World) →
      Routine catching inspecting ε α w,
    ∀ re m, (op re).on m = (routine re.holds (m.surroundings inspecting) m.world).run re m

namespace Performs

variable {op : Reentry → Run ε α}

/-- An operation that asks for nothing. -/
theorem of_on (result : List Hold → Surroundings inspecting → World → Except ε α)
    (step : World → World) (told : List Event)
    (runs : ∀ re m, (op re).on m = (result re.holds (m.surroundings inspecting) m.world,
      m.inWorld (step m.world) told))
    (own : ∀ w, World.Steps inspecting w told (step w))
    (untraced : ∀ holds s w fault,
      result holds s w = .error (Failing.ofFailure (.fault fault)) → fault.trace = none) :
    Performs catching inspecting op :=
  ⟨fun holds s w => .ended (result holds s w) (step w) told (own w) (untraced holds s w), runs⟩

theorem pure (a : α) : Performs catching inspecting fun _ => (Pure.pure a : Run ε α) :=
  of_on (fun _ _ _ => .ok a) id [] (fun _ _ => rfl) .refl fun _ _ _ _ => nofun

/-- Failing with something that is no fault with a trace. -/
theorem throw {e : ε} (untraced : ∀ fault, e = Failing.ofFailure (.fault fault) →
    fault.trace = none) :
    Performs catching inspecting fun _ => (MonadExcept.throw e : Run ε α) :=
  of_on (fun _ _ _ => .error e) id [] (fun _ _ => rfl) .refl fun _ _ _ fault failed =>
    untraced fault (Except.error.inj failed)

theorem bind {next : Reentry → α → Run ε β} (first : Performs catching inspecting op)
    (second : ∀ a, Performs catching inspecting fun re => next re a) :
    Performs catching inspecting fun re => op re >>= next re := by
  obtain ⟨routine, runs⟩ := first
  choose rest restRuns using second
  refine ⟨fun holds s w => (routine holds s w).bind s fun a s' after => rest a holds s' after,
    fun re m => ?_⟩
  rw [Run.on_bind, Routine.run_bind, runs]
  cases (routine re.holds (m.surroundings inspecting) m.world).run re m with
  | mk result after =>
    cases result with
    | ok a => exact restRuns a re after
    | error e => rfl

theorem map (f : α → β) (performs : Performs catching inspecting op) :
    Performs catching inspecting fun re => f <$> op re := performs.bind fun a => .pure (f a)

theorem ite {condition : Prop} [Decidable condition] {yes no : Reentry → Run ε α}
    (whenYes : Performs catching inspecting yes) (whenNo : Performs catching inspecting no) :
    Performs catching inspecting fun re => if condition then yes re else no re := by
  split
  · exact whenYes
  · exact whenNo

theorem forM {items : List β} {act : Reentry → β → Run ε PUnit}
    (each : ∀ item ∈ items, Performs catching inspecting fun re => act re item) :
    Performs catching inspecting fun re => items.forM (act re) := by
  induction items with
  | nil => exact .pure _
  | cons item rest ih =>
    rw [List.forall_mem_cons] at each
    exact each.1.bind fun _ => ih each.2

theorem foldlM {items : List β} {step : Reentry → α → β → Run ε α}
    (each : ∀ a, ∀ item ∈ items, Performs catching inspecting fun re => step re a item)
    (start : α) : Performs catching inspecting fun re => items.foldlM (step re) start := by
  induction items generalizing start with
  | nil => exact .pure _
  | cons item rest ih =>
    simp only [List.foldlM_cons]
    exact (each start item List.mem_cons_self).bind fun a =>
      ih (fun a other member => each a other (.tail _ member)) a

theorem mapM {items : List β} {act : Reentry → β → Run ε α}
    (each : ∀ item, Performs catching inspecting fun re => act re item) :
    Performs catching inspecting fun re => items.mapM (act re) := by
  induction items with
  | nil => exact .pure _
  | cons item rest ih =>
    simp only [List.mapM_cons]
    exact (each item).bind fun a => ih.bind fun others => .pure _

/-- What is held besides is held during every demand. -/
theorem adding (hold : Hold) (performs : Performs catching inspecting op) :
    Performs catching inspecting fun re => op (re.adding hold) := by
  obtain ⟨routine, runs⟩ := performs
  refine ⟨fun holds => routine (hold :: holds), fun re m => (runs (re.adding hold) m).trans ?_⟩
  exact Routine.run_adding re hold _ m

theorem holding (values : List Value) (performs : Performs catching inspecting op) :
    Performs catching inspecting fun re => op (re.holding values) := performs.adding _

theorem within (scope : Ref .scope) (performs : Performs catching inspecting op) :
    Performs catching inspecting fun re => op (re.within scope) := performs.adding _

/-- An operation whose result is told in another way. -/
theorem told {op' : Reentry → Run ε' β} (tell : Except ε α → Except ε' β)
    (passes : ∀ result failure, tell result = .error (Failing.ofFailure failure) ↔
      result = .error (Failing.ofFailure failure))
    (runs : ∀ re m, (op' re).on m = (tell ((op re).on m).1, ((op re).on m).2))
    (performs : Performs catching inspecting op) : Performs catching inspecting op' := by
  obtain ⟨routine, routineRuns⟩ := performs
  refine ⟨fun holds s w => (routine holds s w).told tell passes, fun re m => ?_⟩
  rw [runs, Routine.run_told, routineRuns]

/-- An operation that goes on after the faults of another one. -/
theorem rescue {op' : Reentry → Run ε α} (handler : Fault → Reentry → Run ε α)
    (allowed : catching) (performs : Performs catching inspecting op)
    (handles : ∀ fault, Performs catching inspecting (handler fault))
    (runs : ∀ re m, (op' re).on m = match (op re).on m with
      | (.ok a, after) => (.ok a, after)
      | (.error e, after) =>
        match Failing.fault? e with
        | some fault => (handler fault re).on after
        | none => (.error e, after)) : Performs catching inspecting op' := by
  obtain ⟨routine, routineRuns⟩ := performs
  choose other otherRuns using handles
  refine ⟨fun holds s w =>
    (routine holds s w).rescue allowed (fun fault s' after => other fault holds s' after) s,
    fun re m => ?_⟩
  rw [runs, Routine.run_rescue, routineRuns]
  cases (routine re.holds (m.surroundings inspecting) m.world).run re m with
  | mk result after =>
    cases result with
    | ok a => rfl
    | error e =>
      dsimp only
      cases Failing.fault? e with
      | some fault => exact otherRuns fault re after
      | none => rfl

end Performs

/-! ### Demands as operations -/

/-- The routine that makes a demand and gives its answer. -/
def Routine.ask (asked : Demand) (w : World) :
    Routine catching inspecting Failure asked.Answer w :=
  .asks asked w [] (.refl w) fun a _ after => .ended (.ok a) after [] (.refl after) fun _ => nofun

theorem Routine.run_ask (re : Reentry) (asked : Demand) (m : Machine) :
    (ask asked m.world : Routine catching inspecting Failure asked.Answer m.world).run re m =
      (re.meet asked).on m := by
  rw [ask, run]
  have same : m.inWorld m.world [] = m := rfl
  rw [same]
  cases (re.meet asked).on m with
  | mk answer after => cases answer <;> rfl

namespace Reentry

theorem performs_invoke (callee : Ref .function) (args : List Value) (this : Option Value) :
    Performs catching inspecting fun re => re.invoke callee args this :=
  ⟨fun holds _ => Routine.ask (.back (.call holds callee args this)), fun re m =>
    (Routine.run_ask re (.back (.call re.holds callee args this)) m).symm⟩

theorem performs_ensure (name : String) :
    Performs catching inspecting fun re => re.ensure name :=
  ⟨fun holds _ => Routine.ask (.back (.request holds name)), fun re m =>
    (Routine.run_ask re (.back (.request re.holds name)) m).symm⟩

end Reentry

namespace Invocation

theorem performs_safePoint : Performs catching inspecting safePoint :=
  ⟨fun holds _ => Routine.ask (.back (.safePoint holds)), fun re m =>
    (Routine.run_ask re (.back (.safePoint re.holds)) m).symm⟩

theorem performs_poll : Performs catching inspecting poll :=
  ⟨fun holds _ => Routine.ask (.poll holds), fun re m =>
    (Routine.run_ask re (.poll re.holds) m).symm⟩

end Invocation

/-! ### Routines as plans -/

theorem World.Steps.changes {m : Machine} {w w' : World} {told : List Event}
    (own : World.Steps inspecting w told w') (here : m.world = w) :
    Changes m (m.inWorld w' told) := by
  subst here
  induction own with
  | refl => exact .refl
  | tail _ step ih =>
    rw [← m.inWorld_inWorld]
    exact ih.tail step.change

/-- The plan that a routine is at a machine. -/
def Routine.plan {w : World} : Routine catching inspecting ε α w → (m : Machine) →
    m.world = w → Plan catching ε α m
  | ended result w' told own untraced, m, here =>
    .ended result (m.inWorld w' told) (own.changes here) untraced
  | asks (.back asked) w' told own next, m, here =>
    .asks asked (m.inWorld w' told) (own.changes here) fun a after =>
      (next a (after.surroundings inspecting) after.world).plan after rfl
  | asks (.poll holds) w' told own next, m, here =>
    if m.polling then
      .asks (.safePoint holds) (m.inWorld w' told) (own.changes here) fun a after =>
        (next a (after.surroundings inspecting) after.world).plan after rfl
    else
      ((next () (m.surroundings inspecting) w').plan (m.inWorld w' told) rfl).after
        (own.changes here)
  | guards allowed (.back asked) w' told own next caught, m, here =>
    .guards allowed asked (m.inWorld w' told) (own.changes here)
      (fun a after => (next a (after.surroundings inspecting) after.world).plan after rfl)
      fun fault after => (caught fault (after.surroundings inspecting) after.world).plan after rfl
  | guards allowed (.poll holds) w' told own next caught, m, here =>
    if m.polling then
      .guards allowed (.safePoint holds) (m.inWorld w' told) (own.changes here)
        (fun a after => (next a (after.surroundings inspecting) after.world).plan after rfl)
        fun fault after => (caught fault (after.surroundings inspecting) after.world).plan after rfl
    else
      ((next () (m.surroundings inspecting) w').plan (m.inWorld w' told) rfl).after
        (own.changes here)

theorem Routine.run_plan (re : Reentry) {w : World} (routine : Routine catching inspecting ε α w)
    {m : Machine} (here : m.world = w) : (routine.plan m here).run re = routine.run re m := by
  induction routine generalizing m with
  | ended => rfl
  | asks asked w' told own next ih =>
    cases asked with
    | back asked =>
      rw [plan, Plan.run, run, Reentry.meet]
      rcases (re.answer asked).on (m.inWorld w' told) with ⟨failure | a, after⟩
      · rfl
      · exact ih a _ _ rfl
    | poll holds =>
      rw [plan, run, Reentry.meet]
      cases polling : (m.inWorld w' told).polling with
      | true =>
        have polls : m.polling = true := polling
        rw [if_pos polls, Plan.run, Reentry.answer, Invocation.on_poll_of_polling _ polling]
        rcases (Invocation.safePoint { re with holds }).on (m.inWorld w' told)
          with ⟨failure | a, after⟩
        · rfl
        · exact ih a _ _ rfl
      | false =>
        have silent : m.polling = false := polling
        rw [if_neg (by simp [silent]), Plan.run_after, Invocation.on_poll_of_not_polling _ polling]
        exact ih () _ _ rfl
  | guards allowed asked w' told own next caught ih ihCaught =>
    cases asked with
    | back asked =>
      rw [plan, Plan.run, run, Reentry.meet]
      rcases (re.answer asked).on (m.inWorld w' told) with ⟨(fault | _) | a, after⟩
      · exact ihCaught fault _ _ rfl
      · rfl
      · exact ih a _ _ rfl
    | poll holds =>
      rw [plan, run, Reentry.meet]
      cases polling : (m.inWorld w' told).polling with
      | true =>
        have polls : m.polling = true := polling
        rw [if_pos polls, Plan.run, Reentry.answer, Invocation.on_poll_of_polling _ polling]
        rcases (Invocation.safePoint { re with holds }).on (m.inWorld w' told)
          with ⟨(fault | _) | a, after⟩
        · exact ihCaught fault _ _ rfl
        · rfl
        · exact ih a _ _ rfl
      | false =>
        have silent : m.polling = false := polling
        rw [if_neg (by simp [silent]), Plan.run_after, Invocation.on_poll_of_not_polling _ polling]
        exact ih () _ _ rfl

/-- An operation that performs a routine follows a plan. -/
theorem Performs.follows {op : Reentry → Run ε α} (performs : Performs catching inspecting op) :
    Follows catching op := by
  obtain ⟨routine, runs⟩ := performs
  refine ⟨fun holds m => (routine holds (m.surroundings inspecting) m.world).plan m rfl,
    fun re m => ?_⟩
  rw [runs, Routine.run_plan]

namespace Invocation

theorem follows_safePoint : Follows catching safePoint :=
  (performs_safePoint : Performs catching True _).follows

theorem follows_poll : Follows catching poll := (performs_poll : Performs catching True _).follows

end Invocation

/-! ### What routines lead to -/

section Leads

variable {R : Machine → Machine → Prop} [Abiding R] {re : Reentry} [back : re.Leads R]

theorem Reentry.leads_answer (asked : Callback) : (re.answer asked).Leads R := by
  cases asked with
  | call => exact back.call _ _ _ _
  | request => exact back.request _ _
  | safePoint holds => exact Invocation.leads_safePoint { re with holds }

theorem Reentry.leads_meet (asked : Demand) : (re.meet asked).Leads R := by
  cases asked with
  | back asked => exact leads_answer asked
  | poll holds => exact Invocation.leads_poll { re with holds }

theorem Routine.related {w : World} (routine : Routine catching inspecting ε α w) {m : Machine}
    (here : m.world = w) (finished : (routine.run re m).1 ≠ .error Exhaustible.exhausted) :
    R m (routine.run re m).2 := by
  have cut : ∀ failure : Failure,
      (Except.error (Failing.ofFailure failure) : Except ε α) ≠ .error Exhaustible.exhausted →
        failure ≠ .exhausted := by
    rintro _ finished rfl
    exact finished (congrArg _ Failing.ofFailure_exhausted)
  induction routine generalizing m with
  | ended result w' told own untraced => exact Abiding.steps (here ▸ own)
  | asks asked w' told own next ih =>
    have met := (re.leads_meet (R := R) asked).related (m.inWorld w' told)
    rw [run] at finished ⊢
    refine Abiding.trans (Abiding.steps (here ▸ own)) ?_
    cases answered : (re.meet asked).on (m.inWorld w' told) with
    | mk answer after =>
      rw [answered] at finished met
      cases answer with
      | ok a => exact Abiding.trans (met nofun) (ih a _ _ rfl finished)
      | error failure => exact met fun ended => cut _ finished (Except.error.inj ended)
  | guards allowed asked w' told own next caught ih ihCaught =>
    have met := (re.leads_meet (R := R) asked).related (m.inWorld w' told)
    rw [run] at finished ⊢
    refine Abiding.trans (Abiding.steps (here ▸ own)) ?_
    cases answered : (re.meet asked).on (m.inWorld w' told) with
    | mk answer after =>
      rw [answered] at finished met
      cases answer with
      | ok a => exact Abiding.trans (met nofun) (ih a _ _ rfl finished)
      | error failure =>
        cases failure with
        | fault fault => exact Abiding.trans (met nofun) (ihCaught fault _ _ rfl finished)
        | exhausted => exact absurd rfl (cut _ finished)

/-- A relation that abides holds across every operation that performs a routine, if it holds across
the ways back into the interpreter. -/
theorem Performs.leads {op : Reentry → Run ε α} (performs : Performs catching inspecting op)
    (re : Reentry) [re.Leads R] : (op re).Leads R where
  related m finished := by
    obtain ⟨routine, runs⟩ := performs
    rw [runs] at finished ⊢
    exact Routine.related _ rfl finished

end Leads

end Routines

end ScriptCore
