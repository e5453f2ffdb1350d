import ScriptCore.Proofs.Conduct.Balance
import ScriptCore.Proofs.Conduct.Registry
import ScriptCore.Proofs.Runs

/-!
What the settings are no matter of.

The settings of an interpreter are consulted at every call: whether it polls for signals, and
whether there is room for it. Two machines that differ in nothing but their settings, and in what
was told, are twins. As long as no signal becomes pending at the first one and no call is refused
there, and if there is no less room at the second one, an operation that does not look at the
settings comes to the same at twins and leaves twins: a safe point at which no signal is pending
does nothing, a call that has room at the first machine has room at the second one, and between
callbacks the operation follows one routine at both of them.
-/

namespace ScriptCore

variable {m m' : Machine}

/-! ### Troubles -/

/-- Whether an event tells that a signal became pending or that a call was refused. -/
def Event.isTrouble : Event → Bool
  | .raised _ | .refused .. => true
  | _ => false

/-- How many events do so. -/
def troubles (events : List Event) : Nat := events.countP Event.isTrouble

theorem troubles_cons_of_trouble {event : Event} (trouble : event.isTrouble = true)
    (past : List Event) : troubles (event :: past) = troubles past + 1 :=
  List.countP_cons_of_pos trouble

theorem troubles_cons_of_quiet {event : Event} (quiet : event.isTrouble = false)
    (past : List Event) : troubles (event :: past) = troubles past :=
  List.countP_cons_of_neg (by simp [quiet])

theorem troubles_append (later past : List Event) :
    troubles (later ++ past) = troubles later + troubles past := List.countP_append

/-- The settings make room for every call that the first ones make room for. -/
def Config.Permits (c c' : Config) : Prop :=
  ∀ limit', c'.maxCallDepth = some limit' →
    ∃ limit, c.maxCallDepth = some limit ∧ limit ≤ limit'

/-! ### Twins -/

/-- No initialiser that is still to run looks at the settings. -/
def Registry.Plain (registry : Registry) : Prop :=
  ∀ name table initializer, registry.package? name = some ⟨table, .unstarted initializer⟩ →
    initializer.inspects = false

/-- No signal is pending in the world, and no function and no initialiser looks at the settings. -/
structure World.Blind (w : World) : Prop where
  calm : w.signals.pending = []
  functions : ∀ f callable, w.heap.functions.get? f = some callable → callable.inspects = false
  initializers : w.registry.Plain

/-- The second machine differs from the first one in its settings, which make no less room, and in
what was told. -/
structure Twins (m m' : Machine) : Prop where
  world : m'.world = m.world
  globals : m'.globals = m.globals
  frames : m'.calls.frames = m.calls.frames
  wider : m.config.Permits m'.config
  outside : m.dispatching = false
  outside' : m'.dispatching = false
  blind : m.world.Blind

namespace Registry.Plain

variable {registry : Registry} (plain : registry.Plain)

include plain

/-- A package that is set leaves the other packages. -/
theorem setPackage (name : String) {package : Package}
    (here : ∀ initializer, package.state = .unstarted initializer →
      initializer.inspects = false) : (registry.setPackage name package).Plain := by
  intro other table initializer found
  by_cases same : other = name
  · subst same
    rw [package?_setPackage_self] at found
    exact here initializer (by cases found; rfl)
  · rw [package?_setPackage_of_ne same] at found
    exact plain other table initializer found

theorem register (name : String) {initializer : Initializer}
    (blind : initializer.inspects = false) : (registry.register name initializer).Plain := by
  refine plain.setPackage name fun other state => ?_
  cases state
  exact blind

theorem registerSymbol (package name : String) (value : Value) :
    (registry.registerSymbol package name value).Plain := by
  refine plain.setPackage package fun initializer state => ?_
  cases found : registry.package? package with
  | none =>
    rw [found] at state
    cases state
  | some content =>
    rw [found] at state
    refine plain package content.bindings initializer (found.trans ?_)
    rw [← (show content.state = .unstarted initializer from state)]

end Registry.Plain

theorem Registry.plain_builtin : builtin.Plain := by
  have empty : Plain {} := by rintro _ _ _ ⟨⟩
  have filled := BuiltinPackage.all.foldlRecOn
    (fun (registry : Registry) package => registry.register package.name (.builtin package)) empty
    fun registry plain package _ => Plain.register plain package.name rfl
  exact filled.register preludeName rfl

namespace World

variable {w w' : World} {told : List Event}

theorem Step.blind (step : Step False w told w') (quiet : troubles told = 0) (blind : w.Blind) :
    w'.Blind := by
  obtain ⟨calm, functions, initializers⟩ := blind
  cases step with
  | heap grows =>
    refine ⟨calm, fun f callable found => ?_, initializers⟩
    obtain old | plain := grows.bodies f callable found
    · exact functions f callable old
    · exact Bool.eq_false_iff.2 plain
  | output | register | unregister => exact ⟨calm, functions, initializers⟩
  | raise => cases quiet
  | registerPackage name plain =>
    exact ⟨calm, functions, initializers.register name (Bool.eq_false_iff.2 plain)⟩
  | registerSymbol package name value =>
    exact ⟨calm, functions, initializers.registerSymbol package name value⟩

theorem Steps.blind (steps : Steps False w told w') (quiet : troubles told = 0) (blind : w.Blind) :
    w'.Blind := by
  induction steps with
  | refl => exact blind
  | tail _ step ih =>
    rw [troubles_append, Nat.add_eq_zero_iff] at quiet
    exact step.blind quiet.1 (ih quiet.2)

end World

namespace Twins

theorem surroundings (twins : Twins m m') : m'.surroundings False = m.surroundings False :=
  Surroundings.eq_of_not_inspecting id twins.globals twins.frames

/-- Twins that come to the same world are twins there. -/
theorem inWorld (twins : Twins m m') {w : World} (blind : w.Blind) (told told' : List Event) :
    Twins (m.inWorld w told) (m'.inWorld w told') :=
  ⟨rfl, twins.globals, twins.frames, twins.wider, twins.outside, twins.outside', blind⟩

end Twins

/-! ### Computations in lockstep -/

section Lockstep

variable {ε α β : Type}

/-- What is told stays told, as far as troubles are counted. -/
def Run.Adds (run : Run ε α) : Prop :=
  ∀ m, troubles m.journal ≤ troubles (run.on m).2.journal

theorem Run.Adds.bind {run : Run ε α} {next : α → Run ε β} (first : run.Adds)
    (second : ∀ a, (next a).Adds) : (run >>= next).Adds := by
  intro m
  have before := first m
  rw [on_bind]
  cases done : run.on m with
  | mk result between =>
    rw [done] at before
    cases result with
    | ok a => exact Nat.le_trans before (second a between)
    | error => exact before

/-- At twins, and if it runs without troubles at the first one, the computation comes to the same
result and leaves twins. -/
structure Run.Lockstep (run : Run ε α) : Prop where
  adds : run.Adds
  same : ∀ {m m'}, Twins m m' → troubles (run.on m).2.journal = troubles m.journal →
    (run.on m').1 = (run.on m).1 ∧ Twins (run.on m).2 (run.on m').2

theorem Run.Lockstep.bind {run : Run ε α} {next : α → Run ε β} (first : run.Lockstep)
    (second : ∀ a, (next a).Lockstep) : (run >>= next).Lockstep where
  adds := first.adds.bind fun a => (second a).adds
  same {m m'} twins smooth := by
    have adds := first.adds m
    have same := first.same twins
    rw [on_bind] at smooth ⊢
    rw [on_bind]
    rcases done : run.on m with ⟨result, between⟩
    rcases done' : run.on m' with ⟨result', between'⟩
    rw [done] at adds smooth
    rw [done, done'] at same
    cases result with
    | ok a =>
      have more : troubles between.journal ≤ troubles ((next a).on between).2.journal :=
        (second a).adds between
      have before : troubles m.journal ≤ troubles between.journal := adds
      have rest : troubles ((next a).on between).2.journal = troubles m.journal := smooth
      obtain ⟨rfl, twins'⟩ := same (show troubles between.journal = _ by omega)
      exact (second a).same twins' (by omega)
    | error e =>
      obtain ⟨rfl, twins'⟩ := same smooth
      exact ⟨rfl, twins'⟩

end Lockstep

/-- The ways back into the interpreter run in lockstep. -/
class Reentry.Lockstep (re : Reentry) : Prop where
  call : ∀ holds callee args this, (re.call holds callee args this).Lockstep
  request : ∀ holds name, (re.request holds name).Lockstep

/-! ### Safe points -/

namespace Invocation

section SafePoints

variable (re : Reentry) [back : re.Lockstep]

theorem adds_dispatchSignal (s : OsSignal) : (dispatchSignal re s).Adds := by
  intro m
  cases pending : m.signals.isPending s with
  | false => exact Nat.le_of_eq (by rw [on_dispatchSignal_of_idle re pending])
  | true =>
    cases handler : m.signals.handler? s with
    | none =>
      rw [on_dispatchSignal_of_unhandled re pending handler]
      exact Nat.le_refl _
    | some f =>
      have called := (back.call re.holds f [.text s.name] none).adds (m.taking s)
      rw [on_dispatchSignal_of_handled re pending handler, Run.on_discard, Reentry.invoke]
      cases answered : (re.call re.holds f [.text s.name] none).on (m.taking s) with
      | mk answer after =>
        rw [answered] at called
        cases answer <;> exact called

theorem adds_dispatch (signals : List OsSignal) : (signals.forM (dispatchSignal re)).Adds := by
  induction signals with
  | nil => exact fun _ => Nat.le_refl _
  | cons s rest ih => exact .bind (adds_dispatchSignal re s) fun _ => ih

omit back in
/-- Where no signal is pending, a dispatch calls nothing. -/
theorem on_dispatch_of_calm (calm : m.signals.pending = []) (signals : List OsSignal) :
    (signals.forM (dispatchSignal re)).on m = (.ok (), m) := by
  induction signals with
  | nil => rfl
  | cons s rest ih =>
    have idle : m.signals.isPending s = false := by simp [SignalTable.isPending, calm]
    rw [dispatch_cons, Run.on_bind_of_ok (on_dispatchSignal_of_idle re idle)]
    exact ih

omit back in
/-- A safe point at which no signal is pending tells that it was there, and does nothing else. -/
theorem on_safePoint_of_calm (outside : m.dispatching = false) (calm : m.signals.pending = []) :
    (safePoint re).on m = (.ok (), m.inWorld m.world [.dispatchEnded, .dispatchBegan]) := by
  have dispatched : (dispatchPending re).on m.dispatchBegun = (.ok (), m.dispatchBegun) :=
    on_dispatch_of_calm re (m := m.dispatchBegun) calm OsSignal.all
  rw [on_safePoint_of_not_dispatching re outside, dispatched]
  obtain ⟨heap, globals, calls, polling, dispatching, registry, signals, output, journal⟩ := m
  cases outside
  rfl

omit back in
theorem on_poll_of_calm (outside : m.dispatching = false) (calm : m.signals.pending = []) :
    ∃ told, troubles told = 0 ∧ (poll re).on m = (.ok (), m.inWorld m.world told) := by
  cases polling : m.polling with
  | true =>
    have safe := on_safePoint_of_calm re outside calm
    exact ⟨_, rfl, (on_poll_of_polling re polling).trans safe⟩
  | false => exact ⟨[], rfl, on_poll_of_not_polling re polling⟩

theorem adds_safePoint : (safePoint re).Adds := by
  intro m
  cases outside : m.dispatching with
  | true => exact Nat.le_of_eq (by rw [on_safePoint_of_dispatching re outside])
  | false =>
    rw [on_safePoint_of_not_dispatching re outside]
    exact adds_dispatch re OsSignal.all m.dispatchBegun

theorem lockstep_safePoint : (safePoint re).Lockstep where
  adds := adds_safePoint re
  same twins _ := by
    have calm' := (congrArg (fun w => w.signals.pending) twins.world).trans twins.blind.calm
    rw [on_safePoint_of_calm re twins.outside twins.blind.calm,
      on_safePoint_of_calm re twins.outside' calm', twins.world]
    exact ⟨rfl, twins.inWorld twins.blind _ _⟩

theorem lockstep_poll : (poll re).Lockstep where
  adds m := by
    cases polling : m.polling with
    | true =>
      rw [on_poll_of_polling re polling]
      exact adds_safePoint re m
    | false => exact Nat.le_of_eq (by rw [on_poll_of_not_polling re polling])
  same twins _ := by
    have calm' := (congrArg (fun w => w.signals.pending) twins.world).trans twins.blind.calm
    obtain ⟨told, -, polled⟩ := on_poll_of_calm re twins.outside twins.blind.calm
    obtain ⟨told', -, polled'⟩ := on_poll_of_calm re twins.outside' calm'
    rw [polled, polled', twins.world]
    exact ⟨rfl, twins.inWorld twins.blind _ _⟩

end SafePoints

end Invocation

/-! ### Routines -/

section Routines

variable {catching inspecting : Prop} {ε α : Type} [Failing ε] (re : Reentry) [back : re.Lockstep]

theorem Reentry.lockstep_meet (asked : Demand) : (re.meet asked).Lockstep := by
  cases asked with
  | back asked =>
    cases asked with
    | call => exact back.call _ _ _ _
    | request => exact back.request _ _
    | safePoint holds =>
      have held : Reentry.Lockstep { re with holds } := ⟨back.call, back.request⟩
      exact Invocation.lockstep_safePoint { re with holds }
  | poll holds =>
    have held : Reentry.Lockstep { re with holds } := ⟨back.call, back.request⟩
    exact Invocation.lockstep_poll { re with holds }

theorem Machine.troubles_inWorld (m : Machine) (w : World) (told : List Event) :
    troubles (m.inWorld w told).journal = troubles told + troubles m.journal :=
  troubles_append told m.journal

theorem Routine.adds {w : World} (routine : Routine catching inspecting ε α w) (m : Machine) :
    troubles m.journal ≤ troubles (routine.run re m).2.journal := by
  have own : ∀ (m : Machine) (w' : World) (told : List Event),
      troubles m.journal ≤ troubles (m.inWorld w' told).journal := fun m w' told => by
    rw [m.troubles_inWorld]
    exact Nat.le_add_left _ _
  induction routine generalizing m with
  | ended result w' told => exact own m w' told
  | asks asked w' told _ next ih =>
    have met := Nat.le_trans (own m w' told) ((re.lockstep_meet asked).adds (m.inWorld w' told))
    rw [run]
    cases answered : (re.meet asked).on (m.inWorld w' told) with
    | mk answer after =>
      rw [answered] at met
      cases answer with
      | ok a => exact Nat.le_trans met (ih a _ _ after)
      | error => exact met
  | guards _ asked w' told _ next caught ih ihCaught =>
    have met := Nat.le_trans (own m w' told) ((re.lockstep_meet asked).adds (m.inWorld w' told))
    rw [run]
    cases answered : (re.meet asked).on (m.inWorld w' told) with
    | mk answer after =>
      rw [answered] at met
      cases answer with
      | ok a => exact Nat.le_trans met (ih a _ _ after)
      | error failure =>
        cases failure with
        | fault fault => exact Nat.le_trans met (ihCaught fault _ _ after)
        | exhausted => exact met

/-- A demand after which no troubles are told is met at twins with the same answer. -/
theorem Reentry.meet_same {w : World} {told : List Event} {asked : Demand}
    {answer : Except Failure asked.Answer} {after : Machine} (twins : Twins m m')
    (own : World.Steps False m.world told w)
    (met : (re.meet asked).on (m.inWorld w told) = (answer, after)) {last : Nat}
    (later : troubles after.journal ≤ last) (smooth : last = troubles m.journal) :
    ∃ after', (re.meet asked).on (m'.inWorld w told) = (answer, after') ∧ Twins after after' ∧
      last = troubles after.journal := by
  have lockstep := re.lockstep_meet asked
  have adds := lockstep.adds (m.inWorld w told)
  rw [met, m.troubles_inWorld] at adds
  have reached : troubles told + troubles m.journal ≤ troubles after.journal := adds
  have blind := own.blind (by omega) twins.blind
  have same := lockstep.same (twins.inWorld blind told told)
  rw [met, m.troubles_inWorld] at same
  obtain ⟨answered, twins'⟩ := same (show troubles after.journal = _ by omega)
  exact ⟨((re.meet asked).on (m'.inWorld w told)).2, Prod.ext answered rfl, twins', by omega⟩

/-- Twins follow the same routine. -/
theorem Routine.same {w : World} (routine : Routine catching False ε α w) {m m' : Machine}
    (here : m.world = w) (twins : Twins m m')
    (smooth : troubles (routine.run re m).2.journal = troubles m.journal) :
    (routine.run re m').1 = (routine.run re m).1 ∧
      Twins (routine.run re m).2 (routine.run re m').2 := by
  induction routine generalizing m m' with
  | ended result w' told own =>
    subst here
    rw [run, m.troubles_inWorld] at smooth
    exact ⟨rfl, twins.inWorld (own.blind (by omega) twins.blind) told told⟩
  | asks asked w' told own next ih =>
    subst here
    simp only [run] at smooth ⊢
    rcases met : (re.meet asked).on (m.inWorld w' told) with ⟨answer, after⟩
    rw [met] at smooth
    cases answer with
    | ok a =>
      have later := (next a (after.surroundings False) after.world).adds re after
      obtain ⟨after', met', twins', smooth'⟩ := re.meet_same twins own met later smooth
      rw [met']
      dsimp only
      rw [twins'.surroundings, twins'.world]
      exact ih a _ _ rfl twins' smooth'
    | error failure =>
      obtain ⟨after', met', twins', -⟩ := re.meet_same twins own met (Nat.le_refl _) smooth
      rw [met']
      exact ⟨rfl, twins'⟩
  | guards _ asked w' told own next caught ih ihCaught =>
    subst here
    simp only [run] at smooth ⊢
    rcases met : (re.meet asked).on (m.inWorld w' told) with ⟨answer, after⟩
    rw [met] at smooth
    cases answer with
    | ok a =>
      have later := (next a (after.surroundings False) after.world).adds re after
      obtain ⟨after', met', twins', smooth'⟩ := re.meet_same twins own met later smooth
      rw [met']
      dsimp only
      rw [twins'.surroundings, twins'.world]
      exact ih a _ _ rfl twins' smooth'
    | error failure =>
      cases failure with
      | fault fault =>
        have later := (caught fault (after.surroundings False) after.world).adds re after
        obtain ⟨after', met', twins', smooth'⟩ := re.meet_same twins own met later smooth
        rw [met']
        dsimp only
        rw [twins'.surroundings, twins'.world]
        exact ihCaught fault _ _ rfl twins' smooth'
      | exhausted =>
        obtain ⟨after', met', twins', -⟩ := re.meet_same twins own met (Nat.le_refl _) smooth
        rw [met']
        exact ⟨rfl, twins'⟩

theorem Performs.adds {op : Reentry → Run ε α} (performs : Performs catching inspecting op) :
    (op re).Adds := by
  obtain ⟨routine, runs⟩ := performs
  intro m
  rw [runs]
  exact Routine.adds re _ m

/-- An operation that does not look at the settings runs in lockstep. -/
theorem Performs.lockstep {op : Reentry → Run ε α} (performs : Performs catching False op) :
    (op re).Lockstep where
  adds := performs.adds re
  same {m m'} twins smooth := by
    obtain ⟨routine, runs⟩ := performs
    rw [runs] at smooth ⊢
    rw [runs, twins.surroundings, twins.world]
    exact Routine.same re _ rfl twins smooth

end Routines

/-! ### Calls -/

theorem CallStack.attachTrace_congr {calls calls' : CallStack} (same : calls'.frames = calls.frames)
    (fault : Fault) : calls'.attachTrace fault = calls.attachTrace fault := by
  rw [attachTrace, attachTrace, capture, capture, same]

namespace Twins

variable {callee : Ref .function} {calls calls' : CallStack}

/-- A call that has room at the first machine has room at its twin. -/
theorem room (twins : Twins m m') (room : m.calls.push (m.heap.functionName callee) = .ok calls) :
    ∃ calls', m'.calls.push (m'.heap.functionName callee) = .ok calls' ∧
      Twins (m.entering callee calls) (m'.entering callee calls') := by
  obtain ⟨rfl, within⟩ := CallStack.push_eq_ok_iff.1 room
  have name : m'.heap.functionName callee = m.heap.functionName callee :=
    congrArg (fun w => w.heap.functionName callee) twins.world
  refine ⟨_, CallStack.push_eq_ok_iff.2 ⟨rfl, fun limit' limited => ?_⟩, ?_⟩
  · obtain ⟨limit, limits, less⟩ := twins.wider limit' limited
    have below := within limit limits
    rw [m.calls.depth_eq] at below
    rw [m'.calls.depth_eq, twins.frames]
    exact Nat.lt_of_lt_of_le below less
  · refine { twins with frames := ?_ }
    show m'.heap.functionName callee :: m'.calls.frames = _ :: m.calls.frames
    rw [name, twins.frames]

theorem leave (twins : Twins m m') (callee : Ref .function) :
    Twins (Invocation.leave callee m) (Invocation.leave callee m') :=
  { twins with frames := congrArg List.tail twins.frames }

end Twins

namespace Invocation

variable {callee : Ref .function} {work : Action Value}

/-- At twins, what comes through a call gets the same trace. -/
theorem on_traced_same {a b : Machine} (same : (work.on b).1 = (work.on a).1)
    (twins : Twins (work.on a).2 (work.on b).2) :
    ((traced work).on b).1 = ((traced work).on a).1 := by
  rcases here : work.on a with ⟨answer, after⟩
  rcases there : work.on b with ⟨answer', after'⟩
  rw [here, there] at same twins
  cases same
  rcases answer with (fault | _) | v
  · have traces := CallStack.attachTrace_congr twins.frames fault
    rw [on_traced_of_fault here, on_traced_of_fault there]
    exact congrArg (fun fault => Except.error (Failure.fault fault)) traces
  · rw [on_traced_of_exhausted (congrArg Prod.fst here),
      on_traced_of_exhausted (congrArg Prod.fst there)]
  · rw [on_traced_of_ok here, on_traced_of_ok there]

theorem adds_admitted (adds : work.Adds) : (admitted callee work).Adds := by
  intro m
  cases place : m.calls.push (m.heap.functionName callee) with
  | error cause =>
    rw [on_admitted_of_full place, Machine.refusing, troubles_cons_of_trouble rfl]
    exact Nat.le_succ _
  | ok calls =>
    have inside := adds (m.entering callee calls)
    rw [Machine.entering, troubles_cons_of_quiet rfl] at inside
    rw [on_admitted_of_room place, leave, troubles_cons_of_quiet rfl]
    exact inside

theorem lockstep_admitted (lockstep : work.Lockstep) : (admitted callee work).Lockstep where
  adds := adds_admitted lockstep.adds
  same {m m'} twins smooth := by
    cases place : m.calls.push (m.heap.functionName callee) with
    | error cause =>
      rw [on_admitted_of_full place, Machine.refusing, troubles_cons_of_trouble rfl] at smooth
      omega
    | ok calls =>
      obtain ⟨calls', place', twins'⟩ := twins.room place
      rw [on_admitted_of_room place, leave, troubles_cons_of_quiet rfl] at smooth
      have within : troubles (m.entering callee calls).journal = troubles m.journal :=
        troubles_cons_of_quiet rfl _
      obtain ⟨answer, twins''⟩ := lockstep.same twins' (smooth.trans within.symm)
      rw [on_admitted_of_room place, on_admitted_of_room place']
      exact ⟨on_traced_same answer twins'', twins''.leave callee⟩

/-- A call whose work runs in lockstep runs in lockstep. -/
theorem lockstep_call (re : Reentry) [re.Lockstep] (callee : Ref .function)
    (lockstep : work.Lockstep) : (call re callee work).Lockstep :=
  (lockstep_poll re).bind fun _ => lockstep_admitted lockstep

end Invocation

/-! ### Initialisations -/

namespace Twins

theorem request (twins : Twins m m') (name : String) :
    m'.registry.request name = m.registry.request name :=
  congrArg (fun w => w.registry.request name) twins.world

/-- Twins in which the registry becomes the same are twins. -/
theorem withRegistry (twins : Twins m m') {registry : Registry}
    (plain : registry.Plain) (event event' : Event) :
    Twins { m with registry, journal := event :: m.journal }
      { m' with registry, journal := event' :: m'.journal } :=
  { twins with
    world := congrArg (fun w : World => { w with registry }) twins.world
    blind := ⟨twins.blind.calm, twins.blind.functions, plain⟩ }

/-- The initialiser that a request starts is blind, and twins start it as twins. -/
theorem starting (twins : Twins m m') {name : String} {initializer : Initializer} {table : Table}
    {registry : Registry} (start : m.registry.request name = (.start initializer table, registry)) :
    initializer.inspects = false ∧
      Twins (m.starting name initializer registry) (m'.starting name initializer registry) := by
  have unstarted := Registry.request_eq_start_iff.1 (congrArg Prod.fst start)
  refine ⟨twins.blind.initializers name table initializer unstarted, twins.withRegistry ?_ _ _⟩
  have after : registry = m.registry.setPackage name ⟨.empty, .initializing⟩ :=
    (congrArg Prod.snd start).symm.trans (Registry.snd_request_of_unstarted unstarted)
  rw [after]
  exact twins.blind.initializers.setPackage name fun _ started => nomatch started

theorem finishing (twins : Twins m m') (name : String) (outcome : Except Fault Table) :
    Twins (m.finishing name outcome) (m'.finishing name outcome) := by
  have registry : m'.registry = m.registry := congrArg World.registry twins.world
  cases outcome with
  | ok table =>
    rw [Machine.finishing, Machine.finishing, registry]
    refine twins.withRegistry (twins.blind.initializers.setPackage name ?_) _ _
    rintro _ ⟨⟩
  | error fault =>
    rw [Machine.finishing, Machine.finishing, registry]
    refine twins.withRegistry (twins.blind.initializers.setPackage name ?_) _ _
    rintro _ ⟨⟩

end Twins

namespace Packages

variable {run : Initializer → Table → Action Table} {filling : Action Table}

theorem troubles_finishing (m : Machine) (name : String) (outcome : Except Fault Table) :
    troubles (m.finishing name outcome).journal = troubles m.journal := by
  cases outcome <;> exact troubles_cons_of_quiet rfl _

theorem adds_finish (adds : filling.Adds) (name : String) : (finish name filling).Adds := by
  intro m
  have filled := adds m
  match came : filling.on m with
  | (.ok table, after) =>
    rw [came] at filled
    rw [on_finish_of_ok came, troubles_finishing]
    exact filled
  | (.error (.fault fault), after) =>
    rw [came] at filled
    rw [on_finish_of_fault came, troubles_finishing]
    exact filled
  | (.error .exhausted, after) =>
    rw [came] at filled
    rw [on_finish_of_exhausted came]
    exact filled

theorem lockstep_finish (lockstep : filling.Lockstep) (name : String) :
    (finish name filling).Lockstep where
  adds := adds_finish lockstep.adds name
  same {m m'} twins smooth := by
    have same := lockstep.same twins
    rcases came' : filling.on m' with ⟨result', after'⟩
    match came : filling.on m with
    | (.ok table, after) =>
      rw [came, came'] at same
      rw [on_finish_of_ok came, troubles_finishing] at smooth
      obtain ⟨rfl, twins'⟩ := same smooth
      have registry : after'.registry = after.registry := congrArg World.registry twins'.world
      rw [on_finish_of_ok came, on_finish_of_ok came', registry]
      exact ⟨rfl, twins'.finishing name (.ok table)⟩
    | (.error (.fault fault), after) =>
      rw [came, came'] at same
      rw [on_finish_of_fault came, troubles_finishing] at smooth
      obtain ⟨rfl, twins'⟩ := same smooth
      rw [on_finish_of_fault came, on_finish_of_fault came']
      exact ⟨rfl, twins'.finishing name (.error fault)⟩
    | (.error .exhausted, after) =>
      rw [came, came'] at same
      rw [on_finish_of_exhausted came] at smooth
      obtain ⟨rfl, twins'⟩ := same smooth
      rw [on_finish_of_exhausted came, on_finish_of_exhausted came']
      exact ⟨rfl, twins'⟩

theorem lockstep_ensure (adds : ∀ initializer table, (run initializer table).Adds)
    (fills : ∀ initializer table, initializer.inspects = false →
      (run initializer table).Lockstep) (name : String) : (ensure run name).Lockstep where
  adds m := by
    match asked : m.registry.request name with
    | (.refused fault, registry) =>
      exact Nat.le_of_eq (by rw [on_ensure_of_refused (congrArg Prod.fst asked)])
    | (.ready table, registry) =>
      exact Nat.le_of_eq (by rw [on_ensure_of_ready (congrArg Prod.fst asked)])
    | (.start initializer table, registry) =>
      have filled :=
        adds_finish (adds initializer table) name (m.starting name initializer registry)
      rw [Machine.starting, troubles_cons_of_quiet rfl] at filled
      rw [on_ensure_of_start asked]
      exact filled
  same {m m'} twins smooth := by
    have asked' := twins.request name
    match asked : m.registry.request name with
    | (.refused fault, registry) =>
      rw [asked] at asked'
      rw [on_ensure_of_refused (congrArg Prod.fst asked),
        on_ensure_of_refused (congrArg Prod.fst asked')]
      exact ⟨rfl, twins⟩
    | (.ready table, registry) =>
      rw [asked] at asked'
      rw [on_ensure_of_ready (congrArg Prod.fst asked),
        on_ensure_of_ready (congrArg Prod.fst asked')]
      exact ⟨rfl, twins⟩
    | (.start initializer table, registry) =>
      rw [asked] at asked'
      obtain ⟨plain, begun⟩ := twins.starting asked
      have told : troubles (m.starting name initializer registry).journal = troubles m.journal :=
        troubles_cons_of_quiet rfl _
      rw [on_ensure_of_start asked, ← told] at smooth
      rw [on_ensure_of_start asked, on_ensure_of_start asked']
      exact (lockstep_finish (fills initializer table plain) name).same begun smooth

end Packages

/-! ### The interpreter -/

namespace Interpreter

/-- Twins call the same function, and it is blind. -/
theorem lockstep_perform (re : Reentry) [re.Lockstep] (callee : Ref .function) (args : List Value)
    (this : Option Value) : (perform re callee args this).Lockstep where
  adds := (performs_perform callee args this).adds re
  same {m m'} twins smooth := by
    have callable : m'.heap.callable callee = m.heap.callable callee :=
      congrArg (fun w => w.heap.callable callee) twins.world
    have plain : (m.heap.callable callee).inspects = false := by
      rw [Heap.callable]
      cases found : m.heap.functions.get? callee with
      | none => rfl
      | some content => exact twins.blind.functions callee content found
    have performs : Performs True False fun re =>
        performCallable re args this (m.heap.callable callee) :=
      performs_performCallable args this (fun _ => trivial) (by simp [plain])
    rw [on_perform] at smooth ⊢
    rw [on_perform, callable]
    exact (performs.lockstep re).same twins smooth

instance lockstep_nested (steps : Nat) (holds : List Hold) : (nested steps holds).Lockstep := by
  induction steps generalizing holds with
  | zero =>
    exact ⟨fun _ _ _ _ => ⟨fun _ => Nat.le_refl _, fun twins _ => ⟨rfl, twins⟩⟩,
      fun _ _ => ⟨fun _ => Nat.le_refl _, fun twins _ => ⟨rfl, twins⟩⟩⟩
  | succ steps ih =>
    refine ⟨fun holds callee args this => ?_, fun holds name => ?_⟩
    · exact Invocation.lockstep_call (nested steps _) callee
        (lockstep_perform (nested steps _) callee args this)
    · refine Packages.lockstep_ensure (fun initializer table => ?_)
        (fun initializer table plain => ?_) name
      · have performs : Performs True True fun re => runInitializer re initializer table :=
          performs_runInitializer (fun _ => trivial) (fun _ => trivial) table
        exact performs.adds (nested steps holds)
      · have performs : Performs True False fun re => runInitializer re initializer table :=
          performs_runInitializer (fun _ => trivial) (by simp [plain]) table
        exact performs.lockstep (nested steps holds)

/-! ### Programs -/

/-- A program that does not look at the settings comes to the same at twins, and leaves twins. -/
theorem runExpression_same (twins : Twins m m') {e : Expr} (plain : e.inspects = false)
    (smooth : troubles (runExpression m e).2.journal = troubles m.journal) :
    (runExpression m' e).1 = (runExpression m e).1 ∧
      Twins (runExpression m e).2 (runExpression m' e).2 := by
  have performs : Performs True False fun re => runProgram re (evaluate re e) :=
    performs_run e (fun _ => trivial) (by simp [plain])
  exact (performs.lockstep (nested nestingBound [])).same twins smooth

theorem adds_runExpression (m : Machine) (e : Expr) :
    troubles m.journal ≤ troubles (runExpression m e).2.journal := by
  have performs : Performs True True fun re => runProgram re (evaluate re e) :=
    performs_run e (fun _ => trivial) fun _ => trivial
  exact performs.adds (nested nestingBound []) m

/-- Interpreters that are built with the same globals are twins before anything is built. -/
theorem twins_blank {c c' : Config} (permits : c.Permits c') : Twins (blank c) (blank c') where
  world := rfl
  globals := rfl
  frames := rfl
  wider := permits
  outside := rfl
  outside' := rfl
  blind := ⟨rfl, nofun, Registry.plain_builtin⟩

/-- Builds an interpreter and runs programs in it, one after another. -/
def session (setup : Setup) (programs : List Expr) :
    Except Failure Unit × List (Except Failure Value) × Machine :=
  let (built, m) := start setup
  (built, runSteps (fun e m => runExpression m e) programs m)

theorem runPrograms_adds (programs : List Expr) (m : Machine) :
    troubles m.journal ≤
      troubles (runSteps (fun e m => runExpression m e) programs m).2.journal := by
  induction programs generalizing m with
  | nil => exact Nat.le_refl _
  | cons e rest ih => exact Nat.le_trans (adds_runExpression m e) (ih _)

theorem runPrograms_same (twins : Twins m m') {programs : List Expr}
    (plain : ∀ e ∈ programs, e.inspects = false)
    (smooth : troubles (runSteps (fun e m => runExpression m e) programs m).2.journal =
      troubles m.journal) :
    (runSteps (fun e m => runExpression m e) programs m').1 =
        (runSteps (fun e m => runExpression m e) programs m).1 ∧
      Twins (runSteps (fun e m => runExpression m e) programs m).2
        (runSteps (fun e m => runExpression m e) programs m').2 := by
  induction programs generalizing m m' with
  | nil => exact ⟨rfl, twins⟩
  | cons e rest ih =>
    rw [List.forall_mem_cons] at plain
    have first := adds_runExpression m e
    have others := runPrograms_adds rest (runExpression m e).2
    simp only [runSteps] at smooth ⊢
    obtain ⟨result, twins'⟩ := runExpression_same twins plain.1 (by omega)
    obtain ⟨results, twins''⟩ := ih twins' plain.2 (by omega)
    exact ⟨congrArg₂ List.cons result results, twins''⟩

/-- The settings are no matter of programs that do not look at them and stay within them. If no
signal becomes pending and no call is refused while an interpreter is built and runs programs, then
under all settings that make no less room, polling or not, building comes to the same, every program
has the same result or the same failure with the same trace, and in the end the heap, the registry,
the signals and their handlers, the output and the global scope are the same. -/
theorem session_same {setup : Setup} {c : Config} (permits : setup.config.Permits c)
    {programs : List Expr} (plain : ∀ e ∈ programs, e.inspects = false)
    (calm : ∀ s, Event.raised s ∉ (session setup programs).2.2.journal)
    (unrefused : ∀ f depth, Event.refused f depth ∉ (session setup programs).2.2.journal) :
    let first := session setup programs
    let second := session { setup with config := c } programs
    second.1 = first.1 ∧ second.2.1 = first.2.1 ∧ second.2.2.world = first.2.2.world ∧
      second.2.2.globals = first.2.2.globals := by
  have smooth : troubles (session setup programs).2.2.journal = 0 := by
    refine List.countP_eq_zero.2 fun event told trouble => ?_
    cases event with
    | raised s => exact calm s told
    | refused f depth => exact unrefused f depth told
    | _ => cases trouble
  have performs : Performs True False fun re => (do
      defineGlobals setup.globals
      if setup.withPrelude then installPrelude re else pure () : Action Unit) :=
    performs_build setup
  have builds := performs.lockstep (nested nestingBound [])
  have later := runPrograms_adds programs (start setup).2
  have silent : troubles (start setup).2.journal = 0 := Nat.le_zero.1 (smooth ▸ later)
  obtain ⟨built, twins⟩ := builds.same (twins_blank permits) silent
  obtain ⟨results, twins'⟩ := runPrograms_same twins plain (smooth.trans silent.symm)
  exact ⟨built, results, twins'.world, twins'.globals⟩

/-- An interpreter that has room for one call and does not poll. -/
def cramped : Setup where
  config := { maxCallDepth := some 1, signalPolling := false }
  withPrelude := false

/-- A program that calls a function, which tells how many calls are active. -/
def depthInside : Expr :=
  .apply .call [.function "inside" [] false [.ret (.apply .callDepth [])]]

/-- The program does not need more room, and gives the same where there is no limit and every call
polls. -/
theorem session_same_depthInside :
    cramped.config.Permits {} ∧ depthInside.inspects = false ∧
      (session cramped [depthInside]).2.1 = [.ok (.ofNat 1)] ∧
      (session { cramped with config := {} } [depthInside]).2.1 = [.ok (.ofNat 1)] ∧
      (session { cramped with config := {} } [depthInside]).2.2.world =
        (session cramped [depthInside]).2.2.world := by
  have permits : cramped.config.Permits {} := nofun
  have answers : (session cramped [depthInside]).2.1 = [.ok (.ofNat 1)] := by decide +kernel
  have smooth : (session cramped [depthInside]).2.2.journal.all (!·.isTrouble) = true := by
    decide +kernel
  have quiet : ∀ event ∈ (session cramped [depthInside]).2.2.journal, event.isTrouble = false := by
    simpa using smooth
  obtain ⟨-, results, world, -⟩ := session_same permits (List.forall_mem_singleton.2 rfl)
    (fun s told => nomatch quiet _ told) fun f depth told => nomatch quiet _ told
  exact ⟨permits, rfl, answers, results.trans answers, world⟩

end Interpreter

end ScriptCore
