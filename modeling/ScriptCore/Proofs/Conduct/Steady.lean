import ScriptCore.Proofs.Conduct.Worlds

/-!
What a run may do to a machine.

A run changes a machine by steps of few kinds. Programs change the heap, the output, the handlers
of signals and the registry, and raise signals; besides, calls, dispatches and initialisations
begin and end. A relation between machines is steady if it holds across each of these steps, where
a call, a dispatch or an initialisation is one step once the relation holds across what happens
inside. It abides if it does so for the changes of the heap that programs can make; a steady
relation holds whatever becomes of the heap.

`Run.Leads R` says that a computation leads from every machine to one that stands in the relation
`R` to it, unless the bound on nested calls cuts it short.
-/

namespace ScriptCore

/-! ### Steps of a run -/

namespace Machine

/-- The machine in which a call is entered. -/
def entering (m : Machine) (callee : Ref .function) (calls : CallStack) : Machine :=
  { m with calls, journal := .entered callee calls.depth :: m.journal }

/-- The machine in which a call is refused. -/
def refusing (m : Machine) (callee : Ref .function) : Machine :=
  { m with journal := .refused callee m.calls.depth :: m.journal }

/-- The machine in which a dispatch begins. -/
def dispatchBegun (m : Machine) : Machine :=
  { m with dispatching := true, journal := .dispatchBegan :: m.journal }

/-- The machine in which a dispatch ends. -/
def dispatchOver (m : Machine) : Machine :=
  { m with dispatching := false, journal := .dispatchEnded :: m.journal }

/-- The machine in which the mark of a signal is cleared. -/
def taking (m : Machine) (s : OsSignal) : Machine :=
  { m with signals := m.signals.take s, journal := .taken s (m.signals.handler? s) :: m.journal }

/-- The machine in which an initialiser starts, which leaves the given registry. -/
def starting (m : Machine) (name : String) (initializer : Initializer) (registry : Registry) :
    Machine :=
  { m with registry, journal := .initializerStarted name initializer :: m.journal }

/-- The machine in which an initialiser ends. -/
def finishing (m : Machine) (name : String) : Except Fault Table → Machine
  | .ok table =>
    { m with registry := (m.registry.complete name table).2
             journal := .initializerEnded name (.ok table) :: m.journal }
  | .error fault =>
    { m with registry := m.registry.abandon name fault
             journal := .initializerEnded name (.error fault) :: m.journal }

end Machine

/-- What a program does to a machine in one step, calls, dispatches and initialisations apart. -/
inductive Change : Machine → Machine → Prop
  | heap (m : Machine) (heap : Heap) : Change m { m with heap }
  | output (m : Machine) (output : List Datum) : Change m { m with output }
  | register (m : Machine) (s : OsSignal) (handler : Ref .function) :
    Change m { m with signals := m.signals.register s handler }
  | unregister (m : Machine) (s : OsSignal) :
    Change m { m with signals := m.signals.unregister s }
  | raise (m : Machine) (s : OsSignal) :
    Change m { m with signals := m.signals.raise s, journal := .raised s :: m.journal }
  | registerPackage (m : Machine) (name : String) (initializer : Initializer) :
    Change m { m with registry := m.registry.register name initializer
                      journal := .packageRegistered name initializer :: m.journal }
  | registerSymbol (m : Machine) (package name : String) (value : Value) :
    Change m { m with registry := m.registry.registerSymbol package name value
                      journal := .symbolRegistered package name value :: m.journal }

section Relations

variable (R : Machine → Machine → Prop)

/-- A call as a whole: refused, or entered and left with the relation across what is between. -/
inductive Called (callee : Ref .function) : Machine → Machine → Prop
  | refused {m : Machine} {cause : Cause}
      (full : m.calls.push (m.heap.functionName callee) = .error cause) :
    Called callee m (m.refusing callee)
  | made {m m' : Machine} {calls : CallStack}
      (room : m.calls.push (m.heap.functionName callee) = .ok calls)
      (inside : R (m.entering callee calls) m') :
    Called callee m (Invocation.leave callee m')

/-- The turns of signals in a dispatch, which can stop before each of them. -/
inductive Turns : List OsSignal → Machine → Machine → Prop
  | stopped {signals : List OsSignal} {m : Machine} : Turns signals m m
  | idle {s : OsSignal} {rest : List OsSignal} {m m' : Machine}
      (idle : m.signals.isPending s = false) (others : Turns rest m m') : Turns (s :: rest) m m'
  | dropped {s : OsSignal} {rest : List OsSignal} {m m' : Machine}
      (pending : m.signals.isPending s = true) (unhandled : m.signals.handler? s = none)
      (others : Turns rest (m.taking s) m') : Turns (s :: rest) m m'
  | handled {s : OsSignal} {rest : List OsSignal} {m m' m'' : Machine} {f : Ref .function}
      (pending : m.signals.isPending s = true) (handler : m.signals.handler? s = some f)
      (call : Called R f (m.taking s) m') (others : Turns rest m' m'') : Turns (s :: rest) m m''

/-- The relation holds across every step of a run. -/
class Steady : Prop where
  refl : ∀ m, R m m
  trans : ∀ {m m' m''}, R m m' → R m' m'' → R m m''
  change : ∀ {m m'}, Change m m' → R m m'
  dispatching : ∀ {m m'}, R m m' → m'.dispatching = m.dispatching
  call : ∀ {callee m m'}, Called R callee m m' → R m m'
  dispatch : ∀ {m m'}, m.dispatching = false → Turns R OsSignal.all m.dispatchBegun m' →
    R m m'.dispatchOver
  initialization : ∀ {name initializer table registry m m'} (outcome : Except Fault Table),
    m.registry.request name = (.start initializer table, registry) →
    R (m.starting name initializer registry) m' → R m (m'.finishing name outcome)

/-- The relation holds across every step of a run, where the heap changes as programs change it. -/
class Abiding : Prop where
  refl : ∀ m, R m m
  trans : ∀ {m m' m''}, R m m' → R m' m'' → R m m''
  step : ∀ {inspecting m w told}, World.Step inspecting m.world told w → R m (m.inWorld w told)
  dispatching : ∀ {m m'}, R m m' → m'.dispatching = m.dispatching
  call : ∀ {callee m m'}, Called R callee m m' → R m m'
  dispatch : ∀ {m m'}, m.dispatching = false → Turns R OsSignal.all m.dispatchBegun m' →
    R m m'.dispatchOver
  initialization : ∀ {name initializer table registry m m'} (outcome : Except Fault Table),
    m.registry.request name = (.start initializer table, registry) →
    R (m.starting name initializer registry) m' → R m (m'.finishing name outcome)

end Relations

theorem World.Step.change {inspecting : Prop} {m : Machine} {w : World} {told : List Event}
    (step : World.Step inspecting m.world told w) : Change m (m.inWorld w told) := by
  cases step with
  | heap => exact .heap m _
  | output output => exact .output m output
  | register s handler => exact .register m s handler
  | unregister s => exact .unregister m s
  | raise s => exact .raise m s
  | registerPackage name => exact .registerPackage m name _
  | registerSymbol package name value => exact .registerSymbol m package name value

instance {R : Machine → Machine → Prop} [Steady R] : Abiding R where
  refl := Steady.refl
  trans := Steady.trans
  step own := Steady.change own.change
  dispatching := Steady.dispatching
  call := Steady.call
  dispatch := Steady.dispatch
  initialization := Steady.initialization

theorem Abiding.steps {R : Machine → Machine → Prop} [Abiding R] {inspecting : Prop} {m : Machine}
    {w : World} {told : List Event} (own : World.Steps inspecting m.world told w) :
    R m (m.inWorld w told) := by
  induction own with
  | refl => exact Abiding.refl m
  | tail _ step ih =>
    rw [← m.inWorld_inWorld]
    exact Abiding.trans ih (Abiding.step step)

/-! ### Computations -/

/-- Failures, one of which is that the bound on nested calls is used up. -/
class Exhaustible (ε : Type) where
  exhausted : ε

instance : Exhaustible Failure := ⟨.exhausted⟩

instance : Exhaustible Interruption := ⟨.failed .exhausted⟩

section Leads

variable {ε : Type} [Exhaustible ε] {α β : Type} {R : Machine → Machine → Prop}

/-- The computation leads from every machine to one that stands in the relation to it, unless the
bound on nested calls cuts it short. -/
structure Run.Leads (R : Machine → Machine → Prop) (run : Run ε α) : Prop where
  related : ∀ m, (run.on m).1 ≠ .error Exhaustible.exhausted → R m (run.on m).2

theorem Run.Leads.bind [Abiding R] {run : Run ε α} {next : α → Run ε β} (first : run.Leads R)
    (second : ∀ a, (next a).Leads R) : (run >>= next).Leads R where
  related m finished := by
    rw [on_bind] at finished ⊢
    have here := first.related m
    cases done : run.on m with
    | mk result m' =>
      rw [done] at finished here
      cases result with
      | ok a => exact Abiding.trans (here nofun) ((second a).related m' finished)
      | error e => exact here fun cut => finished (congrArg _ (Except.error.inj cut))

end Leads

end ScriptCore
