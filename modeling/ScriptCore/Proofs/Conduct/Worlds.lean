import ScriptCore.Proofs.Conduct.Growth

/-!
What a program changes in a machine, and what it sees of it.

The steps that a program takes on its own change the heap, the registry, the handlers and marks of
signals and the output; these are the world. The global scope and the active calls surround it: a
program sees them, but only calls change them. What else a machine has, no step of a program sees:
the journal, whether a dispatch is under way, and the settings, unless looking at them is allowed.
-/

namespace ScriptCore

/-- What a program can change on its own. -/
structure World where
  heap : Heap
  registry : Registry
  signals : SignalTable
  output : List Datum

/-- What a program sees besides, the settings where looking at them is allowed. -/
structure Surroundings (inspecting : Prop) where
  globals : Ref .scope
  frames : List String
  settings : inspecting → Config

namespace Machine

def world (m : Machine) : World := ⟨m.heap, m.registry, m.signals, m.output⟩

def surroundings (inspecting : Prop) (m : Machine) : Surroundings inspecting :=
  ⟨m.globals, m.calls.frames, fun _ => m.config⟩

/-- The machine in another world, after events. -/
def inWorld (m : Machine) (w : World) (told : List Event) : Machine :=
  { m with heap := w.heap
           registry := w.registry
           signals := w.signals
           output := w.output
           journal := told ++ m.journal }

theorem inWorld_inWorld (m : Machine) (w w' : World) (told more : List Event) :
    (m.inWorld w told).inWorld w' more = m.inWorld w' (more ++ told) := by
  simp [inWorld]

end Machine

/-- A machine with nothing in it but what a program sees, and settings. -/
def World.machine {inspecting : Prop} (w : World) (s : Surroundings inspecting) (c : Config) :
    Machine where
  heap := w.heap
  globals := s.globals
  calls := { frames := s.frames, limit := c.maxCallDepth }
  polling := c.signalPolling
  registry := w.registry
  signals := w.signals
  output := w.output

/-- Surroundings of programs that may not look at the settings do not tell them. -/
theorem Surroundings.eq_of_not_inspecting {inspecting : Prop} (blind : ¬ inspecting)
    {s s' : Surroundings inspecting} (globals : s.globals = s'.globals)
    (frames : s.frames = s'.frames) : s = s' := by
  obtain ⟨_, _, settings⟩ := s
  obtain ⟨_, _, settings'⟩ := s'
  obtain rfl : settings = settings' := funext fun allowed => absurd allowed blind
  cases globals
  cases frames
  rfl

/-! ### Steps -/

namespace World

variable {inspecting : Prop} {w w' w'' : World} {told more : List Event}

/-- What a program does to its world in one step, and the events that tell it. -/
inductive Step (inspecting : Prop) : World → List Event → World → Prop
  | heap {w : World} {heap : Heap} (grows : w.heap.Grows inspecting heap) :
    Step inspecting w [] { w with heap }
  | output (w : World) (output : List Datum) : Step inspecting w [] { w with output }
  | register (w : World) (s : OsSignal) (handler : Ref .function) :
    Step inspecting w [] { w with signals := w.signals.register s handler }
  | unregister (w : World) (s : OsSignal) :
    Step inspecting w [] { w with signals := w.signals.unregister s }
  | raise (w : World) (s : OsSignal) :
    Step inspecting w [.raised s] { w with signals := w.signals.raise s }
  | registerPackage (w : World) (name : String) {initializer : Initializer}
      (plain : initializer.inspects = true → inspecting) :
    Step inspecting w [.packageRegistered name initializer]
      { w with registry := w.registry.register name initializer }
  | registerSymbol (w : World) (package name : String) (value : Value) :
    Step inspecting w [.symbolRegistered package name value]
      { w with registry := w.registry.registerSymbol package name value }

/-- Steps one after another, and the events that tell them, the latest first. -/
inductive Steps (inspecting : Prop) : World → List Event → World → Prop
  | refl (w : World) : Steps inspecting w [] w
  | tail {w w' w'' : World} {told more : List Event} (before : Steps inspecting w told w')
      (step : Step inspecting w' more w'') : Steps inspecting w (more ++ told) w''

theorem Steps.single (step : Step inspecting w told w') : Steps inspecting w told w' := by
  have steps := (Steps.refl w).tail step
  rwa [List.append_nil] at steps

theorem Steps.trans (first : Steps inspecting w told w') (second : Steps inspecting w' more w'') :
    Steps inspecting w (more ++ told) w'' := by
  induction second with
  | refl => exact first
  | tail before step ih =>
    rw [List.append_assoc]
    exact ih.tail step

end World

end ScriptCore
