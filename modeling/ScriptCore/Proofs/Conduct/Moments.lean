import ScriptCore.Proofs.Conduct.History
import ScriptCore.Proofs.Conduct.Interpreter

/-!
The moments of a run.

A moment is a machine that the steps of the interpreter lead to from a blank one. At each of them
the calls, the dispatch and the registry are what the journal says, and the journal is lawful; this
is shown step by step. Every run from a moment, of a call, a request or a program, ends in a moment
at which the same is under way.
-/

namespace ScriptCore

variable {c : Config} {m m' : Machine}

/-! ### Steps -/

/-- A machine that can be met while programs run under the settings. That a signal is taken and
that its handler is entered or refused is one step. -/
inductive Moment (c : Config) : Machine → Prop
  | blank : Moment c (Interpreter.blank c)
  | change {m m' : Machine} (moment : Moment c m) (step : Change m m') : Moment c m'
  | enter {m : Machine} {f : Ref .function} {calls : CallStack} (moment : Moment c m)
      (room : m.calls.push (m.heap.functionName f) = .ok calls) : Moment c (m.entering f calls)
  | refuse {m : Machine} {f : Ref .function} {cause : Cause} (moment : Moment c m)
      (full : m.calls.push (m.heap.functionName f) = .error cause) : Moment c (m.refusing f)
  | leave {m : Machine} {f : Ref .function} (moment : Moment c m)
      (inside : (underWay m.journal).head? = some (.call f)) : Moment c (Invocation.leave f m)
  | beginDispatch {m : Machine} (moment : Moment c m) (outside : m.dispatching = false) :
    Moment c m.dispatchBegun
  | drop {m : Machine} {s : OsSignal} (moment : Moment c m)
      (inside : (underWay m.journal).head? = some .dispatch)
      (pending : m.signals.isPending s = true) (unhandled : m.signals.handler? s = none) :
    Moment c (m.taking s)
  | deliver {m : Machine} {s : OsSignal} {f : Ref .function} {calls : CallStack}
      (moment : Moment c m) (inside : (underWay m.journal).head? = some .dispatch)
      (pending : m.signals.isPending s = true) (handler : m.signals.handler? s = some f)
      (room : m.calls.push (m.heap.functionName f) = .ok calls) :
    Moment c ((m.taking s).entering f calls)
  | decline {m : Machine} {s : OsSignal} {f : Ref .function} {cause : Cause}
      (moment : Moment c m) (inside : (underWay m.journal).head? = some .dispatch)
      (pending : m.signals.isPending s = true) (handler : m.signals.handler? s = some f)
      (full : m.calls.push (m.heap.functionName f) = .error cause) :
    Moment c ((m.taking s).refusing f)
  | endDispatch {m : Machine} (moment : Moment c m)
      (inside : (underWay m.journal).head? = some .dispatch) : Moment c m.dispatchOver
  | start {m : Machine} {name : String} {initializer : Initializer} {table : Table}
      {registry : Registry} (moment : Moment c m)
      (asked : m.registry.request name = (.start initializer table, registry)) :
    Moment c (m.starting name initializer registry)
  | finish {m : Machine} {name : String} {since : Nat} (moment : Moment c m)
      (inside : (underWay m.journal).head? = some (.initialization name since))
      (outcome : Except Fault Table) : Moment c (m.finishing name outcome)

/-! ### What each step keeps -/

namespace CallStack

variable {calls calls' : CallStack} {name : String} {cause : Cause}

theorem push_eq_ok_iff :
    calls.push name = .ok calls' ↔
      calls' = calls.cons name ∧ ∀ limit, calls.limit = some limit → calls.depth < limit := by
  rw [push]
  cases calls.limit with
  | none => simp [eq_comm]
  | some limit =>
    by_cases full : limit ≤ calls.depth
    · simp [full]
    · simp [full, eq_comm, Nat.lt_of_not_le full]

theorem push_eq_error_iff :
    calls.push name = .error cause ↔
      ∃ limit, calls.limit = some limit ∧ limit ≤ calls.depth ∧ cause = .depthExceeded limit := by
  rw [push]
  cases calls.limit with
  | none => simp
  | some limit =>
    by_cases full : limit ≤ calls.depth
    · simp [full, eq_comm]
    · simp [full]

theorem pop_cons (calls : CallStack) (name : String) : (calls.cons name).pop = calls := by
  cases calls
  simp [cons, pop]

end CallStack

/-- The machine is what its journal says, and the journal is lawful. -/
structure Orderly (c : Config) (m : Machine) : Prop where
  limit : m.calls.limit = c.maxCallDepth
  polling : m.polling = c.signalPolling
  depth : m.calls.depth = active m.journal
  dispatching : m.dispatching = true ↔ .dispatch ∈ underWay m.journal
  registry : m.registry = .after m.journal
  lawful : Lawful c m.journal

/-- The last event did not take a signal whose handler is still to be called. -/
def Settled (events : List Event) : Prop :=
  ∀ s f earlier, events ≠ .taken s (some f) :: earlier

theorem Settled.delivers {events : List Event} (settled : Settled events) (event : Event) :
    event.Delivers events := fun s f earlier last => absurd last (settled s f earlier)

theorem delivers_taken (f : Ref .function) (s : OsSignal) (events : List Event) {event : Event}
    (answers : ∃ depth, event = .entered f depth ∨ event = .refused f depth) :
    event.Delivers (.taken s (some f) :: events) := by
  rintro s g earlier last
  cases last
  exact answers

namespace Orderly

variable (orderly : Orderly c m) {f : Ref .function} {calls : CallStack} {cause : Cause}

include orderly

theorem not_dispatching (outside : m.dispatching = false) : .dispatch ∉ underWay m.journal :=
  fun inside => by simp [orderly.dispatching.2 inside] at outside

theorem room (room : m.calls.push (m.heap.functionName f) = .ok calls) :
    calls = m.calls.cons (m.heap.functionName f) ∧ c.maxCallDepth ≠ some (active m.journal) := by
  obtain ⟨rfl, below⟩ := CallStack.push_eq_ok_iff.1 room
  refine ⟨rfl, fun full => ?_⟩
  have := below _ (orderly.limit.trans full)
  rw [orderly.depth] at this
  exact Nat.lt_irrefl _ this

theorem full (full : m.calls.push (m.heap.functionName f) = .error cause) :
    c.maxCallDepth = some (active m.journal) ∧ cause = .depthExceeded (active m.journal) := by
  obtain ⟨limit, limited, reached, rfl⟩ := CallStack.push_eq_error_iff.1 full
  rw [orderly.limit] at limited
  rw [orderly.depth] at reached
  have same : limit = active m.journal :=
    Nat.le_antisymm reached (orderly.lawful.active_le limited)
  exact ⟨same ▸ limited, same ▸ rfl⟩

theorem enter (room : m.calls.push (m.heap.functionName f) = .ok calls)
    (delivers : (Event.entered f calls.depth).Delivers m.journal) :
    Orderly c (m.entering f calls) := by
  obtain ⟨rfl, below⟩ := orderly.room room
  have depth : m.calls.depth + 1 = active m.journal + 1 := congrArg _ orderly.depth
  have one : active (.entered f (m.calls.depth + 1) :: m.journal) = active m.journal + 1 :=
    List.countP_cons_of_pos rfl
  exact {
    limit := orderly.limit
    polling := orderly.polling
    depth := depth.trans one.symm
    dispatching := by simpa [Machine.entering, underWay] using orderly.dispatching
    registry := orderly.registry
    lawful := .cons orderly.lawful ⟨depth, below⟩ delivers }

theorem refuse (full : m.calls.push (m.heap.functionName f) = .error cause)
    (delivers : (Event.refused f m.calls.depth).Delivers m.journal) :
    Orderly c (m.refusing f) where
  limit := orderly.limit
  polling := orderly.polling
  depth := orderly.depth
  dispatching := orderly.dispatching
  registry := orderly.registry
  lawful := .cons orderly.lawful ⟨orderly.depth, (orderly.full full).1⟩ delivers

theorem take {s : OsSignal} (inside : (underWay m.journal).head? = some .dispatch)
    (delivers : (Event.taken s (m.signals.handler? s)).Delivers m.journal) :
    Orderly c (m.taking s) where
  limit := orderly.limit
  polling := orderly.polling
  depth := orderly.depth
  dispatching := orderly.dispatching
  registry := orderly.registry
  lawful := .cons orderly.lawful inside delivers

variable (settled : Settled m.journal)

include settled

theorem change (step : Change m m') : Orderly c m' := by
  obtain ⟨limit, polling, depth, dispatching, registry, lawful⟩ := orderly
  cases step with
  | heap | output | register | unregister =>
    exact ⟨limit, polling, depth, dispatching, registry, lawful⟩
  | raise s =>
    exact ⟨limit, polling, depth, dispatching, registry,
      .cons lawful trivial (settled.delivers _)⟩
  | registerPackage name initializer =>
    exact ⟨limit, polling, depth, dispatching, congrArg (·.register name initializer) registry,
      .cons lawful trivial (settled.delivers _)⟩
  | registerSymbol package name value =>
    exact ⟨limit, polling, depth, dispatching,
      congrArg (·.registerSymbol package name value) registry,
      .cons lawful trivial (settled.delivers _)⟩

theorem leave (inside : (underWay m.journal).head? = some (.call f)) :
    Orderly c (Invocation.leave f m) where
  limit := orderly.limit
  polling := orderly.polling
  depth := Nat.sub_eq_of_eq_add (orderly.depth.trans (active_left inside m.calls.depth))
  dispatching := by
    obtain ⟨outer, here⟩ := List.head?_eq_some_iff.1 inside
    rw [Invocation.leave, underWay, orderly.dispatching, here]
    simp
  registry := orderly.registry
  lawful := .cons orderly.lawful ⟨orderly.depth, inside⟩ (settled.delivers _)

theorem beginDispatch (outside : m.dispatching = false) : Orderly c m.dispatchBegun where
  limit := orderly.limit
  polling := orderly.polling
  depth := orderly.depth.trans (List.countP_cons_of_neg Bool.false_ne_true).symm
  dispatching := by simp [Machine.dispatchBegun, underWay]
  registry := orderly.registry
  lawful := .cons orderly.lawful (orderly.not_dispatching outside) (settled.delivers _)

theorem endDispatch (inside : (underWay m.journal).head? = some .dispatch) :
    Orderly c m.dispatchOver := by
  obtain ⟨outer, here⟩ := List.head?_eq_some_iff.1 inside
  have rest : underWay (.dispatchEnded :: m.journal) = outer := by
    rw [underWay, here, List.tail_cons]
  -- The dispatch that ends is the only one, so the mark may be cleared.
  have only : .dispatch ∉ outer := by
    have := orderly.lawful.count_dispatch_le
    rw [here, List.count_cons_self] at this
    exact List.count_eq_zero.1 (by omega)
  exact {
    limit := orderly.limit
    polling := orderly.polling
    depth := orderly.depth.trans (active_tail rfl inside).symm
    dispatching := by
      rw [Machine.dispatchOver, rest]
      simp [only]
    registry := orderly.registry
    lawful := .cons orderly.lawful inside (settled.delivers _) }

theorem start {name : String} {initializer : Initializer} {table : Table} {registry : Registry}
    (asked : m.registry.request name = (.start initializer table, registry)) :
    Orderly c (m.starting name initializer registry) where
  limit := orderly.limit
  polling := orderly.polling
  depth := orderly.depth.trans (List.countP_cons_of_neg Bool.false_ne_true).symm
  dispatching := by simpa [Machine.starting, underWay] using orderly.dispatching
  registry := by rw [Machine.starting, Registry.after, ← orderly.registry, asked]
  lawful := by
    refine .cons orderly.lawful ⟨table, ?_⟩ (settled.delivers _)
    rw [← orderly.registry, asked]

theorem finish {name : String} {since : Nat}
    (inside : (underWay m.journal).head? = some (.initialization name since))
    (outcome : Except Fault Table) : Orderly c (m.finishing name outcome) := by
  obtain ⟨outer, here⟩ := List.head?_eq_some_iff.1 inside
  have rest : underWay (.initializerEnded name outcome :: m.journal) = outer := by
    rw [underWay, here, List.tail_cons]
  have depth : m.calls.depth = active (.initializerEnded name outcome :: m.journal) :=
    orderly.depth.trans (active_tail rfl inside).symm
  have dispatching : m.dispatching = true ↔
      .dispatch ∈ underWay (.initializerEnded name outcome :: m.journal) := by
    rw [rest, orderly.dispatching, here]
    simp
  have lawful : Lawful c (.initializerEnded name outcome :: m.journal) :=
    .cons orderly.lawful ⟨since, inside⟩ (settled.delivers _)
  cases outcome with
  | ok table =>
    refine ⟨orderly.limit, orderly.polling, depth, dispatching, ?_, lawful⟩
    rw [Machine.finishing, Registry.after, orderly.registry]
  | error fault =>
    refine ⟨orderly.limit, orderly.polling, depth, dispatching, ?_, lawful⟩
    rw [Machine.finishing, Registry.after, orderly.registry]

end Orderly

namespace Moment

theorem settled (moment : Moment c m) : Settled m.journal := by
  induction moment with
  | blank => rintro _ _ _ ⟨⟩
  | change moment step ih => cases step <;> first | exact ih | rintro _ _ _ ⟨⟩
  | drop moment inside pending unhandled ih =>
    intro s f earlier last
    rw [Machine.taking, unhandled] at last
    cases last
  | finish moment inside outcome ih => cases outcome <;> rintro _ _ _ ⟨⟩
  | _ => rintro _ _ _ ⟨⟩

/-- At every moment of a run the machine is what the journal says, and the journal is lawful. -/
theorem orderly (moment : Moment c m) : Orderly c m := by
  induction moment with
  | blank => exact ⟨rfl, rfl, rfl, by simp [Interpreter.blank, underWay], rfl, .nil⟩
  | change moment step ih => exact ih.change moment.settled step
  | enter moment room ih => exact ih.enter room (moment.settled.delivers _)
  | refuse moment full ih => exact ih.refuse full (moment.settled.delivers _)
  | leave moment inside ih => exact ih.leave moment.settled inside
  | beginDispatch moment outside ih => exact ih.beginDispatch moment.settled outside
  | drop moment inside pending unhandled ih => exact ih.take inside (moment.settled.delivers _)
  | deliver moment inside pending handler room ih =>
    refine (ih.take inside (moment.settled.delivers _)).enter room ?_
    rw [Machine.taking, handler]
    exact delivers_taken _ _ _ ⟨_, .inl rfl⟩
  | decline moment inside pending handler full ih =>
    refine (ih.take inside (moment.settled.delivers _)).refuse full ?_
    rw [Machine.taking, handler]
    exact delivers_taken _ _ _ ⟨_, .inr rfl⟩
  | endDispatch moment inside ih => exact ih.endDispatch moment.settled inside
  | start moment asked ih => exact ih.start moment.settled asked
  | finish moment inside outcome ih => exact ih.finish moment.settled inside outcome

end Moment

/-! ### Runs -/

/-- The second machine comes later than the first, and the same calls, dispatch and initialisations
are under way in both. -/
structure Restores (m m' : Machine) : Prop where
  calls : m'.calls = m.calls
  dispatching : m'.dispatching = m.dispatching
  history : m.journal <:+ m'.journal
  underWay : underWay m'.journal = underWay m.journal

namespace Restores

theorem refl (m : Machine) : Restores m m := ⟨rfl, rfl, List.suffix_rfl, rfl⟩

theorem trans {m'' : Machine} (first : Restores m m') (second : Restores m' m'') :
    Restores m m'' where
  calls := second.calls.trans first.calls
  dispatching := second.dispatching.trans first.dispatching
  history := first.history.trans second.history
  underWay := second.underWay.trans first.underWay

theorem of_change (step : Change m m') : Restores m m' := by
  cases step with
  | heap | output | register | unregister => exact ⟨rfl, rfl, List.suffix_rfl, rfl⟩
  | raise | registerPackage | registerSymbol => exact ⟨rfl, rfl, List.suffix_cons _ _, rfl⟩

theorem taking (m : Machine) (s : OsSignal) : Restores m (m.taking s) :=
  ⟨rfl, rfl, List.suffix_cons _ _, rfl⟩

theorem leave {f : Ref .function} {calls : CallStack}
    (room : m.calls.push (m.heap.functionName f) = .ok calls)
    (inside : Restores (m.entering f calls) m') : Restores m (Invocation.leave f m') where
  calls := by
    obtain ⟨rfl, -⟩ := CallStack.push_eq_ok_iff.1 room
    rw [Invocation.leave, inside.calls]
    exact CallStack.pop_cons _ _
  dispatching := inside.dispatching
  history := ((List.suffix_cons _ _).trans inside.history).trans (List.suffix_cons _ _)
  underWay := congrArg List.tail inside.underWay

end Restores

/-- What is under way is restored, and a moment leads to a moment. -/
structure Balanced (c : Config) (m m' : Machine) : Prop extends Restores m m' where
  moment : Moment c m → Moment c m'

section Called

variable {f : Ref .function}

theorem Called.restores (called : Called (Balanced c) f m m') : Restores m m' := by
  cases called with
  | refused full => exact ⟨rfl, rfl, List.suffix_cons _ _, rfl⟩
  | made room inside => exact inside.toRestores.leave room

/-- A call that is refused or entered at a moment ends in a moment. -/
theorem Called.moment (called : Called (Balanced c) f m m')
    (refuse : ∀ cause, m.calls.push (m.heap.functionName f) = .error cause →
      Moment c (m.refusing f))
    (enter : ∀ calls, m.calls.push (m.heap.functionName f) = .ok calls →
      Moment c (m.entering f calls)) : Moment c m' := by
  cases called with
  | refused full => exact refuse _ full
  | made room inside =>
    refine .leave (inside.moment (enter _ room)) ?_
    rw [inside.underWay]
    rfl

end Called

/-- Turns within a dispatch. -/
theorem Turns.balanced {signals : List OsSignal} (turns : Turns (Balanced c) signals m m')
    (inside : (underWay m.journal).head? = some .dispatch) : Balanced c m m' := by
  induction turns with
  | stopped => exact ⟨.refl _, id⟩
  | idle idle others ih => exact ih inside
  | dropped pending unhandled others ih =>
    obtain ⟨restores, moment⟩ := ih inside
    exact ⟨(Restores.taking _ _).trans restores, fun here =>
      moment (.drop here inside pending unhandled)⟩
  | handled pending handler call others ih =>
    have here := (Restores.taking _ _).trans call.restores
    obtain ⟨restores, moment⟩ := ih (here.underWay ▸ inside)
    exact ⟨here.trans restores, fun before => moment (call.moment
      (fun _ full => .decline before inside pending handler full)
      (fun _ room => .deliver before inside pending handler room))⟩

instance : Steady (Balanced c) where
  refl m := ⟨.refl m, id⟩
  trans first second := ⟨first.toRestores.trans second.toRestores, second.moment ∘ first.moment⟩
  change step := ⟨.of_change step, fun moment => .change moment step⟩
  dispatching related := related.dispatching
  call called := ⟨called.restores, fun moment =>
    called.moment (fun _ full => .refuse moment full) (fun _ room => .enter moment room)⟩
  dispatch {m m'} outside turns := by
    have inside := turns.balanced rfl
    refine ⟨⟨inside.calls, outside.symm, ?_, congrArg List.tail inside.underWay⟩, fun moment => ?_⟩
    · exact ((List.suffix_cons _ _).trans inside.history).trans (List.suffix_cons _ _)
    · exact .endDispatch (inside.moment (.beginDispatch moment outside))
        (congrArg List.head? inside.underWay)
  initialization {name initializer table registry m m'} outcome asked inside := by
    have restores : Restores m (m'.finishing name outcome) := by
      have history := ((List.suffix_cons _ _).trans inside.history).trans
        (List.suffix_cons (.initializerEnded name outcome) _)
      have popped := congrArg List.tail inside.underWay
      cases outcome <;> exact ⟨inside.calls, inside.dispatching, history, popped⟩
    refine ⟨restores, fun moment => ?_⟩
    exact .finish (inside.moment (.start moment asked)) (congrArg List.head? inside.underWay) outcome

namespace Interpreter

/-- The machine of a new interpreter is a moment. -/
theorem moment_start (setup : Setup) (finished : (start setup).1 ≠ .error .exhausted) :
    Moment setup.config (start setup).2 :=
  (related_start (R := Balanced setup.config) setup finished).moment .blank

/-- A request for a package at a moment ends in a moment. -/
theorem moment_ensure (moment : Moment c m) {steps : Nat} {holds : List Hold} {name : String}
    (finished : ((ensure steps holds name).on m).1 ≠ .error .exhausted) :
    Moment c ((ensure steps holds name).on m).2 :=
  (((leads_nested (R := Balanced c) steps []).request holds name).related m finished).moment moment

/-- A program run at a moment ends in a moment. -/
theorem moment_runExpression (moment : Moment c m) (e : Expr)
    (finished : (runExpression m e).1 ≠ .error .exhausted) : Moment c (runExpression m e).2 :=
  (related_runExpression (R := Balanced c) m e finished).moment moment

end Interpreter

end ScriptCore
