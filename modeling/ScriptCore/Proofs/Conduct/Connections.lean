import Mathlib.Logic.Relation
import ScriptCore.Proofs.Collections.Atomicity
import ScriptCore.Proofs.Collections.Buses
import ScriptCore.Proofs.Conduct.Emission

/-!
What a connection by name stays bound to.

Connecting a slot that is given by its name looks the name up once and makes a new function that
calls what was found on the receiver. A function is never changed again, so whatever a run does to
the fields and the class of the receiver, an emission that reaches this function calls what the name
stood for when it was connected. And since the function is new, taking any other function off leaves
the connection, also the method itself and what other connections of the same method registered.
-/

namespace ScriptCore

/-! ### Later machines -/

/-- What a run does next at a machine. -/
inductive Pace : Machine → Machine → Prop
  | own {inspecting : Prop} {m : Machine} {w : World} {told : List Event}
      (step : World.Step inspecting m.world told w) : Pace m (m.inWorld w told)
  | enter {m : Machine} {f : Ref .function} {calls : CallStack}
      (room : m.calls.push (m.heap.functionName f) = .ok calls) : Pace m (m.entering f calls)
  | refuse (m : Machine) (f : Ref .function) : Pace m (m.refusing f)
  | leave (m : Machine) (f : Ref .function) : Pace m (Invocation.leave f m)
  | beginDispatch (m : Machine) : Pace m m.dispatchBegun
  | take (m : Machine) (s : OsSignal) : Pace m (m.taking s)
  | endDispatch (m : Machine) : Pace m m.dispatchOver
  | start {m : Machine} {name : String} {initializer : Initializer} {table : Table}
      {registry : Registry}
      (asked : m.registry.request name = (.start initializer table, registry)) :
    Pace m (m.starting name initializer registry)
  | finish (m : Machine) (name : String) (outcome : Except Fault Table) :
    Pace m (m.finishing name outcome)

/-- A run that is at the first machine can come to the second one. -/
abbrev Later : Machine → Machine → Prop := Relation.ReflTransGen Pace

theorem Pace.grows {m n : Machine} (pace : Pace m n) : m.heap.Grows True n.heap := by
  cases pace with
  | own step =>
    cases step with
    | heap grows => exact grows.mono fun _ => trivial
    | _ => exact .refl m.heap
  | finish _ name outcome => cases outcome <;> exact .refl m.heap
  | _ => exact .refl m.heap

theorem Later.grows {m n : Machine} (later : Later m n) : m.heap.Grows True n.heap := by
  induction later with
  | refl => exact .refl m.heap
  | tail _ pace ih => exact ih.trans pace.grows

/-- The global scope is the same one all along. -/
theorem Later.globals {m n : Machine} (later : Later m n) : n.globals = m.globals := by
  induction later with
  | refl => rfl
  | tail _ pace ih =>
    rw [← ih]
    cases pace with
    | finish _ name outcome => cases outcome <;> rfl
    | _ => rfl

/-- A later machine, with which a dispatch is under way if one is at first. -/
structure Reaches (m n : Machine) : Prop where
  later : Later m n
  dispatching : n.dispatching = m.dispatching

theorem Called.later {f : Ref .function} {m n : Machine} (called : Called Reaches f m n) :
    Later m n := by
  cases called with
  | refused => exact .single (.refuse m f)
  | made room inside => exact .head (.enter room) (inside.later.tail (.leave _ f))

theorem Called.dispatching_eq {f : Ref .function} {m n : Machine} (called : Called Reaches f m n) :
    n.dispatching = m.dispatching := by
  cases called with
  | refused => rfl
  | made room inside => exact inside.dispatching

theorem Turns.later {signals : List OsSignal} {m n : Machine} (turns : Turns Reaches signals m n) :
    Later m n := by
  induction turns with
  | stopped => exact .refl
  | idle _ _ ih => exact ih
  | dropped _ _ _ ih => exact .head (.take _ _) ih
  | handled _ _ call _ ih => exact .head (.take _ _) (call.later.trans ih)

instance : Abiding Reaches where
  refl _ := ⟨.refl, rfl⟩
  trans first second := ⟨first.later.trans second.later, second.dispatching.trans first.dispatching⟩
  step own := ⟨.single (.own own), rfl⟩
  dispatching := Reaches.dispatching
  call called := ⟨called.later, called.dispatching_eq⟩
  dispatch outside turns :=
    ⟨.head (.beginDispatch _) (turns.later.tail (.endDispatch _)), outside.symm⟩
  initialization outcome asked inside := by
    refine ⟨.head (.start asked) (inside.later.tail (.finish _ _ outcome)), ?_⟩
    cases outcome <;> exact inside.dispatching

/-- A program comes to a later machine. -/
theorem Interpreter.later_runExpression (m : Machine) (e : Expr)
    (finished : (runExpression m e).1 ≠ .error .exhausted) : Later m (runExpression m e).2 :=
  (related_runExpression (R := Reaches) m e finished).later

/-- The listeners of an emission are called at later machines. -/
theorem Emission.later {re : Reentry} [re.Leads Reaches] {args : List Value}
    {listeners : List (Ref .function)} {m m' : Machine} {calls : List ListenerCall}
    {outcome : Except Failure Unit} (emission : Emission re args listeners m calls outcome m') :
    ∀ call ∈ calls, Later m call.before := by
  induction emission with
  | finished => exact List.forall_mem_nil _
  | failed => exact List.forall_mem_singleton.2 .refl
  | @next f rest m m' m'' v calls outcome made others ih =>
    have reached := (re.leads_invoke (R := Reaches) f args none).related m
    rw [made] at reached
    exact List.forall_mem_cons.2 ⟨.refl, fun call member =>
      (reached nofun).later.trans (ih call member)⟩

/-! ### Bound functions -/

/-- What a call comes to is told by what its work comes to once it is entered. -/
theorem Invocation.on_call_congr {re : Reentry} {callee : Ref .function} {work other : Action Value}
    {m : Machine}
    (same : ∀ polled calls, (poll re).on m = (.ok (), polled) →
      work.on (polled.entering callee calls) = other.on (polled.entering callee calls)) :
    (call re callee work).on m = (call re callee other).on m := by
  match safe : (poll re).on m with
  | (.error failure, after) =>
    rw [on_call_of_poll_failed safe, on_call_of_poll_failed safe]
  | (.ok (), polled) =>
    rw [on_call_of_polled safe, on_call_of_polled safe]
    cases place : polled.calls.push (polled.heap.functionName callee) with
    | error cause => rw [on_admitted_of_full place, on_admitted_of_full place]
    | ok calls =>
      have here := same polled calls safe
      rw [on_admitted_of_room place, on_admitted_of_room place, on_traced_congr here, here]

namespace Interpreter

variable {m : Machine} {f method : Ref .function} {name : String} {receiver : Value}

/-- A bound function that is called without a receiver calls its method with its arguments and with
the receiver that it is bound to. -/
theorem invoke_of_bound
    (bound : m.heap.functions.get? f = some (.native name (.bound method receiver)))
    (steps : Nat) (holds : List Hold) (args : List Value) :
    let re := inside steps holds f args none
    (invoke (steps + 1) holds f args none).on m =
      (Invocation.call re f (re.invoke method args (some receiver))).on m := by
  have works : ∀ polled calls,
      (Invocation.poll (inside steps holds f args none)).on m = (.ok (), polled) →
      (work steps holds f args none).on (polled.entering f calls) =
        ((inside steps holds f args none).invoke method args (some receiver)).on
          (polled.entering f calls) := by
    intro polled calls safe
    have reached :=
      (Invocation.leads_poll (R := Reaches) (inside steps holds f args none)).related m
    rw [safe] at reached
    have kept := (reached nofun).later.grows.functions f _ bound
    have found : (polled.entering f calls).heap.callable f =
        .native name (.bound method receiver) := by
      rw [Machine.entering, Heap.callable, kept, Option.getD_some]
    rw [work, on_perform, found]
    rfl
  exact Invocation.on_call_congr works

end Interpreter

/-! ### What a name stands for -/

/-- What a name stands for on an instance: the function in a field of its own, and where no field
of that name holds a function, the method of its class. -/
inductive Heap.Names (h : Heap) (r : Ref .inst) (name : String) : Ref .function → Prop
  | field {f : Ref .function} (own : (h.inst r).fields.get? name = some (.function f)) :
    h.Names r name f
  | method {f : Ref .function} (bare : ∀ g, (h.inst r).fields.get? name ≠ some (.function g))
      (found : h.method? (h.inst r).cls name = some f) : h.Names r name f

theorem Heap.names_of_resolve {h : Heap} {r : Ref .inst} {name : String} {f : Ref .function}
    (resolved : h.resolve (.inst r) name = .ok f) : h.Names r name f := by
  simp only [resolve] at resolved
  split at resolved
  · next own =>
    cases resolved
    exact .field own
  · next bare =>
    split at resolved
    · next found =>
      cases resolved
      exact .method bare found
    · cases resolved

/-! ### Connecting -/

/-- The machine with a new function that calls a method on a receiver, as it is made for a slot that
is given by name. -/
def Machine.binding (m : Machine) (name : String) (method : Ref .function) (receiver : Value) :
    Machine :=
  { m with heap := (m.heap.newFunction
      (.native (name ++ " (connected)") (.bound method receiver))).2 }

theorem Machine.get?_binding (m : Machine) (name : String) (method : Ref .function)
    (receiver : Value) :
    (m.binding name method receiver).heap.functions.get? m.heap.nextFunction =
      some (.native (name ++ " (connected)") (.bound method receiver)) :=
  (Cells.get?_alloc _ _ _).trans (if_pos rfl)

/-- A bus stays one. -/
theorem Heap.Grows.bus {inspecting : Prop} {h h' : Heap} (grows : h.Grows inspecting h')
    {r : Ref .inst} {registrations : List (Registration (Ref .function))}
    (bus : h.OwnsBus r registrations) : ∃ registrations', h'.OwnsBus r registrations' := by
  obtain ⟨table, owned, -⟩ := bus
  obtain ⟨now, owns, kind⟩ := grows.owns owned
  cases now with
  | listeners table' => exact owns.bus
  | _ => cases kind

namespace Connection

open Registration Interpreter

section Connecting

variable {m m' : Machine} {v : Value} {args : List Value} {r : Ref .inst}
  {table : ListenerTable (Ref .function)} {receiver : Value}

/-- The receiver of a slot that there is is a bus. -/
theorem receiver_of_listenerFor {h : Heap} {slot : Value} {f : Ref .function}
    (told : listenerFor h receiver slot = .ok f) :
    ∃ r, receiver = .inst r ∧ busArgument h "receiver" receiver = .ok r := by
  unfold listenerFor at told
  cases accepted : busArgument h "receiver" receiver with
  | error cause =>
    rw [accepted] at told
    cases slot <;> cases told
  | ok r => exact ⟨r, (busArgument_eq_ok accepted).1, rfl⟩

/-- A slot that there is is a function or a name. -/
theorem slot_of_listenerFor {h : Heap} {slot : Value} {f : Ref .function}
    (told : listenerFor h receiver slot = .ok f) :
    slot = .function f ∨ ∃ name, slot = .text name := by
  obtain ⟨r, -, accepted⟩ := receiver_of_listenerFor told
  simp only [listenerFor, accepted] at told
  cases slot with
  | function g => exact .inl (congrArg Value.function (Except.ok.inj told))
  | text name => exact .inr ⟨name, rfl⟩
  | _ => cases told

/-- Connecting succeeds only on two buses, with a text for the signal and a slot that there is. -/
theorem connect_eq_ok (connected : (connect args).on m = (.ok v, m')) :
    ∃ sender signal receiver slot table f,
      args = [.inst sender, .text signal, .inst receiver, slot] ∧
        m.heap.Owns sender (.listeners table) ∧
          listenerFor m.heap (.inst receiver) slot = .ok f := by
  have whole := connected
  rw [connect] at whole
  obtain ⟨_, _, checked, finding⟩ := Run.on_bind_eq_ok.1 whole
  obtain ⟨counted, rfl⟩ := Action.on_check_eq_ok.1 checked
  obtain ⟨sender, _, found, reading⟩ := Run.on_bind_eq_ok.1 finding
  obtain ⟨accepted, rfl⟩ := Action.on_check_eq_ok.1 found
  obtain ⟨signal, _, read, -⟩ := Run.on_bind_eq_ok.1 reading
  have isText := (Action.on_check_eq_ok.1 read).1
  obtain ⟨a, b, receiver, slot, rfl⟩ : ∃ a b c d, args = [a, b, c, d] := by
    rcases args with _ | ⟨a, _ | ⟨b, _ | ⟨c, _ | ⟨d, _ | ⟨e, rest⟩⟩⟩⟩⟩ <;>
      simp [Arguments.exactly] at counted ⊢
  obtain ⟨isSender, table, owns⟩ := busArgument_eq_ok accepted
  obtain rfl : a = .inst sender := isSender
  obtain rfl : b = .text signal := by cases b <;> simp_all [Arguments.text]
  cases told : listenerFor m.heap receiver slot with
  | error cause =>
    rw [on_connect_of_error owns told signal] at connected
    cases connected
  | ok f =>
    obtain ⟨r, rfl, -⟩ := receiver_of_listenerFor told
    exact ⟨sender, signal, r, slot, table, f, rfl, owns, told⟩

variable (owns : m.heap.Owns r (.listeners table))

include owns

/-- A function is registered as it is. -/
theorem on_connect_of_function {f : Ref .function}
    (told : listenerFor m.heap receiver (.function f) = .ok f) (signal : String) :
    (connect [.inst r, .text signal, receiver, .function f]).on m =
      (.ok .null, m.changeStore .listeners r fun table => table.add signal f) := by
  obtain ⟨s, -, accepted⟩ := receiver_of_listenerFor told
  rw [on_connect owns]
  simp [slotListener, accepted, Run.on_discard, Action.on_useStore ListenerTable.lawful owns]

/-- For a name a new function is registered, which is bound to what the name stands for. -/
theorem on_connect_of_name {name : String} {f : Ref .function}
    (told : listenerFor m.heap receiver (.text name) = .ok f) (signal : String) :
    ∃ method, m.heap.resolve receiver name = .ok method ∧ f = m.heap.nextFunction ∧
      (connect [.inst r, .text signal, receiver, .text name]).on m =
        (.ok .null, (m.binding name method receiver).changeStore .listeners r
          fun table => table.add signal f) := by
  obtain ⟨s, -, accepted⟩ := receiver_of_listenerFor told
  simp only [listenerFor, accepted] at told
  cases resolved : m.heap.resolve receiver name with
  | error cause =>
    rw [resolved] at told
    cases told
  | ok method =>
    rw [resolved] at told
    obtain rfl : m.heap.nextFunction = f := Except.ok.inj told
    have owns' : (m.binding name method receiver).heap.Owns r (.listeners table) := owns
    have made : (slotListener receiver (.text name)).on m =
        (.ok m.heap.nextFunction, m.binding name method receiver) := by
      rw [slotListener, Run.on_bind, Action.on_viewHeap, resolved]
      rfl
    have checked : (discard (Action.viewHeap fun h => busArgument h "receiver" receiver) :
        Action PUnit).on m = (.ok ⟨⟩, m) := by simp [Run.on_discard, accepted]
    refine ⟨method, rfl, rfl, ?_⟩
    rw [on_connect owns, bind_assoc, Run.on_bind_of_ok checked, Run.on_bind_of_ok made]
    exact Action.on_useStore ListenerTable.lawful owns' _ _ _

end Connecting

/-! ### Connections by name -/

/-- The sender is a bus, and the function among its listeners stands for a method with its
receiver: an emission that reaches it calls the method on the receiver, taking another function off
leaves it, and connecting any other slot by name registers another function. -/
structure Stands (sender : Ref .inst) (signal : String) (receiver : Ref .inst)
    (method f : Ref .function) (n : Machine) : Prop where
  bus : ∃ registrations, n.heap.OwnsBus sender registrations
  emits : ∀ registrations, n.heap.OwnsBus sender registrations → ∀ steps holds args,
    ∃ calls outcome n',
      (BusMethod.emit.call (nested (steps + 1) holds) (some (.inst sender))
          (.text signal :: args)).on n = (outcome.map fun _ => .null, n') ∧
        InTurn (listenersOf registrations signal) calls outcome ∧
        ∀ call ∈ calls, call.listener = f →
          let re := inside steps
            (.values ((listenersOf registrations signal).map .function) :: holds) f args none
          (call.answer, call.after) =
            (Invocation.call re f (re.invoke method args (some (.inst receiver)))).on call.before
  off : ∀ registrations, n.heap.OwnsBus sender registrations → ∀ re other g, g ≠ f →
    (signal, f) ∈ registrations →
      ∃ n', (BusMethod.off.call re (some (.inst sender)) [.text other, .function g]).on n =
          (.ok (.ofNat (registrations.filter (goesWith other (some g))).length), n') ∧
        n'.heap.OwnsBus sender (without registrations other (some g)) ∧
        (signal, f) ∈ without registrations other (some g)
  connect : ∀ registrations, n.heap.OwnsBus sender registrations →
    ∀ other signal' receiver' name v n',
      (connect [.inst other, .text signal', receiver', .text name]).on n = (.ok v, n') →
        ∃ f', f' ≠ f ∧ (∃ others, n'.heap.OwnsBus other (others ++ [(signal', f')])) ∧
          n'.heap.OwnsBus sender
            (registrations ++ if other = sender then [(signal', f')] else [])

/-- A registration with another listener is left. -/
theorem mem_without {registrations : List (Registration (Ref .function))} {signal other : String}
    {f g : Ref .function} (apart : g ≠ f) (registered : (signal, f) ∈ registrations) :
    (signal, f) ∈ without registrations other (some g) := by
  refine List.mem_filter.2 ⟨registered, ?_⟩
  simp [goesWith, Ne.symm apart]

section Stands

variable {sender receiver : Ref .inst} {signal label : String} {method f : Ref .function}
  {n : Machine} {registrations : List (Registration (Ref .function))}
  (bound : n.heap.functions.get? f = some (.native label (.bound method (.inst receiver))))
  (bus : n.heap.OwnsBus sender registrations)

include bound bus

theorem emits_of_bound (steps : Nat) (holds : List Hold) (args : List Value) :
    ∃ calls outcome n',
      (BusMethod.emit.call (nested (steps + 1) holds) (some (.inst sender))
          (.text signal :: args)).on n = (outcome.map fun _ => .null, n') ∧
        InTurn (listenersOf registrations signal) calls outcome ∧
        ∀ call ∈ calls, call.listener = f →
          let re := inside steps
            (.values ((listenersOf registrations signal).map .function) :: holds) f args none
          (call.answer, call.after) =
            (Invocation.call re f (re.invoke method args (some (.inst receiver)))).on
              call.before := by
  obtain ⟨-, -, emits⟩ := emit_calls_registered (nested (steps + 1) holds) bus
  obtain ⟨calls, outcome, n', done, emission, inTurn, -⟩ := emits signal args
  refine ⟨calls, outcome, n', done, inTurn, fun call member reached => ?_⟩
  have still := (emission.later call member).grows.functions f _ bound
  have made := emission.made call member
  rw [reached] at made
  exact made.symm.trans (invoke_of_bound still steps _ args)

/-- Connecting by name makes a new function, and leaves every other bus. -/
theorem connects_of_bound {other : Ref .inst} {signal' name : String} {receiver' : Value}
    {v : Value} {n' : Machine}
    (connected : (connect [.inst other, .text signal', receiver', .text name]).on n = (.ok v, n')) :
    ∃ f', f' ≠ f ∧ (∃ others, n'.heap.OwnsBus other (others ++ [(signal', f')])) ∧
      n'.heap.OwnsBus sender (registrations ++ if other = sender then [(signal', f')] else []) := by
  obtain ⟨_, _, r, _, table, f', same, owns, told⟩ := connect_eq_ok connected
  cases same
  obtain ⟨method', -, rfl, done⟩ := on_connect_of_name owns told signal'
  cases done.symm.trans connected
  have apart : n.heap.nextFunction ≠ f := fun here =>
    Cells.ne_size_of_get? bound (congrArg Ref.index here).symm
  have owns' : (n.binding name method' (.inst r)).heap.Owns other (.listeners table) := owns
  have added := Heap.owns_changeStore ListenerTable.lawful owns' fun table =>
    table.add signal' n.heap.nextFunction
  refine ⟨_, apart, ⟨_, _, added, table.standsFor_registered.add signal' _⟩, ?_⟩
  obtain ⟨table', held, stands⟩ := bus
  by_cases here : other = sender
  · subst here
    cases (show some _ = some _ from owns.symm.trans held)
    rw [if_pos rfl]
    exact ⟨_, added, stands.add signal' _⟩
  · rw [if_neg here, List.append_nil]
    have elsewhere : (n.binding name method' (.inst r)).heap.Owns sender (.listeners table') := held
    have frame := Heap.Frame.changeStore (n.binding name method' (.inst r)).heap .listeners other
      fun table => table.add signal' n.heap.nextFunction
    exact ⟨table', frame.owner_eq elsewhere fun same => here (Option.some.inj same), stands⟩

end Stands

/-- A connection stands as long as there are its function and its bus. -/
theorem stands_of_bound {sender receiver : Ref .inst} {signal label : String}
    {method f : Ref .function} {n : Machine}
    (bound : n.heap.functions.get? f = some (.native label (.bound method (.inst receiver))))
    (bus : ∃ registrations, n.heap.OwnsBus sender registrations) :
    Stands sender signal receiver method f n where
  bus := bus
  emits _ := emits_of_bound bound
  off registrations owns re other g apart registered := by
    obtain ⟨n', done, left⟩ := BusMethod.ownsBus_off re owns other (some g)
    exact ⟨n', done, left, mem_without apart registered⟩
  connect _ owns _ _ _ _ _ _ := connects_of_bound bound owns

/-- Taking a function off leaves no registration of it for the signal. -/
theorem not_mem_without (registrations : List (Registration (Ref .function))) (signal : String)
    (f : Ref .function) : (signal, f) ∉ without registrations signal (some f) := by
  intro member
  have kept := (List.mem_filter.1 member).2
  simp [goesWith] at kept

/-- As long as the sender is a bus, a function can be taken off. -/
theorem off_of_later {m n : Machine} {sender : Ref .inst}
    {registrations : List (Registration (Ref .function))}
    (bus : m.heap.OwnsBus sender registrations) (later : Later m n) (signal : String)
    (f : Ref .function) :
    ∃ registrations', n.heap.OwnsBus sender registrations' ∧
      ∀ re, ∃ n' removed,
        (BusMethod.off.call re (some (.inst sender)) [.text signal, .function f]).on n =
            (.ok (.ofNat removed), n') ∧
          n'.heap.OwnsBus sender (without registrations' signal (some f)) ∧
          (signal, f) ∉ without registrations' signal (some f) := by
  obtain ⟨registrations', owns⟩ := later.grows.bus bus
  refine ⟨registrations', owns, fun re => ?_⟩
  obtain ⟨n', done, left⟩ := BusMethod.ownsBus_off re owns signal (some f)
  exact ⟨n', _, done, left, not_mem_without _ _ _⟩

/-- Connecting fails without changing anything, or it registers a listener behind all others of the
sender. A function as the slot is that listener itself, and as long as the sender is a bus, taking
the function off leaves no registration of it for the signal. For a name the listener is a new
function, which no function that there was is; and at every later machine, whatever became of the
fields and the class of the receiver, it stands for what the name stood for when it was connected,
with the receiver. -/
theorem connect_binds (m : Machine) (args : List Value) :
    (∀ failure m', (connect args).on m = (.error failure, m') → m' = m) ∧
    ∀ v m', (connect args).on m = (.ok v, m') →
      ∃ sender signal receiver slot f registrations,
        args = [.inst sender, .text signal, .inst receiver, slot] ∧
        m.heap.OwnsBus sender registrations ∧
        m'.heap.OwnsBus sender (registrations ++ [(signal, f)]) ∧
        ((slot = .function f ∧
          ∀ n, Later m' n → ∃ registrations', n.heap.OwnsBus sender registrations' ∧
            ∀ re, ∃ n' removed,
              (BusMethod.off.call re (some (.inst sender)) [.text signal, .function f]).on n =
                  (.ok (.ofNat removed), n') ∧
                n'.heap.OwnsBus sender (without registrations' signal (some f)) ∧
                (signal, f) ∉ without registrations' signal (some f)) ∨
        ∃ name method, slot = .text name ∧ m.heap.Names receiver name method ∧
          (∀ g callable, m.heap.functions.get? g = some callable → g ≠ f) ∧
          ∀ n, Later m' n → Stands sender signal receiver method f n) := by
  refine ⟨fun failure m' failed => ?_, fun v m' connected => ?_⟩
  · have atomic := atomicAt_connect args m
    rw [Action.AtomicAt, failed] at atomic
    exact atomic
  · obtain ⟨sender, signal, receiver, slot, table, f, rfl, owns, told⟩ := connect_eq_ok connected
    obtain ⟨registrations, bus⟩ := owns.bus
    obtain ⟨table, owns, stands⟩ := bus
    refine ⟨sender, signal, receiver, slot, f, registrations, rfl, ⟨table, owns, stands⟩, ?_⟩
    rcases slot_of_listenerFor told with rfl | ⟨name, rfl⟩
    · cases (on_connect_of_function owns told signal).symm.trans connected
      have registered : (m.changeStore .listeners sender
          fun table => table.add signal f).heap.OwnsBus sender (registrations ++ [(signal, f)]) :=
        ⟨_, Heap.owns_changeStore ListenerTable.lawful owns _, stands.add signal f⟩
      exact ⟨registered, .inl ⟨rfl, fun n later => off_of_later registered later signal f⟩⟩
    · obtain ⟨method, resolved, rfl, done⟩ := on_connect_of_name owns told signal
      cases done.symm.trans connected
      have owns' : (m.binding name method (.inst receiver)).heap.Owns sender (.listeners table) :=
        owns
      have registered : ((m.binding name method (.inst receiver)).changeStore .listeners sender
          fun table => table.add signal m.heap.nextFunction).heap.OwnsBus sender
            (registrations ++ [(signal, m.heap.nextFunction)]) :=
        ⟨_, Heap.owns_changeStore ListenerTable.lawful owns' _, stands.add signal _⟩
      refine ⟨registered, .inr ⟨name, method, rfl, Heap.names_of_resolve resolved, ?_, ?_⟩⟩
      · rintro g callable found rfl
        exact Cells.ne_size_of_get? found rfl
      · intro n later
        have bound := later.grows.functions _ _ (m.get?_binding name method (.inst receiver))
        exact stands_of_bound bound (later.grows.bus registered)

/-- Defining a method of a class comes to a later machine. -/
theorem later_setMethod (m : Machine) (cls : Ref .cls) (name : String) (f : Ref .function) :
    Later m { m with heap := m.heap.setMethod cls name f } := by
  have grows : m.heap.Grows True (m.heap.setMethod cls name f) :=
    .setMethod m.heap cls name f
  have step : World.Step True m.world [] { m.world with heap := m.heap.setMethod cls name f } :=
    .heap grows
  exact .single (.own step)

/-- A machine with two buses of a class with a method, and with another function. -/
def widgets : Machine := .fresh
  { functions := ⟨#[.native "original" .inert, .native "replacement" .inert]⟩
    classes := ⟨#[{ name := "Widget", native := true, methods := .ofList [("onGo", ⟨0⟩)] }]⟩
    instances := ⟨#[{ cls := ⟨0⟩, resource := some (.listeners .empty) },
      { cls := ⟨0⟩, resource := some (.listeners .empty) }]⟩ }

/-- The second bus is connected to the first one by the name of the method, and then the class gets
the other function as its method of that name. -/
theorem connect_binds_widgets :
    ∃ m' f registrations,
      (connect [.inst ⟨0⟩, .text "go", .inst ⟨1⟩, .text "onGo"]).on widgets = (.ok .null, m') ∧
        m'.heap.OwnsBus ⟨0⟩ (registrations ++ [("go", f)]) ∧ f ≠ ⟨0⟩ ∧
        (m'.heap.setMethod ⟨0⟩ "onGo" ⟨1⟩).resolve (.inst ⟨1⟩) "onGo" = .ok ⟨1⟩ ∧
        Stands ⟨0⟩ "go" ⟨1⟩ ⟨0⟩ f { m' with heap := m'.heap.setMethod ⟨0⟩ "onGo" ⟨1⟩ } := by
  have connected : (connect [.inst ⟨0⟩, .text "go", .inst ⟨1⟩, .text "onGo"]).on widgets =
      (.ok .null, _) := rfl
  obtain ⟨-, succeeds⟩ := connect_binds widgets [.inst ⟨0⟩, .text "go", .inst ⟨1⟩, .text "onGo"]
  obtain ⟨sender, signal, receiver, slot, f, registrations, same, -, registered, called | named⟩ :=
    succeeds _ _ connected
  · cases same
    cases called.1
  · cases same
    obtain ⟨name, method, same, names, new, stands⟩ := named
    cases same
    obtain rfl : method = ⟨0⟩ := by
      cases names with
      | field own => cases own
      | method bare found => cases found; rfl
    refine ⟨_, f, registrations, connected, registered, (new ⟨0⟩ _ rfl).symm, rfl, ?_⟩
    exact stands _ (later_setMethod _ _ _ _)

end Connection

end ScriptCore
