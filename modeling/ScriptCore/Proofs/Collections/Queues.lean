import ScriptCore.Native.Queues
import ScriptCore.Proofs.Collections.Calls
import ScriptCore.Proofs.Collections.Urgency

/-!
PriorityQueue follows a list of rows in the order in which they were pushed.

Calls on a PriorityQueue alternate with interludes that leave the queue alone. The queue answers
like the list of rows: what is popped is the first row than which no other is sooner, whatever was
popped and cleared before. Priorities are numbers other than NaN.
-/

namespace ScriptCore

/-! ### Commands and requests -/

/-- A priority that has a place in the numeric order. -/
abbrev Priority := { p : Binary64 // p.isNaN = false }

/-- What is done to a PriorityQueue after its construction. -/
inductive QueueCommand (r : Ref .inst) where
  | push (value : Value) (priority : Priority)
  | pop
  | peek
  | size
  | isEmpty
  | clear
  | meanwhile (interlude : Interlude r)

/-- A call on a list of rows. -/
inductive QueueRequest where
  | push (value : Value) (priority : Priority)
  | pop
  | peek
  | size
  | isEmpty
  | clear
  | meanwhile

/-- The first item with a property is what taking it out takes out. -/
theorem perm_eraseP_find? {α : Type} (p : α → Bool) (items : List α) :
    (items.eraseP p ++ (items.find? p).toList).Perm items := by
  induction items with
  | nil => exact .refl _
  | cons item rest ih =>
    by_cases found : p item = true
    · rw [List.eraseP_cons_of_pos found, List.find?_cons_of_pos found]
      exact List.perm_append_singleton item rest
    · rw [List.eraseP_cons_of_neg found, List.find?_cons_of_neg found]
      exact ih.cons item

namespace QueueRequest

/-- Answers a request from a list of rows. Pushing gives back how many rows there are then. -/
def onRows (order : QueueOrder) (request : QueueRequest) (rows : List QueueRow) :
    Reply × List QueueRow :=
  match request with
  | push value priority => (.value (.ofNat (rows.length + 1)), rows ++ [(priority.1, value)])
  | pop => (.value (((order.urgent? rows).map Prod.snd).getD .null), order.withoutUrgent rows)
  | peek => (.value (((order.urgent? rows).map Prod.snd).getD .null), rows)
  | size => (.value (.ofNat rows.length), rows)
  | isEmpty => (.value (.boolean (decide (rows = []))), rows)
  | clear => (.value .null, [])
  | meanwhile => (.nothing, rows)

/-- The rows that come with a request. -/
def arriving : QueueRequest → List QueueRow
  | push value priority => [(priority.1, value)]
  | _ => []

/-- The rows that leave with a request. -/
def leaving (order : QueueOrder) (request : QueueRequest) (rows : List QueueRow) : List QueueRow :=
  match request with
  | pop => (order.urgent? rows).toList
  | clear => rows
  | _ => []

/-- A request leaves the rows that were there and those that came, but for those that left. -/
theorem perm_onRows (order : QueueOrder) (request : QueueRequest) (rows : List QueueRow) :
    ((request.onRows order rows).2 ++ request.leaving order rows).Perm
      (rows ++ request.arriving) := by
  cases request with
  | pop =>
    have none : arriving pop = [] := rfl
    rw [none, List.append_nil]
    exact perm_eraseP_find? (order.isUrgent rows) rows
  | push | clear | peek | size | isEmpty | meanwhile => simp [onRows, leaving, arriving]

end QueueRequest

namespace QueueCommand

variable {r : Ref .inst}

/-- The request that a command comes to, in any state. -/
def request (command : QueueCommand r) : QueueRequest :=
  match command with
  | push value priority => .push value priority
  | pop => .pop
  | peek => .peek
  | size => .size
  | isEmpty => .isEmpty
  | clear => .clear
  | meanwhile _ => .meanwhile

/-- How a command is carried out on the PriorityQueue. -/
def onMachine (command : QueueCommand r) (m : Machine) : Except Failure Reply × Machine :=
  match command with
  | push value priority =>
    Reading.asValue.answer (QueueMethod.push.call (some (.inst r)) [value, .number priority.1]) m
  | pop => Reading.asValue.answer (QueueMethod.pop.call (some (.inst r)) []) m
  | peek => Reading.asValue.answer (QueueMethod.peek.call (some (.inst r)) []) m
  | size => Reading.asValue.answer (QueueMethod.size.call (some (.inst r)) []) m
  | isEmpty => Reading.asValue.answer (QueueMethod.isEmpty.call (some (.inst r)) []) m
  | clear => Reading.asValue.answer (QueueMethod.clear.call (some (.inst r)) []) m
  | meanwhile interlude => (.ok .nothing, interlude.change m)

end QueueCommand

theorem PriorityStore.lawful (store : PriorityStore) :
    StoreType.priority.project (StoreType.priority.inject store) = some store := rfl

/-! ### The methods -/

namespace QueueMethod

variable {r : Ref .inst} {m : Machine} {store : PriorityStore}
  (owns : m.heap.Owns r (.priority store))

include owns

theorem on_push (value : Value) (priority : Binary64) :
    (QueueMethod.call .push (some (.inst r)) [value, .number priority]).on m =
      (.ok (.ofNat (store.size + 1)),
        m.changeStore .priority r fun store => store.push value priority) := by
  simp [call, checkCount, Arguments.exactly, Arguments.number,
    Native.on_useStore PriorityStore.lawful owns]
  rfl

theorem on_pop :
    (QueueMethod.call .pop (some (.inst r)) []).on m =
      (.ok (Native.orNull store.peek?), m.changeStore .priority r PriorityStore.pop) := by
  simp [call, checkCount, Arguments.exactly, Native.on_useStore PriorityStore.lawful owns]

theorem on_peek :
    (QueueMethod.call .peek (some (.inst r)) []).on m =
      (.ok (Native.orNull store.peek?), m) := by
  simp [call, checkCount, Arguments.exactly, Native.on_readStore PriorityStore.lawful owns]

theorem on_size :
    (QueueMethod.call .size (some (.inst r)) []).on m = (.ok (.ofNat store.size), m) := by
  simp [call, checkCount, Arguments.exactly, Native.on_readStore PriorityStore.lawful owns]

theorem on_isEmpty :
    (QueueMethod.call .isEmpty (some (.inst r)) []).on m = (.ok (.boolean store.isEmpty), m) := by
  simp [call, checkCount, Arguments.exactly, Native.on_readStore PriorityStore.lawful owns]

theorem on_clear :
    (QueueMethod.call .clear (some (.inst r)) []).on m =
      (.ok .null, m.changeStore .priority r PriorityStore.clear) := by
  simp [call, checkCount, Arguments.exactly, Native.changeStore,
    Native.on_useStore PriorityStore.lawful owns]

end QueueMethod

/-! ### One command -/

/-- The instance owns a store of the given order that stands for the rows. -/
def Heap.OwnsQueue (h : Heap) (r : Ref .inst) (order : QueueOrder) (rows : List QueueRow) : Prop :=
  ∃ store : PriorityStore, h.Owns r (.priority store) ∧ store.StandsFor order rows

/-- A PriorityQueue of the given order, and its rows. -/
def QueueCommand.collection (order : QueueOrder) (r : Ref .inst) : Collection where
  Command := QueueCommand r
  Request := QueueRequest
  Row := QueueRow
  construct arg := QueueMethod.construct.call (some (.inst r)) arg.toList
  onMachine := QueueCommand.onMachine
  initial _ arg := (QueueOrder.ofArgument QueueMethod.construct.label arg).map fun _ => []
  seen command _ := command.request
  onRows := QueueRequest.onRows order
  Owns h rows := h.OwnsQueue r order rows

namespace QueueCommand

theorem answersAsRows (order : QueueOrder) (r : Ref .inst) :
    (collection order r).AnswersAsRows := by
  intro command m (rows : List QueueRow) ⟨store, owns, stands⟩
  simp only [collection]
  cases command with
  | push value priority =>
    rw [onMachine, Reading.answer_of_ok _ (QueueMethod.on_push owns value priority.1),
      stands.size_eq]
    exact ⟨rfl, _, Heap.owns_changeStore PriorityStore.lawful owns _,
      stands.push value priority.2⟩
  | pop =>
    rw [onMachine, Reading.answer_of_ok _ (QueueMethod.on_pop owns), stands.leave.1]
    exact ⟨rfl, _, Heap.owns_changeStore PriorityStore.lawful owns _, stands.leave.2⟩
  | peek =>
    rw [onMachine, Reading.answer_of_ok _ (QueueMethod.on_peek owns), stands.leave.1]
    exact ⟨rfl, store, owns, stands⟩
  | size =>
    rw [onMachine, Reading.answer_of_ok _ (QueueMethod.on_size owns), stands.size_eq]
    exact ⟨rfl, store, owns, stands⟩
  | isEmpty =>
    have none : store.isEmpty = decide (rows = []) := by
      rw [PriorityStore.isEmpty, stands.size_eq]
      cases rows <;> rfl
    rw [onMachine, Reading.answer_of_ok _ (QueueMethod.on_isEmpty owns), none]
    exact ⟨rfl, store, owns, stands⟩
  | clear =>
    rw [onMachine, Reading.answer_of_ok _ (QueueMethod.on_clear owns)]
    exact ⟨rfl, _, Heap.owns_changeStore PriorityStore.lawful owns _, stands.clear⟩
  | meanwhile interlude => exact ⟨rfl, store, (interlude.keeps m).trans owns, stands⟩

end QueueCommand

/-! ### Construction -/

theorem QueueMethod.on_construct {r : Ref .inst} {m : Machine} (bare : m.heap.Bare r)
    (arg : Option Value) :
    (QueueMethod.construct.call (some (.inst r)) arg.toList).on m =
      match QueueOrder.ofArgument construct.label arg with
      | .error cause => (.error (.fault { cause }), m)
      | .ok order =>
        (.ok .null, { m with heap := m.heap.setResource r (.priority (.empty order)) }) := by
  have argument : arg.toList[0]? = arg := by cases arg <;> rfl
  have checked : construct.checkCount arg.toList.length = .ok () := by cases arg <;> rfl
  simp only [call, checked, argument, Run.on_bind, Action.on_check_ok]
  cases QueueOrder.ofArgument construct.label arg with
  | error cause => rfl
  | ok order => exact Native.on_attachToReceiver bare _ _

theorem QueueCommand.constructsAsRows {r : Ref .inst} {m : Machine} (bare : m.heap.Bare r)
    {arg : Option Value} {order : QueueOrder}
    (told : QueueOrder.ofArgument QueueMethod.construct.label arg = .ok order) :
    (collection order r).ConstructsAsRows arg m := by
  have constructed := QueueMethod.on_construct bare arg
  rw [told] at constructed
  simp only [Collection.ConstructsAsRows, collection, told]
  exact ⟨_, constructed, .empty order, Heap.owns_setResource bare _,
    PriorityStore.standsFor_empty order⟩

/-! ### Whole lives -/

/-- An instance that is constructed as a PriorityQueue answers every run of calls like the list of
rows in the order of pushing, from which the first of the soonest rows leaves; and over any run what
came is what is still there and what left, each row once. A constructor that is told no order
fails. -/
theorem queue_livesAsRows {r : Ref .inst} {m : Machine} (bare : m.heap.Bare r)
    (arg : Option Value) :
    (match QueueOrder.ofArgument QueueMethod.construct.label arg with
      | .error cause =>
        (QueueMethod.construct.call (some (.inst r)) arg.toList).on m =
          (.error (.fault { cause }), m)
      | .ok order => ∀ commands, (QueueCommand.collection order r).LivesAsRows arg commands m) ∧
    ∀ order requests,
      ((runSteps (QueueRequest.onRows order) requests []).2 ++
          (seenAlong (QueueRequest.onRows order) (QueueRequest.leaving order) requests
            []).flatten).Perm
        (requests.flatMap QueueRequest.arriving) := by
  refine ⟨?_, fun order requests => perm_runSteps (QueueRequest.perm_onRows order) requests []⟩
  cases told : QueueOrder.ofArgument QueueMethod.construct.label arg with
  | error cause =>
    have constructed := QueueMethod.on_construct bare arg
    rwa [told] at constructed
  | ok order =>
    intro commands
    exact Collection.livesAsRows (QueueCommand.answersAsRows order r)
      (QueueCommand.constructsAsRows bare told) commands

/-- A machine with one bare instance. -/
def bareMachine : Machine := .fresh { instances := ⟨#[{ cls := ⟨0⟩ }]⟩ }

/-- Pushes with both zeros and an infinity, popping and clearing in between, onto a queue of which
the greatest priority leaves first. -/
theorem queue_livesAsRows_tied :
    bareMachine.heap.Bare ⟨0⟩ ∧
      (QueueCommand.collection .max ⟨0⟩).LivesAsRows (some (.text "max"))
        [.push .null ⟨.infinity true, rfl⟩, .push (.boolean true) ⟨Binary64.zero.neg, rfl⟩,
          .push (.boolean false) ⟨.zero, rfl⟩, .pop, .peek, .pop, .clear, .pop] bareMachine := by
  have bare : bareMachine.heap.Bare ⟨0⟩ := rfl
  have lives := (queue_livesAsRows bare (some (.text "max"))).1
  exact ⟨bare, lives _⟩

end ScriptCore
