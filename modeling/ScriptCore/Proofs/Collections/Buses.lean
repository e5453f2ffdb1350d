import Mathlib.Data.List.Perm.Basic
import ScriptCore.Operations
import ScriptCore.Proofs.Collections.Calls
import ScriptCore.Proofs.Collections.Listeners
import ScriptCore.Proofs.Collections.Queues

/-!
EventBus follows a list of registrations.

Calls on a bus alternate with interludes that leave the bus alone. The bus answers like a listing of
the registrations that were not taken off, together with the signals that have any. Its signals
stand in the order in which they last went from no listener to one, so a signal that lost all its
listeners comes back behind the others. That order is no matter of the registrations that are left:
it is read off the history of the requests.
-/

namespace ScriptCore

open Registration

/-! ### Commands and requests -/

/-- The registrations of a bus that were not taken off, and the signals that have any. -/
structure Listing where
  registrations : List (Registration (Ref .function)) := []
  signals : List String := []

/-- What is done to an event bus after its construction. -/
inductive BusCommand (r : Ref .inst) where
  | receive (signal : String) (listener : Ref .function)
  /-- The bus is the sender. -/
  | connect (signal : String) (receiver slot : Value)
  /-- Without a second argument, with null, or with a function. -/
  | off (signal : String) (argument : Option (Option (Ref .function)))
  | listenerCount (signal : String)
  | signals
  /-- The size of the store, as an operation on native resources tells it. -/
  | size (operation : String)
  | meanwhile (interlude : Interlude r)

/-- A call on a listing. -/
inductive BusRequest where
  | register (signal : String) (listener : Ref .function)
  | refused (cause : Cause)
  | off (signal : String) (listener : Option (Ref .function))
  | listenerCount (signal : String)
  | signals
  | size
  | meanwhile

namespace Listing

/-- Puts a registration behind all others. A signal without listeners becomes the last one. -/
def register (listing : Listing) (signal : String) (listener : Ref .function) : Listing where
  registrations := listing.registrations ++ [(signal, listener)]
  signals := if signal ∈ listing.signals then listing.signals else listing.signals ++ [signal]

/-- Takes off the registrations of a listener for a signal, or all for the signal when no listener
is given. A signal that is left without listeners goes. -/
def off (listing : Listing) (signal : String) (listener : Option (Ref .function)) : Listing :=
  let left := without listing.registrations signal listener
  { registrations := left
    signals :=
      if listenersOf left signal = [] then listing.signals.filter fun name => name ≠ signal
      else listing.signals }

end Listing

namespace BusRequest

/-- Answers a request from a listing. -/
def onListing (request : BusRequest) (listing : Listing) : Except Failure Reply × Listing :=
  let rows := listing.registrations
  match request with
  | register signal listener => (.ok (.value .null), listing.register signal listener)
  | refused cause => (.error (.fault { cause }), listing)
  | off signal listener =>
    (.ok (.value (.ofNat (rows.filter (goesWith signal listener)).length)),
      listing.off signal listener)
  | listenerCount signal => (.ok (.value (.ofNat (listenersOf rows signal).length)), listing)
  | signals => (.ok (.listing (listing.signals.map Value.text)), listing)
  | size =>
    (.ok (.listing [.text "EventBus", .text (toString rows.length),
      .text (Describe.booleanText (rows.length == 0))]), listing)
  | meanwhile => (.ok .nothing, listing)

end BusRequest

/-- The reference that the next new function gets, which no function has yet. -/
def Heap.nextFunction (h : Heap) : Ref .function := ⟨h.functions.size⟩

/-- The listener that connecting a slot registers: a function itself, or a new function for a method
that the receiver has. The receiver has to be a bus. -/
def Connection.listenerFor (h : Heap) (receiver slot : Value) : Except Cause (Ref .function) :=
  match busArgument h "receiver" receiver, slot with
  | .error cause, _ => .error cause
  | .ok _, .text name => (h.resolve receiver name).map fun _ => h.nextFunction
  | .ok _, .function f => .ok f
  | .ok _, other => .error (.mismatch "connect" "method name or function" other)

namespace BusCommand

variable {r : Ref .inst}

/-- What a command comes to in the present state of the machine. -/
def seen (command : BusCommand r) (m : Machine) : BusRequest :=
  match command with
  | receive signal listener => .register signal listener
  | connect signal receiver slot =>
    match Connection.listenerFor m.heap receiver slot with
    | .ok listener => .register signal listener
    | .error cause => .refused cause
  | off signal argument => .off signal argument.join
  | listenerCount signal => .listenerCount signal
  | signals => .signals
  | size _ => .size
  | meanwhile _ => .meanwhile

/-- The arguments of taking off. -/
def offArguments (signal : String) (argument : Option (Option (Ref .function))) : List Value :=
  .text signal :: (argument.map fun listener => (listener.map Value.function).getD .null).toList

/-- How a command is carried out on the bus. -/
def onMachine (re : Reentry) (command : BusCommand r) (m : Machine) :
    Except Failure Reply × Machine :=
  match command with
  | receive signal listener =>
    Reading.asValue.answer
      (BusMethod.receive.call re (some (.inst r)) [.text signal, .function listener]) m
  | connect signal receiver slot =>
    Reading.asValue.answer (Connection.connect [.inst r, .text signal, receiver, slot]) m
  | off signal argument =>
    Reading.asValue.answer
      (BusMethod.off.call re (some (.inst r)) (offArguments signal argument)) m
  | listenerCount signal =>
    Reading.asValue.answer (BusMethod.listenerCount.call re (some (.inst r)) [.text signal]) m
  | signals => Reading.asListing.answer (BusMethod.signals.call re (some (.inst r)) []) m
  | size operation =>
    Reading.asListing.answer (Operations.describeResource r .listeners operation) m
  | meanwhile interlude => (.ok .nothing, interlude.change m)

end BusCommand

/-! ### The order of the signals -/

namespace Listing

/-- The listing after requests, the latest first. -/
def after (past : List BusRequest) : Listing :=
  past.foldr (fun request listing => (request.onListing listing).2) {}

/-- How many requests there were before the signal last went from no listener to one. -/
def openedAt : List BusRequest → String → Nat
  | [], _ => 0
  | request :: past, signal =>
    if listenersOf (after past).registrations signal = [] ∧
        listenersOf (after (request :: past)).registrations signal ≠ [] then past.length
    else openedAt past signal

/-- The listing at the end of a run. -/
theorem runSteps_snd (requests : List BusRequest) :
    (runSteps BusRequest.onListing requests {}).2 = after requests.reverse := by
  have folded : ∀ listing, (runSteps BusRequest.onListing requests listing).2 =
      requests.foldl (fun listing request => (request.onListing listing).2) listing := by
    induction requests with
    | nil => exact fun _ => rfl
    | cons request rest ih => exact fun listing => ih _
  rw [folded, after, List.foldr_reverse]

/-- The signals of a listing are those with listeners, and stand in the order in which they last
went from no listener to one. -/
structure Ordered (past : List BusRequest) : Prop where
  mem_iff : ∀ signal, signal ∈ (after past).signals ↔
    listenersOf (after past).registrations signal ≠ []
  opened : ∀ signal ∈ (after past).signals, openedAt past signal < past.length
  ordered : (after past).signals.Pairwise fun one other => openedAt past one < openedAt past other

theorem openedAt_cons_of_ne_nil (request : BusRequest) {past : List BusRequest} {signal : String}
    (kept : listenersOf (after past).registrations signal ≠ []) :
    openedAt (request :: past) signal = openedAt past signal := if_neg fun opens => kept opens.1

theorem listenersOf_register (listing : Listing) (signal other : String)
    (listener : Ref .function) :
    listenersOf (listing.register signal listener).registrations other =
      listenersOf listing.registrations other ++ if signal = other then [listener] else [] := by
  have one := listenersOf_map signal other [listener]
  rw [List.map_singleton] at one
  rw [register, listenersOf_append, one]

/-- Taking off leaves a signal with some of its listeners. -/
theorem listenersOf_off_sublist (listing : Listing) (signal other : String)
    (listener : Option (Ref .function)) :
    (listenersOf (listing.off signal listener).registrations other).Sublist
      (listenersOf listing.registrations other) :=
  (List.filter_sublist.filter _).map _

namespace Ordered

variable {past : List BusRequest}

/-- A request that opens no signal and leaves some of the signals, those with listeners. -/
theorem keep (kept : Ordered past) {request : BusRequest}
    (fewer : (after (request :: past)).signals.Sublist (after past).signals)
    (mem_iff : ∀ signal, signal ∈ (after (request :: past)).signals ↔
      listenersOf (after (request :: past)).registrations signal ≠ []) :
    Ordered (request :: past) := by
  have same : ∀ signal ∈ (after past).signals,
      openedAt (request :: past) signal = openedAt past signal := fun signal member =>
    openedAt_cons_of_ne_nil request ((kept.mem_iff signal).1 member)
  refine ⟨mem_iff, fun signal member => ?_, (kept.ordered.imp_of_mem ?_).sublist fewer⟩
  · rw [same signal (fewer.subset member)]
    exact Nat.lt_succ_of_lt (kept.opened signal (fewer.subset member))
  · intro one other here there before
    rwa [same one here, same other there]

/-- A signal that has listeners keeps its place when it gets another one, and one that had none
comes behind all others. -/
theorem register (kept : Ordered past) (signal : String) (listener : Ref .function) :
    Ordered (.register signal listener :: past) := by
  have mem_iff : ∀ other, other ∈ ((after past).register signal listener).signals ↔
      listenersOf ((after past).register signal listener).registrations other ≠ [] := by
    intro other
    have before := kept.mem_iff other
    rw [listenersOf_register, Listing.register]
    by_cases same : signal = other
    · subst same
      split <;> simp_all
    · rw [if_neg same, List.append_nil, ← before]
      split
      · rfl
      · simp [Ne.symm same]
  by_cases known : signal ∈ (after past).signals
  · have signals : (after (.register signal listener :: past)).signals = (after past).signals :=
      if_pos known
    exact kept.keep (signals ▸ List.Sublist.refl _) mem_iff
  · have signals : (after (.register signal listener :: past)).signals =
        (after past).signals ++ [signal] := if_neg known
    have old : ∀ other ∈ (after past).signals,
        openedAt (.register signal listener :: past) other = openedAt past other :=
      fun other member => openedAt_cons_of_ne_nil _ ((kept.mem_iff other).1 member)
    have new : openedAt (.register signal listener :: past) signal = past.length :=
      if_pos ⟨not_ne_iff.1 fun some => known ((kept.mem_iff signal).2 some),
        (mem_iff signal).1 (signals ▸ by simp)⟩
    refine ⟨mem_iff, fun other member => ?_, ?_⟩
    · rw [signals, List.mem_append, List.mem_singleton] at member
      rcases member with member | rfl
      · rw [old other member]
        exact Nat.lt_succ_of_lt (kept.opened other member)
      · rw [new]
        exact Nat.lt_succ_self _
    · rw [signals, List.pairwise_append]
      refine ⟨kept.ordered.imp_of_mem fun here there before => ?_, List.pairwise_singleton _ _, ?_⟩
      · rwa [old _ here, old _ there]
      · intro other member last isLast
        rw [List.mem_singleton.1 isLast, new, old other member]
        exact kept.opened other member

/-- A signal that loses its last listener goes, and the others keep their places. -/
theorem off (kept : Ordered past) (signal : String) (listener : Option (Ref .function)) :
    Ordered (.off signal listener :: past) := by
  refine kept.keep ?_ fun other => ?_
  · change ((after past).off signal listener).signals.Sublist _
    rw [Listing.off]
    dsimp only
    split
    · exact List.filter_sublist
    · exact List.Sublist.refl _
  · change other ∈ ((after past).off signal listener).signals ↔
      listenersOf (without (after past).registrations signal listener) other ≠ []
    have before := kept.mem_iff other
    rw [Listing.off]
    by_cases same : other = signal
    · subst same
      have fewer := (after past).listenersOf_off_sublist other other listener
      split
      · next none => simp [none]
      · next some =>
        have had : listenersOf (after past).registrations other ≠ [] := fun none =>
          some (List.sublist_nil.1 (none ▸ fewer))
        exact iff_of_true (before.2 had) some
    · rw [listenersOf_without_of_ne same, ← before]
      split
      · simp [same]
      · rfl

end Ordered

/-- After any history the signals are those with listeners, in the order in which they last went
from no listener to one. -/
theorem ordered_after (past : List BusRequest) : Ordered past := by
  induction past with
  | nil => exact ⟨fun _ => by simp [after, listenersOf], nofun, List.Pairwise.nil⟩
  | cons request past ih =>
    cases request with
    | register signal listener => exact ih.register signal listener
    | off signal listener => exact ih.off signal listener
    | refused | listenerCount | signals | size | meanwhile =>
      exact ih.keep (List.Sublist.refl _) ih.mem_iff

end Listing

/-! ### Tables and listings -/

/-- Lists with the same listeners for each signal have the same registrations. -/
theorem Registration.perm_of_listenersOf {L : Type} [DecidableEq L]
    {registrations others : List (Registration L)}
    (same : ∀ signal, listenersOf registrations signal = listenersOf others signal) :
    registrations.Perm others := by
  have counted : ∀ (rows : List (Registration L)) (signal : String) (listener : L),
      rows.count (signal, listener) = (listenersOf rows signal).count listener := by
    intro rows signal listener
    rw [listenersOf, List.count, List.count, List.countP_map, List.countP_filter]
    refine List.countP_congr fun row _ => ?_
    obtain ⟨name, registered⟩ := row
    simp [and_comm]
  refine List.perm_iff_count.2 fun row => ?_
  rw [counted others row.1 row.2, counted registrations row.1 row.2, same]

namespace ListenerTable

variable {table : ListenerTable (Ref .function)} {listing : Listing}

/-- The number of registrations of a table is how many it stands for. -/
theorem StandsFor.size_eq {L : Type} [DecidableEq L] {table : ListenerTable L}
    {registrations : List (Registration L)} (stands : table.StandsFor registrations) :
    table.size = registrations.length := by
  have alike := perm_of_listenersOf fun signal =>
    (table.standsFor_registered signal).symm.trans (stands signal)
  have summed : ∀ (entries : List (String × List L)) (n : Nat),
      (entries.map Prod.snd).foldl (fun n listeners => n + listeners.length) n =
        n + (registered entries).length := by
    intro entries
    induction entries with
    | nil => exact fun _ => rfl
    | cons entry rest ih =>
      intro n
      rw [List.map_cons, List.foldl_cons, ih]
      simp [registered, Nat.add_assoc]
  rw [← alike.length_eq, ListenerTable.size, OrderedIndex.values, summed, Nat.zero_add]

/-- The table has the registrations of the listing, and its signals in the same order. -/
structure Follows (table : ListenerTable (Ref .function)) (listing : Listing) : Prop where
  stands : table.StandsFor listing.registrations
  names : table.signalNames = listing.signals

theorem follows_empty : (empty : ListenerTable (Ref .function)).Follows {} :=
  ⟨standsFor_empty, rfl⟩

theorem Follows.register (follows : table.Follows listing) (signal : String)
    (listener : Ref .function) :
    (table.add signal listener).Follows (listing.register signal listener) := by
  refine ⟨follows.stands.add signal listener, ?_⟩
  rw [signalNames, add, OrderedIndex.keys, OrderedIndex.toList_set, Entries.keys_put,
    Listing.register, ← follows.names]
  rfl

theorem Follows.off (follows : table.Follows listing) (signal : String)
    (listener : Option (Ref .function)) :
    (table.remove signal listener).Follows (listing.off signal listener) := by
  refine ⟨follows.stands.remove signal listener, ?_⟩
  have left : listenersOf (without listing.registrations signal listener) signal =
      (table.remaining signal listener).reverse := by
    rw [← follows.stands.remove, listeners, latest_remove, if_pos rfl]
  rw [Listing.off, left, ← follows.names, remove]
  by_cases none : (table.remaining signal listener).isEmpty
  · have none' := List.isEmpty_iff.1 none
    rw [if_pos none, none', List.reverse_nil, if_pos rfl, signalNames, OrderedIndex.keys,
      OrderedIndex.toList_remove, signalNames, OrderedIndex.keys, List.filter_map]
    rfl
  · have some : (table.remaining signal listener).reverse ≠ [] := fun empty =>
      none (List.isEmpty_iff.2 (List.reverse_eq_nil_iff.1 empty))
    rw [if_neg none, if_neg some, signalNames, OrderedIndex.keys, OrderedIndex.toList_set,
      Entries.keys_put, if_pos]
    · rfl
    · -- A signal without an entry has nothing that could remain.
      by_contra absent
      have noEntry : table.latest signal = [] := by
        rw [latest, (OrderedIndex.get?_eq_none_iff _ _).2 absent]
        rfl
      cases listener <;> simp [remaining, noEntry] at some

/-- A table that follows a listing keeps no signal without listeners. -/
theorem Follows.nonempty (follows : table.Follows listing)
    (having : ∀ signal ∈ listing.signals, listenersOf listing.registrations signal ≠ [])
    {signal : String} {latest : List (Ref .function)}
    (member : (signal, latest) ∈ table.registrations.toList) : latest ≠ [] := by
  have name : signal ∈ listing.signals := by
    rw [← follows.names]
    exact List.mem_map_of_mem member
  have found : table.latest signal = latest := by
    rw [ListenerTable.latest, (table.registrations.mem_toList_iff signal latest).1 member]
    rfl
  rintro rfl
  refine having signal name ?_
  rw [← follows.stands, listeners, found]
  rfl

end ListenerTable

/-! ### One command -/

/-- The instance owns a table that follows the listing. -/
def Heap.OwnsListing (h : Heap) (r : Ref .inst) (listing : Listing) : Prop :=
  ∃ table : ListenerTable (Ref .function), h.Owns r (.listeners table) ∧ table.Follows listing

namespace Connection

variable {r : Ref .inst} {m : Machine} {table : ListenerTable (Ref .function)}
  (owns : m.heap.Owns r (.listeners table))

include owns

theorem busArgument_of_owns (role : String) : busArgument m.heap role (.inst r) = .ok r := by
  have store : m.heap.store? .listeners r = some table := by
    simp [Heap.store?, Heap.resource_of_owns owns, StoreType.listeners]
  rw [busArgument, store]

omit owns in
/-- The listener is told by the receiver and the slot, and making it leaves what instances own. -/
theorem on_slotListener (receiver slot : Value) :
    let making : Action (Ref .function) := do
      discard (Action.viewHeap fun h => busArgument h "receiver" receiver)
      slotListener receiver slot
    match listenerFor m.heap receiver slot with
    | .error cause => making.on m = (.error (.fault { cause }), m)
    | .ok listener =>
      ∃ heap, making.on m = (.ok listener, { m with heap }) ∧ heap.owner = m.heap.owner := by
  cases accepted : busArgument m.heap "receiver" receiver with
  | error cause => simp [listenerFor, accepted, Run.on_discard]
  | ok s =>
    cases slot with
    | text name =>
      cases resolved : m.heap.resolve receiver name with
      | error cause =>
        simp [listenerFor, slotListener, accepted, resolved, Run.on_discard, Except.map]
      | ok method =>
        simp only [listenerFor, accepted, resolved, Except.map]
        refine ⟨(m.heap.newFunction (.native (name ++ " (connected)") (.bound method receiver))).2,
          ?_, rfl⟩
        simp [slotListener, accepted, resolved, Run.on_discard]
        rfl
    | function f =>
      simp only [listenerFor, accepted]
      exact ⟨m.heap, by simp [slotListener, accepted, Run.on_discard], rfl⟩
    | null | boolean | number | array | object | cls | inst | promise =>
      simp [listenerFor, slotListener, accepted, Run.on_discard, Action.fail]
      rfl

/-- Connecting finds the sender and makes the listener before it registers it. -/
theorem on_connect (receiver slot : Value) (signal : String) :
    (connect [.inst r, .text signal, receiver, slot]).on m =
      (do let listener ← (do
            discard (Action.viewHeap fun h => busArgument h "receiver" receiver)
            slotListener receiver slot)
          Action.useStore .listeners "connect" r (fun _ => Value.null) fun table =>
            table.add signal listener : Action Value).on m := by
  simp [connect, Arguments.exactly, Arguments.text, busArgument_of_owns owns]

/-- A slot without a listener is refused, and nothing changes. -/
theorem on_connect_of_error {receiver slot : Value} {cause : Cause}
    (refused : listenerFor m.heap receiver slot = .error cause) (signal : String) :
    (connect [.inst r, .text signal, receiver, slot]).on m = (.error (.fault { cause }), m) := by
  have made := on_slotListener (m := m) receiver slot
  rw [refused] at made
  rw [on_connect owns, Run.on_bind, made]

/-- A slot with a listener is registered behind all others. -/
theorem on_connect_of_ok {receiver slot : Value} {listener : Ref .function}
    (told : listenerFor m.heap receiver slot = .ok listener) (signal : String) :
    ∃ m', (connect [.inst r, .text signal, receiver, slot]).on m = (.ok .null, m') ∧
      m'.heap.Owns r (.listeners (table.add signal listener)) := by
  have made := on_slotListener (m := m) receiver slot
  rw [told] at made
  obtain ⟨heap, done, owner⟩ := made
  have owns' : heap.Owns r (.listeners table) := (congrFun owner r).trans owns
  rw [on_connect owns, Run.on_bind_of_ok done]
  exact ⟨_, Action.on_useStore ListenerTable.lawful owns' _ _ _,
    Heap.owns_changeStore ListenerTable.lawful owns' _⟩

end Connection

namespace BusCommand

variable {r : Ref .inst} {m : Machine} {listing : Listing}

/-- A command is answered like the request that it comes to, and the table follows. -/
theorem answersAsListing (re : Reentry) (command : BusCommand r)
    (bus : m.heap.OwnsListing r listing) :
    (command.onMachine re m).1 = ((command.seen m).onListing listing).1 ∧
      (command.onMachine re m).2.heap.OwnsListing r ((command.seen m).onListing listing).2 := by
  obtain ⟨table, owns, follows⟩ := bus
  cases command with
  | receive signal listener =>
    have done : (BusMethod.receive.call re (some (.inst r)) [.text signal, .function listener]).on
        m = (.ok .null, m.changeStore .listeners r fun table => table.add signal listener) := by
      simp [BusMethod.call, BusMethod.checkCount, Arguments.exactly, Arguments.text,
        Arguments.function, Native.changeStore, Native.on_useStore ListenerTable.lawful owns]
    rw [onMachine, Reading.answer_of_ok _ done]
    exact ⟨rfl, _, Heap.owns_changeStore ListenerTable.lawful owns _,
      follows.register signal listener⟩
  | connect signal receiver slot =>
    rw [onMachine, seen]
    cases told : Connection.listenerFor m.heap receiver slot with
    | error cause =>
      rw [Reading.answer, Connection.on_connect_of_error owns told signal]
      exact ⟨rfl, table, owns, follows⟩
    | ok listener =>
      obtain ⟨m', done, owns'⟩ := Connection.on_connect_of_ok owns told signal
      rw [Reading.answer_of_ok _ done]
      exact ⟨rfl, _, owns', follows.register signal listener⟩
  | off signal argument =>
    have done : (BusMethod.off.call re (some (.inst r)) (offArguments signal argument)).on m =
        (.ok (.ofNat (listing.registrations.filter (goesWith signal argument.join)).length),
          m.changeStore .listeners r fun table => table.remove signal argument.join) := by
      rcases argument with _ | _ | listener <;>
        simp [BusMethod.call, BusMethod.checkCount, Arguments.between, Arguments.text,
          Arguments.function?, offArguments, Native.on_useStore ListenerTable.lawful owns,
          follows.stands.removable]
    rw [onMachine, Reading.answer_of_ok _ done]
    exact ⟨rfl, _, Heap.owns_changeStore ListenerTable.lawful owns _, follows.off signal _⟩
  | listenerCount signal =>
    have counted : table.count signal = (listenersOf listing.registrations signal).length := by
      rw [← follows.stands, ListenerTable.listeners, List.length_reverse, ListenerTable.count]
    have done : (BusMethod.listenerCount.call re (some (.inst r)) [.text signal]).on m =
        (.ok (.ofNat (listenersOf listing.registrations signal).length), m) := by
      simp [BusMethod.call, BusMethod.checkCount, Arguments.exactly, Arguments.text,
        Native.on_readStore ListenerTable.lawful owns, counted]
    rw [onMachine, Reading.answer_of_ok _ done]
    exact ⟨rfl, table, owns, follows⟩
  | signals =>
    have same : (BusMethod.signals.call re (some (.inst r)) []).on m =
        (Action.newArray (listing.signals.map Value.text)).on m := by
      simp [BusMethod.call, BusMethod.checkCount, Arguments.exactly,
        Native.on_readStore ListenerTable.lawful owns, follows.names]
    rw [onMachine, Reading.answer_newArray same]
    exact ⟨rfl, table, owns, follows⟩
  | size operation =>
    have same : (Operations.describeResource r .listeners operation).on m =
        (Action.newArray [.text "EventBus", .text (toString listing.registrations.length),
          .text (Describe.booleanText (listing.registrations.length == 0))]).on m := by
      simp [Operations.describeResource, Operations.newTexts, Heap.resource_of_owns owns,
        Resource.kind, Resource.size, follows.stands.size_eq, ResourceKind.className]
    rw [onMachine, Reading.answer_newArray same]
    exact ⟨rfl, table, owns, follows⟩
  | meanwhile interlude => exact ⟨rfl, table, (interlude.keeps m).trans owns, follows⟩

end BusCommand

/-! ### Whole lives -/

/-- A table keeps what requests, the latest first, left: for each signal the registrations that were
not taken off, in order, and the signals that have any in the order in which they last went from no
listener to one. -/
structure ListenerTable.Records (table : ListenerTable (Ref .function)) (past : List BusRequest) :
    Prop where
  listeners : ∀ signal,
    table.listeners signal = listenersOf (Listing.after past).registrations signal
  size : table.size = (Listing.after past).registrations.length
  names : table.signalNames = (Listing.after past).signals
  distinct : table.signalNames.Nodup
  mem_iff : ∀ signal, signal ∈ table.signalNames ↔ table.listeners signal ≠ []
  ordered : table.signalNames.Pairwise fun one other =>
    Listing.openedAt past one < Listing.openedAt past other
  nonempty : ∀ entry ∈ table.registrations.toList, entry.2 ≠ []

theorem ListenerTable.Follows.records {table : ListenerTable (Ref .function)}
    {past : List BusRequest} (follows : table.Follows (Listing.after past)) :
    table.Records past where
  listeners := follows.stands
  size := follows.stands.size_eq
  names := follows.names
  distinct := table.registrations.keys_nodup
  mem_iff signal := by
    rw [follows.names, follows.stands]
    exact (Listing.ordered_after past).mem_iff signal
  ordered := follows.names ▸ (Listing.ordered_after past).ordered
  nonempty := fun _ member =>
    follows.nonempty (fun signal => ((Listing.ordered_after past).mem_iff signal).1) member

/-- Taking off leaves the listeners of every other signal, and the order of the other signals. -/
theorem Listing.off_elsewhere (listing : Listing) (signal : String)
    (listener : Option (Ref .function)) :
    (∀ other, other ≠ signal → listenersOf (listing.off signal listener).registrations other =
      listenersOf listing.registrations other) ∧
    ((listing.off signal listener).signals.filter fun name => name ≠ signal) =
      listing.signals.filter fun name => name ≠ signal := by
  refine ⟨fun other apart => listenersOf_without_of_ne apart _ listener, ?_⟩
  rw [off]
  dsimp only
  split
  · rw [List.filter_filter]
    simp
  · rfl

/-- An instance that is constructed as an EventBus answers every run of calls like the listing, and
its table then records what the calls came to. Taking off is no matter of the other signals. -/
theorem bus_livesAsListing (re : Reentry) {r : Ref .inst} {m : Machine} (bare : m.heap.Bare r)
    (commands : List (BusCommand r)) :
    (∃ m', (BusMethod.construct.call re (some (.inst r)) []).on m = (.ok .null, m') ∧
      let run := runSteps (BusCommand.onMachine re) commands m'
      let requests := seenAlong (BusCommand.onMachine re) BusCommand.seen commands m'
      run.1 = (runSteps BusRequest.onListing requests {}).1 ∧
        ∃ table, run.2.heap.Owns r (.listeners table) ∧ table.Records requests.reverse) ∧
    ∀ (listing : Listing) (signal : String) (listener : Option (Ref .function)),
      (∀ other, other ≠ signal → listenersOf (listing.off signal listener).registrations other =
        listenersOf listing.registrations other) ∧
      ((listing.off signal listener).signals.filter fun name => name ≠ signal) =
        listing.signals.filter fun name => name ≠ signal := by
  refine ⟨?_, fun listing signal listener => listing.off_elsewhere signal listener⟩
  have bus : (m.heap.setResource r (.listeners .empty)).OwnsListing r {} :=
    ⟨.empty, Heap.owns_setResource bare _, ListenerTable.follows_empty⟩
  obtain ⟨same, table, owns, follows⟩ := runSteps_refines (BusCommand.seen (r := r)) id
    (fun m listing => m.heap.OwnsListing r listing)
    (fun command m listing bus => command.answersAsListing re bus) commands
    (s := { m with heap := m.heap.setResource r (.listeners .empty) }) bus
  rw [List.map_id] at same
  rw [Listing.runSteps_snd] at follows
  exact ⟨_, BusMethod.on_construct re bare, same, table, owns, follows.records⟩

/-- Registers the same function for two signals, connects the bus to itself, and takes the first
signal off before it is registered again. -/
def reopening : List (BusCommand ⟨0⟩) :=
  [.receive "a" ⟨0⟩, .receive "b" ⟨0⟩, .connect "a" (.inst ⟨0⟩) (.function ⟨1⟩),
    .off "a" (some (some ⟨0⟩)), .signals, .off "a" none, .receive "a" ⟨0⟩, .signals,
    .connect "b" (.inst ⟨0⟩) (.text "missing"), .size "size"]

theorem bus_livesAsListing_reopening :
    bareMachine.heap.Bare ⟨0⟩ ∧
      ∃ m', (BusMethod.construct.call .idle (some (.inst ⟨0⟩)) []).on bareMachine =
          (.ok .null, m') ∧
        let run := runSteps (BusCommand.onMachine .idle) reopening m'
        let requests := seenAlong (BusCommand.onMachine .idle) BusCommand.seen reopening m'
        run.1 = (runSteps BusRequest.onListing requests {}).1 ∧
          ∃ table, run.2.heap.Owns ⟨0⟩ (.listeners table) ∧ table.Records requests.reverse := by
  have bare : bareMachine.heap.Bare ⟨0⟩ := rfl
  exact ⟨bare, (bus_livesAsListing .idle bare reopening).1⟩

/-- The signal that is registered again comes back behind the other one. -/
example :
    ((runSteps (BusCommand.onMachine .idle) reopening
        ((BusMethod.construct.call .idle (some (.inst ⟨0⟩)) []).on bareMachine).2).1.map
          (Except.toOption ·)) =
      [some (.value .null), some (.value .null), some (.value .null), some (.value (.ofNat 1)),
        some (.listing [.text "a", .text "b"]), some (.value (.ofNat 1)), some (.value .null),
        some (.listing [.text "b", .text "a"]), none,
        some (.listing [.text "EventBus", .text "2", .text "false"])] := by decide

end ScriptCore
