import ScriptCore.Native.Events
import ScriptCore.Proofs.Actions
import ScriptCore.Proofs.Index.View

/-!
A listener table is a list of registrations.

A registration is a signal and a listener. Receiving puts a registration behind all others and
taking off leaves registrations out; the listeners of a signal are those of its registrations, in
order and as often as they are registered. The table itself keeps the listeners of each signal
apart and the latest first; no later argument opens it again.
-/

namespace ScriptCore

/-! ### Registrations -/

/-- A listener, and the signal that it is registered for. -/
abbrev Registration (L : Type) := String × L

namespace Registration

variable {L : Type}

/-- The listeners registered for a signal, in order. -/
def listenersOf (registrations : List (Registration L)) (signal : String) : List L :=
  (registrations.filter fun registered => registered.1 = signal).map Prod.snd

theorem listenersOf_append (registrations more : List (Registration L)) (signal : String) :
    listenersOf (registrations ++ more) signal =
      listenersOf registrations signal ++ listenersOf more signal := by
  simp [listenersOf]

theorem listenersOf_map (signal other : String) (listeners : List L) :
    listenersOf (listeners.map fun listener => (signal, listener)) other =
      if signal = other then listeners else [] := by
  rw [listenersOf, List.filter_map, List.map_map]
  by_cases same : signal = other <;> simp [Function.comp_def, same]

/-- Whether a registration is taken off with a listener of a signal, or with the whole signal when
no listener is given. -/
def goesWith [DecidableEq L] (signal : String) (listener : Option L)
    (registered : Registration L) : Bool :=
  registered.1 = signal && listener.all fun gone => registered.2 = gone

/-- The registrations that are left after such a removal. -/
def without [DecidableEq L] (registrations : List (Registration L)) (signal : String)
    (listener : Option L) : List (Registration L) :=
  registrations.filter fun registered => !goesWith signal listener registered

variable [DecidableEq L]

theorem listenersOf_without_of_ne {signal other : String} (apart : other ≠ signal)
    (registrations : List (Registration L)) (listener : Option L) :
    listenersOf (without registrations signal listener) other =
      listenersOf registrations other := by
  rw [listenersOf, listenersOf, without, List.filter_filter]
  congr 1
  refine List.filter_congr fun registered _ => ?_
  by_cases same : registered.1 = other
  · simp [goesWith, same, apart]
  · simp [same]

theorem listenersOf_without_none (registrations : List (Registration L)) (signal : String) :
    listenersOf (without registrations signal none) signal = [] := by
  simp [listenersOf, without, goesWith]

theorem listenersOf_without_some (registrations : List (Registration L)) (signal : String)
    (gone : L) :
    listenersOf (without registrations signal (some gone)) signal =
      (listenersOf registrations signal).filter fun registered => registered ≠ gone := by
  rw [listenersOf, listenersOf, without, List.filter_filter, List.filter_map, List.filter_filter]
  congr 1
  refine List.filter_congr fun registered _ => ?_
  by_cases same : registered.1 = signal <;> simp [goesWith, same]

/-- What is taken off are listeners of the signal. -/
theorem length_goesWith (registrations : List (Registration L)) (signal : String)
    (listener : Option L) :
    (registrations.filter (goesWith signal listener)).length +
        (listenersOf (without registrations signal listener) signal).length =
      (listenersOf registrations signal).length := by
  have gone : registrations.filter (goesWith signal listener) =
      (registrations.filter fun registered => registered.1 = signal).filter
        (goesWith signal listener) := by
    rw [List.filter_filter]
    refine List.filter_congr fun registered _ => ?_
    by_cases same : registered.1 = signal <;> simp [goesWith, same]
  simp only [listenersOf, without, List.length_map]
  rw [gone, List.filter_comm (fun registered : Registration L => registered.1 = signal),
    ← List.length_eq_length_filter_add]

end Registration

open Registration

/-! ### Tables -/

namespace ListenerTable

variable {L : Type} {table : ListenerTable L} {registrations : List (Registration L)}

theorem latest_add (table : ListenerTable L) (signal other : String) (listener : L) :
    (table.add signal listener).latest other =
      if other = signal then listener :: table.latest signal else table.latest other := by
  simp only [latest, add, OrderedIndex.get?_set]
  split <;> rfl

theorem latest_remove [DecidableEq L] (table : ListenerTable L) (signal other : String)
    (listener : Option L) :
    (table.remove signal listener).latest other =
      if other = signal then table.remaining signal listener else table.latest other := by
  unfold remove
  by_cases gone : (table.remaining signal listener).isEmpty
  · rw [if_pos gone]
    simp only [latest, OrderedIndex.get?_remove]
    split
    · rw [List.isEmpty_iff.1 gone]
      rfl
    · rfl
  · rw [if_neg gone]
    simp only [latest, OrderedIndex.get?_set]
    split <;> rfl

/-- The table has the listeners of the registrations, and no others. -/
def StandsFor (table : ListenerTable L) (registrations : List (Registration L)) : Prop :=
  ∀ signal, table.listeners signal = listenersOf registrations signal

theorem standsFor_empty : (empty : ListenerTable L).StandsFor [] := fun _ => rfl

theorem StandsFor.add (stands : table.StandsFor registrations) (signal : String) (listener : L) :
    (table.add signal listener).StandsFor (registrations ++ [(signal, listener)]) := by
  intro other
  have one := listenersOf_map signal other [listener]
  rw [List.map_singleton] at one
  rw [listenersOf_append, one, ← stands, listeners, listeners, latest_add]
  by_cases same : other = signal
  · simp [same]
  · rw [if_neg same, if_neg (Ne.symm same), List.append_nil]

theorem StandsFor.remove [DecidableEq L] (stands : table.StandsFor registrations)
    (signal : String) (listener : Option L) :
    (table.remove signal listener).StandsFor (without registrations signal listener) := by
  intro other
  rw [listeners, latest_remove]
  by_cases same : other = signal
  · subst same
    rw [if_pos rfl]
    cases listener with
    | none => rw [listenersOf_without_none]; rfl
    | some gone =>
      rw [listenersOf_without_some, ← stands, listeners, remaining, List.filter_reverse]
  · rw [if_neg same, listenersOf_without_of_ne same]
    exact stands other

theorem StandsFor.removable [DecidableEq L] (stands : table.StandsFor registrations)
    (signal : String) (listener : Option L) :
    table.removable signal listener =
      (registrations.filter (goesWith signal listener)).length := by
  have before : table.count signal = (listenersOf registrations signal).length := by
    rw [← stands, listeners, List.length_reverse, count]
  have after : (table.remaining signal listener).length =
      (listenersOf (without registrations signal listener) signal).length := by
    rw [← stands.remove, listeners, List.length_reverse, latest_remove, if_pos rfl]
  have parts := length_goesWith registrations signal listener
  rw [ListenerTable.removable, before, after]
  omega

/-- The registrations that list the listeners of one signal after those of another. -/
def registered (entries : List (String × List L)) : List (Registration L) :=
  entries.flatMap fun entry => entry.2.reverse.map fun listener => (entry.1, listener)

theorem listenersOf_registered {entries : List (String × List L)}
    (distinct : (entries.map Prod.fst).Nodup) (signal : String) :
    listenersOf (registered entries) signal = ((entries.lookup signal).getD []).reverse := by
  induction entries with
  | nil => rfl
  | cons entry rest ih =>
    obtain ⟨name, latest⟩ := entry
    rw [List.map_cons, List.nodup_cons] at distinct
    have parts : registered ((name, latest) :: rest) =
        latest.reverse.map (fun listener => (name, listener)) ++ registered rest := rfl
    rw [parts, listenersOf_append, listenersOf_map, ih distinct.2, List.lookup_cons]
    by_cases same : name = signal
    · subst same
      simp [Entries.lookup_of_notMem distinct.1]
    · have other : (signal == name) = false := beq_false_of_ne (Ne.symm same)
      simp [same, other]

/-- Every table stands for some registrations. -/
theorem standsFor_registered (table : ListenerTable L) :
    table.StandsFor (registered table.registrations.toList) := by
  intro signal
  rw [listenersOf_registered table.registrations.keys_nodup, listeners, latest,
    OrderedIndex.get?_eq_lookup]

theorem lawful (table : ListenerTable (Ref .function)) :
    StoreType.listeners.project (StoreType.listeners.inject table) = some table := rfl

end ListenerTable

/-! ### Buses -/

/-- The instance owns a listener table that stands for the registrations. -/
def Heap.OwnsBus (h : Heap) (r : Ref .inst) (registrations : List (Registration (Ref .function))) :
    Prop :=
  ∃ table : ListenerTable (Ref .function), h.Owns r (.listeners table) ∧
    table.StandsFor registrations

theorem Heap.Owns.bus {h : Heap} {r : Ref .inst} {table : ListenerTable (Ref .function)}
    (owns : h.Owns r (.listeners table)) : ∃ registrations, h.OwnsBus r registrations :=
  ⟨_, table, owns, table.standsFor_registered⟩

namespace BusMethod

variable (re : Reentry) {r : Ref .inst} {m : Machine}
  {registrations : List (Registration (Ref .function))}

/-- The constructor gives the instance a table without registrations. -/
theorem on_construct (bare : m.heap.Bare r) :
    (call re .construct (some (.inst r)) []).on m =
      (.ok .null, { m with heap := m.heap.setResource r (.listeners .empty) }) := by
  simp [call, checkCount, Arguments.exactly, Native.on_attachToReceiver bare]

variable (bus : m.heap.OwnsBus r registrations)

include bus

/-- Receiving puts a registration behind all others. -/
theorem ownsBus_receive (signal : String) (listener : Ref .function) :
    ∃ m', (call re .receive (some (.inst r)) [.text signal, .function listener]).on m =
        (.ok .null, m') ∧
      m'.heap.OwnsBus r (registrations ++ [(signal, listener)]) := by
  obtain ⟨table, owns, stands⟩ := bus
  refine ⟨m.changeStore .listeners r fun table => table.add signal listener, ?_, _, ?_,
    stands.add signal listener⟩
  · simp [call, checkCount, Arguments.exactly, Arguments.text, Arguments.function,
      Native.changeStore, Native.on_useStore ListenerTable.lawful owns]
  · exact Heap.owns_changeStore ListenerTable.lawful owns _

/-- Taking off gives the number of the registrations that it leaves out. -/
theorem ownsBus_off (signal : String) (listener : Option (Ref .function)) :
    ∃ m', (call re .off (some (.inst r))
          (.text signal :: (listener.map Value.function).toList)).on m =
        (.ok (.ofNat (registrations.filter (goesWith signal listener)).length), m') ∧
      m'.heap.OwnsBus r (without registrations signal listener) := by
  obtain ⟨table, owns, stands⟩ := bus
  refine ⟨m.changeStore .listeners r fun table => table.remove signal listener, ?_, _, ?_,
    stands.remove signal listener⟩
  · cases listener <;>
      simp [call, checkCount, Arguments.between, Arguments.text, Arguments.function?,
        Native.on_useStore ListenerTable.lawful owns, stands.removable]
  · exact Heap.owns_changeStore ListenerTable.lawful owns _

end BusMethod

end ScriptCore
