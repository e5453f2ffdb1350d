import ScriptCore.OrderedIndex

/-!
The store behind an EventBus: for each signal the listeners registered for it, in the order of
registration and as often as they were registered. A signal without listeners is not kept, so it
goes to the end when it gets one again.

The table keeps the latest registration of a signal first.
-/

namespace ScriptCore

/-- The registrations of an event bus. -/
structure ListenerTable (L : Type) where
  /-- The listeners of each signal, the latest first. -/
  registrations : OrderedIndex String (List L) := .empty
  deriving DecidableEq, Repr

namespace ListenerTable

variable {L : Type}

def empty : ListenerTable L := {}

/-- The listeners of a signal, the latest first. -/
def latest (table : ListenerTable L) (signal : String) : List L :=
  (table.registrations.get? signal).getD []

/-- The listeners of a signal, in the order of registration. -/
def listeners (table : ListenerTable L) (signal : String) : List L := (table.latest signal).reverse

/-- The number of registrations for a signal. -/
def count (table : ListenerTable L) (signal : String) : Nat := (table.latest signal).length

/-- Registers a listener behind those that the signal has. -/
def add (table : ListenerTable L) (signal : String) (listener : L) : ListenerTable L :=
  ⟨table.registrations.set signal (listener :: table.latest signal)⟩

/-- The listeners of a signal, the latest first, after every registration of one of them, or all if
none is given, is gone. -/
def remaining [DecidableEq L] (table : ListenerTable L) (signal : String) (listener : Option L) :
    List L :=
  match listener with
  | some gone => (table.latest signal).filter fun registered => registered ≠ gone
  | none => []

/-- Removes every registration of a listener, or all of the signal when none is given. -/
def remove [DecidableEq L] (table : ListenerTable L) (signal : String) (listener : Option L) :
    ListenerTable L :=
  let remaining := table.remaining signal listener
  if remaining.isEmpty then ⟨table.registrations.remove signal⟩
  else ⟨table.registrations.set signal remaining⟩

/-- How many registrations such a removal takes away. -/
def removable [DecidableEq L] (table : ListenerTable L) (signal : String) (listener : Option L) :
    Nat :=
  table.count signal - (table.remaining signal listener).length

/-- The signals that have listeners. -/
def signalNames (table : ListenerTable L) : List String := table.registrations.keys

/-- The number of registrations. -/
def size (table : ListenerTable L) : Nat :=
  table.registrations.values.foldl (fun n listeners => n + listeners.length) 0

end ListenerTable

end ScriptCore
