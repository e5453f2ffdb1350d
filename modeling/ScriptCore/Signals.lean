import ScriptCore.Fault

/-!
Operating-system signals: which are pending, and which function handles each.

The arrival of a signal only marks it as pending. A signal that arrives again before it is taken is
pending once.
-/

namespace ScriptCore

/-- The signals that programs can handle. -/
inductive OsSignal where
  | interrupt
  | terminate
  | hangup
  | user1
  | user2
  deriving DecidableEq, Repr

namespace OsSignal

/-- All signals, in the order in which pending ones are dispatched. -/
def all : List OsSignal := [interrupt, terminate, hangup, user1, user2]

def name : OsSignal → String
  | interrupt => "SIGINT"
  | terminate => "SIGTERM"
  | hangup => "SIGHUP"
  | user1 => "SIGUSR1"
  | user2 => "SIGUSR2"

/-- The signal of the given name. -/
def ofName? (name : String) : Option OsSignal := all.find? fun s => s.name = name

/-- The signal of the given name, or the failure to support it. -/
def ofName (name : String) : Except Cause OsSignal :=
  match ofName? name with
  | some s => .ok s
  | none => .error (.unsupportedSignal name)

end OsSignal

/-- Pending signals and registered handlers. -/
structure SignalTable where
  pending : List OsSignal := []
  handlers : List (OsSignal × Ref .function) := []
  deriving DecidableEq, Repr

namespace SignalTable

def isPending (table : SignalTable) (s : OsSignal) : Bool := decide (s ∈ table.pending)

/-- Marks a signal as pending. -/
def raise (table : SignalTable) (s : OsSignal) : SignalTable :=
  if table.isPending s then table else { table with pending := s :: table.pending }

/-- Clears the mark of a signal. -/
def take (table : SignalTable) (s : OsSignal) : SignalTable :=
  { table with pending := table.pending.filter fun other => other ≠ s }

/-- The cells that the handlers are. -/
def referents (table : SignalTable) : List Identity :=
  table.handlers.map fun entry => entry.2.identity

def handler? (table : SignalTable) (s : OsSignal) : Option (Ref .function) :=
  table.handlers.lookup s

/-- Removes the handler of a signal. -/
def unregister (table : SignalTable) (s : OsSignal) : SignalTable :=
  { table with handlers := table.handlers.filter fun entry => entry.1 ≠ s }

/-- Sets the handler of a signal, in the stead of any earlier one. -/
def register (table : SignalTable) (s : OsSignal) (handler : Ref .function) : SignalTable :=
  { table with handlers := (s, handler) :: (table.unregister s).handlers }

end SignalTable

end ScriptCore
