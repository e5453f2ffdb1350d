import ScriptCore.Native.Receiver

/-!
Handling signals from programs: registering and clearing handlers, and raising a signal, which only
marks it as pending.
-/

namespace ScriptCore

namespace Signalling

/-- Sets the handler of the named signal. -/
def register (name : String) (handler : Ref .function) : Action Unit := do
  let signal ← Action.check (OsSignal.ofName name)
  modify fun m => { m with signals := m.signals.register signal handler }

/-- Removes the handler of the named signal and tells whether there was one. -/
def clear (name : String) : Action Bool := do
  let signal ← Action.check (OsSignal.ofName name)
  let m ← get
  set { m with signals := m.signals.unregister signal }
  pure (m.signals.handler? signal).isSome

/-- Marks the named signal as pending. -/
def raise (name : String) : Action Unit := do
  let signal ← Action.check (OsSignal.ofName name)
  modify fun m =>
    { m with signals := m.signals.raise signal, journal := .raised signal :: m.journal }

/-- Whether the named signal is pending; a signal that is not supported never is. -/
def isPending (name : String) : Action Bool := do
  let m ← get
  pure ((OsSignal.ofName? name).any m.signals.isPending)

end Signalling

namespace SignalFunction

/-- The functions in the order in which the package binds them. -/
def all : List SignalFunction := [on, clear, raise, supported]

def name : SignalFunction → String
  | on => "on"
  | clear => "clear"
  | raise => "raise"
  | supported => "supported"

/-- How many arguments a function takes. -/
def checkCount (function : SignalFunction) (got : Nat) : Except Cause Unit :=
  match function with
  | on => Arguments.exactly function.name 2 got
  | clear | raise => Arguments.exactly function.name 1 got
  | supported => Arguments.exactly function.name 0 got

/-- Calls a function of the signals package. -/
def call (function : SignalFunction) (args : List Value) : Action Value := do
  Action.check (function.checkCount args.length)
  match function with
  | on =>
    let signal ← Action.check (Arguments.text function.name args 0)
    let handler ← Action.check (Arguments.function function.name args 1)
    Signalling.register signal handler
    pure .null
  | clear =>
    let signal ← Action.check (Arguments.text function.name args 0)
    let removed ← Signalling.clear signal
    pure (.boolean removed)
  | raise =>
    let signal ← Action.check (Arguments.text function.name args 0)
    Signalling.raise signal
    pure .null
  | supported => Action.newArray (OsSignal.all.map fun signal => .text signal.name)

end SignalFunction

end ScriptCore
