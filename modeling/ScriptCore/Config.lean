import ScriptCore.Number.Numeral
import ScriptCore.Text.Basic

/-!
The two settings of an interpreter, and texts that override them.
-/

namespace ScriptCore

/-- How deep calls may nest, and whether every call polls for pending signals. -/
structure Config where
  maxCallDepth : Option Nat := none
  signalPolling : Bool := true
  deriving DecidableEq, Repr

namespace Config

/-- The depth that a text sets: a positive whole number of at most 64 bits, blanks around it. -/
def readDepth? (text : String) : Option Nat :=
  match Numeral.readWord? (Text.trimChars text.toList) with
  | some depth => if 0 < depth then some depth else none
  | none => none

/-- The switch that a text sets, in any case and with blanks around it. -/
def readSwitch? (text : String) : Option Bool :=
  let word := String.ofList ((Text.trimChars text.toList).map Char.toLower)
  if word = "0" || word = "false" || word = "off" || word = "no" then some false
  else if word = "1" || word = "true" || word = "on" || word = "yes" then some true
  else none

/-- The settings after overriding; a text that sets nothing is ignored. -/
def withOverrides (config : Config) (depth polling : Option String) : Config :=
  { maxCallDepth := (depth.bind readDepth?).or config.maxCallDepth
    signalPolling := (polling.bind readSwitch?).getD config.signalPolling }

end Config

end ScriptCore
