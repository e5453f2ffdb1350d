/-!
Fingerprints: numbers that tell keys apart quickly.

A fingerprint is a function of its key alone. Different keys mostly have different fingerprints;
only speed relies on that.
-/

namespace ScriptCore

/-- Types whose values have fingerprints. -/
class Fingerprint (K : Type) where
  fingerprint : K → Nat

namespace Fingerprint

/-- The number of bits in a fingerprint. -/
def width : Nat := 32

/-- Fingerprints are below this bound. -/
def range : Nat := Nat.pow 2 width

/-- Takes one more number into a fingerprint. -/
def mix (print part : Nat) : Nat := (print * 31 + part % range) % range * 1540483477 % range

/-- Takes the two halves of a word into a fingerprint. -/
def ofWord (print : Nat) (word : UInt64) : Nat :=
  mix (mix print (word >>> 32).toNat) (word &&& 4294967295).toNat

/-- Takes the characters of a text into a fingerprint, in order. -/
def ofText (print : Nat) (s : String) : Nat :=
  s.toList.foldl (fun print c => mix print c.toNat) print

instance : Fingerprint String := ⟨ofText 0⟩

/-- Whether a fingerprint has the bit at a place, counted from the highest one. -/
def bit (print place : Nat) : Bool := print.testBit (width - 1 - place)

end Fingerprint

end ScriptCore
