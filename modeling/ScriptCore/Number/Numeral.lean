import ScriptCore.Number.Shortest

/-!
The text of a number, and the number that a text names.

A number is written without an exponent: whole numbers below ten to the sixteenth in full, all
others with the fewest digits that read back. A text names a number if it is a decimal numeral
(an optional sign, digits with an optional point, an optional exponent) or one of the words for
infinity and NaN in any case; it names the double nearest to what is written.
-/

namespace ScriptCore

/-- The digits of a decimal around its point, padded with zeros where the point lies outside. -/
def Decimal.positional (d : Decimal) : String :=
  let digits := Nat.toDigits 10 d.coefficient
  if 0 ≤ d.exponent then String.ofList (digits ++ List.replicate d.exponent.toNat '0')
  else
    let places := (-d.exponent).toNat
    if places < digits.length then
      String.ofList (digits.take (digits.length - places) ++ '.' ::
        digits.drop (digits.length - places))
    else
      String.ofList ('0' :: '.' :: List.replicate (places - digits.length) '0' ++ digits)

namespace Binary64

/-- Whole numbers below this bound are written in full. -/
def wholeBound : Nat := Nat.pow 10 16

/-- The text of a number. Both zeros read `0`. -/
def text (x : Binary64) : String :=
  if x.isNaN then "NaN"
  else if x.isInfinite then (if x.negative then "-Infinity" else "Infinity")
  else
    let sign := if x.negative && !x.isZero then "-" else ""
    match x.toInt? with
    | some n =>
      if n.natAbs < wholeBound then sign ++ String.ofList (Nat.toDigits 10 n.natAbs)
      else sign ++ x.shortest.positional
    | none => sign ++ x.shortest.positional

end Binary64

/-! ### Reading -/

namespace Numeral

/-- The number that a decimal digit stands for. -/
def digitValue (c : Char) : Nat := c.toNat - '0'.toNat

/-- Runs up to this length are read digit by digit. -/
def shortRun : Nat := 64

/-- The value of a run of decimal digits, from the values of its halves with at most the given
number of halvings on top of one another. -/
def natOfDigitsWithin : Nat → List Char → Nat
  | 0, digits => digits.foldl (fun n c => n * 10 + digitValue c) 0
  | halvings + 1, digits =>
    if digits.length ≤ shortRun then digits.foldl (fun n c => n * 10 + digitValue c) 0
    else
      let high := digits.take (digits.length / 2)
      let low := digits.drop (digits.length / 2)
      natOfDigitsWithin halvings high * Nat.pow 10 low.length + natOfDigitsWithin halvings low

/-- The value of a run of decimal digits. -/
def natOfDigits (digits : List Char) : Nat := natOfDigitsWithin digits.length digits

/-- Splits off an optional sign; the flag tells whether it was a minus. -/
def splitSign : List Char → Bool × List Char
  | '+' :: rest => (false, rest)
  | '-' :: rest => (true, rest)
  | rest => (false, rest)

/-- An exponent that has come to this bound takes no further digits. -/
def exponentBound : Nat := Nat.pow 2 16

/-- The size of a written exponent: the value of its digits up to the one with which it comes to the
bound. -/
def exponentOfDigits (digits : List Char) : Nat :=
  digits.foldl (fun n c => if n < exponentBound then n * 10 + digitValue c else n) 0

/-- An exponent: a nonempty run of digits with an optional sign, and nothing else. -/
def readExponent? (cs : List Char) : Option Int :=
  let (negative, digits) := splitSign cs
  if digits.isEmpty || !digits.all Char.isDigit then none
  else
    let size : Int := exponentOfDigits digits
    some (if negative then -size else size)

/-- A nonempty run of digits with an optional plus sign, below two to the 64th. -/
def readWord? (cs : List Char) : Option Nat :=
  let digits := match cs with
    | '+' :: rest => rest
    | _ => cs
  if digits.isEmpty || !digits.all Char.isDigit then none
  else
    let n := natOfDigits digits
    if n < Nat.pow 2 64 then some n else none

/-- The double nearest to `coefficient * 10 ^ exponent`, where the coefficient has so many digits.
Values out of the range of doubles are settled without computing the power. -/
def ofCounted (negative : Bool) (coefficient count : Nat) (exponent : Int) : Binary64 :=
  let place : Int := count + exponent
  if coefficient = 0 then Binary64.ofParts negative 0
  else if 310 < place then Binary64.infinity negative
  else if place < -330 then Binary64.ofParts negative 0
  else if 0 ≤ exponent then
    Binary64.ofRatio negative (coefficient * Nat.pow 10 exponent.toNat) 1
  else Binary64.ofRatio negative coefficient (Nat.pow 10 (-exponent).toNat)

/-- The double nearest to `coefficient * 10 ^ exponent`. -/
def ofDecimal (negative : Bool) (coefficient : Nat) (exponent : Int) : Binary64 :=
  ofCounted negative coefficient (Nat.toDigits 10 coefficient).length exponent

/-- The double nearest to a run of digits as a whole number times `10 ^ exponent`. -/
def ofDigits (negative : Bool) (digits : List Char) (exponent : Int) : Binary64 :=
  let significant := digits.dropWhile (· = '0')
  ofCounted negative (natOfDigits significant) significant.length exponent

/-- An unsigned numeral: digits with an optional point among or around them, at least one digit,
then an optional exponent. -/
def readUnsigned? (negative : Bool) (cs : List Char) : Option Binary64 :=
  let whole := cs.takeWhile Char.isDigit
  let afterWhole := cs.dropWhile Char.isDigit
  let (fraction, rest) := match afterWhole with
    | '.' :: tail => (tail.takeWhile Char.isDigit, tail.dropWhile Char.isDigit)
    | _ => ([], afterWhole)
  if whole.isEmpty && fraction.isEmpty then none
  else
    let digits := whole ++ fraction
    let shift : Int := -(fraction.length : Int)
    match rest with
    | [] => some (ofDigits negative digits shift)
    | mark :: tail =>
      if mark = 'e' || mark = 'E' then
        (readExponent? tail).map fun power => ofDigits negative digits (power + shift)
      else none

end Numeral

/-- The double that a text names, if it names one. No blank is allowed anywhere. -/
def Binary64.ofText? (s : String) : Option Binary64 :=
  let (negative, cs) := Numeral.splitSign s.toList
  let word := String.ofList (cs.map Char.toLower)
  if word = "inf" || word = "infinity" then some (Binary64.infinity negative)
  else if word = "nan" then some Binary64.nan
  else Numeral.readUnsigned? negative cs

end ScriptCore
