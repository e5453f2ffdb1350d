/-!
Double-precision numbers as their 64 bits, computed with integers only.

A number is a sign, eleven exponent bits and 52 fraction bits. Classification, the two orders
(numeric order, in which the zeros agree and NaN stands apart, and the total order on all bit
patterns), rounding of an exact ratio to the nearest number, and the arithmetic built on that
rounding are all defined here by integer arithmetic, so that each of them can be computed and
reasoned about in the logic.
-/

namespace ScriptCore

/-- A double-precision number is its 64 bits: the sign, then the exponent, then the fraction. -/
structure Binary64 where
  bits : UInt64
  deriving DecidableEq, Repr

namespace Binary64

/-! ### The parts of a number -/

/-- Weight of the sign bit. -/
def signWeight : Nat := Nat.pow 2 63

/-- Weight of the lowest exponent bit. -/
def exponentWeight : Nat := Nat.pow 2 52

/-- The magnitude of an infinity; every greater magnitude is a NaN. -/
def infiniteMagnitude : Nat := 2047 * exponentWeight

/-- The number with the given sign and the given exponent and fraction bits. -/
def ofParts (negative : Bool) (magnitude : Nat) : Binary64 :=
  ⟨UInt64.ofNat (if negative then signWeight + magnitude else magnitude)⟩

/-- The sign bit. -/
def negative (x : Binary64) : Bool := decide (signWeight ≤ x.bits.toNat)

/-- The exponent and fraction bits, read as one natural number. -/
def magnitude (x : Binary64) : Nat := x.bits.toNat % signWeight

def isNaN (x : Binary64) : Bool := decide (infiniteMagnitude < x.magnitude)

def isInfinite (x : Binary64) : Bool := decide (x.magnitude = infiniteMagnitude)

def isZero (x : Binary64) : Bool := decide (x.magnitude = 0)

/-- Positive zero. -/
def zero : Binary64 := ofParts false 0

def infinity (negative : Bool) : Binary64 := ofParts negative infiniteMagnitude

/-- The NaN that stands for all of them: positive, quiet, no payload. -/
def nan : Binary64 := ofParts false (infiniteMagnitude + exponentWeight / 2)

/-- The number with the opposite sign bit. -/
def neg (x : Binary64) : Binary64 := ofParts (!x.negative) x.magnitude

/-- A finite number is `significand * 2 ^ exponent`, up to its sign. -/
def significand (x : Binary64) : Nat :=
  if x.magnitude / exponentWeight = 0 then x.magnitude % exponentWeight
  else exponentWeight + x.magnitude % exponentWeight

/-- The binary exponent that goes with `significand`. -/
def exponent (x : Binary64) : Int :=
  if x.magnitude / exponentWeight = 0 then -1074
  else ((x.magnitude / exponentWeight : Nat) : Int) - 1075

/-! ### The numeric order and the total order -/

/-- Orders the numbers other than NaN; both zeros have the key zero. -/
def orderKey (x : Binary64) : Int := if x.negative then -(x.magnitude : Int) else x.magnitude

/-- Orders all bit patterns: negative NaN, negative numbers, `-0`, `0`, positive numbers, NaN. -/
def totalKey (x : Binary64) : Int := if x.negative then -(x.magnitude : Int) - 1 else x.magnitude

/-- Numeric equality: the zeros are equal and NaN equals nothing. -/
def numEq (x y : Binary64) : Bool :=
  !x.isNaN && !y.isNaN && decide (x.orderKey = y.orderKey)

/-- Numeric order: false as soon as one side is NaN. -/
def numLt (x y : Binary64) : Bool :=
  !x.isNaN && !y.isNaN && decide (x.orderKey < y.orderKey)

/-- One representative of every class of numbers that a key does not tell apart: the zeros become
`0` and every NaN becomes `nan`. -/
def normalize (x : Binary64) : Binary64 :=
  if x.isNaN then nan else if x.isZero then zero else x

/-! ### Rounding an exact ratio -/

/-- The integer nearest to `num / den`; a half goes to the even neighbour. -/
def roundHalfEven (num den : Nat) : Nat :=
  let floor := num / den
  let rest := num % den
  if 2 * rest < den then floor
  else if den < 2 * rest then floor + 1
  else if floor % 2 = 0 then floor
  else floor + 1

/-- `num * 2 ^ shift` over `den`, with a negative shift moved to the denominator. -/
def scaleRatio (num den : Nat) (shift : Int) : Nat × Nat :=
  if 0 ≤ shift then (num * Nat.pow 2 shift.toNat, den) else (num, den * Nat.pow 2 (-shift).toNat)

/-- The exponent `e` with `2 ^ e ≤ num / den < 2 ^ (e + 1)`, for a positive ratio. -/
def binaryExponent (num den : Nat) : Int :=
  let guess : Int := (num.log2 : Int) - (den.log2 : Int)
  let (top, bottom) := scaleRatio num den (-guess)
  if top < bottom then guess - 1 else guess

/-- The number nearest to `num / den` with the given sign, ties to even. Ratios too great for a
finite number give an infinity, and the smallest ones a zero. -/
def ofRatio (negative : Bool) (num den : Nat) : Binary64 :=
  if num = 0 then ofParts negative 0
  else
    let quantum := max (binaryExponent num den - 52) (-1074)
    let (top, bottom) := scaleRatio num den (-quantum)
    let magnitude := (quantum + 1074).toNat * exponentWeight + roundHalfEven top bottom
    ofParts negative (min magnitude infiniteMagnitude)

/-- The number nearest to `coefficient * 2 ^ shift`. -/
def ofScaled (negative : Bool) (coefficient : Nat) (shift : Int) : Binary64 :=
  let (num, den) := scaleRatio coefficient 1 shift
  ofRatio negative num den

/-- The number nearest to an integer. -/
def ofInt (n : Int) : Binary64 := ofRatio (decide (n < 0)) n.natAbs 1

/-- The number nearest to a natural number. -/
def ofNat (n : Nat) : Binary64 := ofRatio false n 1

/-- The integer that a finite number equals, if it is integral. Both zeros give `0`. -/
def toInt? (x : Binary64) : Option Int :=
  if infiniteMagnitude ≤ x.magnitude then none
  else
    let (num, den) := scaleRatio x.significand 1 x.exponent
    if num % den = 0 then
      some (if x.negative then -((num / den : Nat) : Int) else ((num / den : Nat) : Int))
    else none

/-! ### Arithmetic -/

/-- The significand with its sign, moved to a smaller or equal exponent. -/
def alignedSignificand (x : Binary64) (target : Int) : Int :=
  let shifted : Int := ((x.significand * Nat.pow 2 (x.exponent - target).toNat : Nat) : Int)
  if x.negative then -shifted else shifted

/-- The quiet form of a NaN: the highest fraction bit set, sign and payload kept. -/
def quieted (x : Binary64) : Binary64 :=
  if x.magnitude < infiniteMagnitude + exponentWeight / 2 then
    ofParts x.negative (x.magnitude + exponentWeight / 2)
  else x

/-- The NaN of an operation that has no result, such as the sum of opposite infinities: negative,
quiet, no payload. -/
def invalid : Binary64 := nan.neg

/-- The sum, rounded once. An exact zero is negative only if both operands are. The first operand
that is a NaN is the result, made quiet. -/
def add (x y : Binary64) : Binary64 :=
  if x.isNaN then x.quieted
  else if y.isNaN then y.quieted
  else if x.isInfinite then
    if y.isInfinite && x.negative != y.negative then invalid else x
  else if y.isInfinite then y
  else
    let target := min x.exponent y.exponent
    let total := x.alignedSignificand target + y.alignedSignificand target
    if total = 0 then ofParts (x.negative && y.negative) 0
    else ofScaled (decide (total < 0)) total.natAbs target

/-- The difference, rounded once. A NaN keeps its sign. -/
def sub (x y : Binary64) : Binary64 := add x (if y.isNaN then y else y.neg)

/-- The product, rounded once. The first operand that is a NaN is the result, made quiet. -/
def mul (x y : Binary64) : Binary64 :=
  let sign := x.negative != y.negative
  if x.isNaN then x.quieted
  else if y.isNaN then y.quieted
  else if x.isInfinite || y.isInfinite then
    if x.isZero || y.isZero then invalid else infinity sign
  else ofScaled sign (x.significand * y.significand) (x.exponent + y.exponent)

end Binary64

end ScriptCore
