import ScriptCore.Number.Binary64

/-!
The fewest decimal digits that name a number.

A positive finite number is the nearest double to a whole interval of reals. Among the decimal
grids of one digit, two digits, and so on, the first grid with a point inside that interval gives
the digits, and of two points inside the nearer one, an exact tie going up. All comparisons are on
integers over one common denominator.
-/

namespace ScriptCore

/-- A positive decimal `coefficient * 10 ^ exponent`. -/
structure Decimal where
  coefficient : Nat
  exponent : Int
  deriving DecidableEq, Repr

namespace Shortest

/-- A number and the ends of its rounding interval over one common denominator. The ends belong to
the interval when `closed` holds, which is so for an even significand. -/
structure Interval where
  lower : Nat
  value : Nat
  upper : Nat
  denominator : Nat
  closed : Bool

/-- The rounding interval of a positive finite number. The gap below a power of two is half the
gap above it, unless the number is among the smallest ones. -/
def Interval.ofNumber (x : Binary64) : Interval :=
  let unit := if 0 ≤ x.exponent then Nat.pow 2 x.exponent.toNat else 1
  let denominator := if 0 ≤ x.exponent then 1 else Nat.pow 2 (-x.exponent).toNat
  let atPower := x.significand = Binary64.exponentWeight && decide (-1074 < x.exponent)
  let below := if atPower then 1 else 2
  { lower := (4 * x.significand - below) * unit
    value := 4 * x.significand * unit
    upper := (4 * x.significand + 2) * unit
    denominator := 4 * denominator
    closed := x.significand % 2 = 0 }

/-- The interval measured in units of `10 ^ power`. -/
def Interval.inUnits (i : Interval) (power : Int) : Interval :=
  if 0 ≤ power then { i with denominator := i.denominator * Nat.pow 10 power.toNat }
  else
    let factor := Nat.pow 10 (-power).toNat
    { i with lower := i.lower * factor, value := i.value * factor, upper := i.upper * factor }

/-- Whether a whole number of units lies in the interval. -/
def Interval.has (i : Interval) (n : Nat) : Bool :=
  let point := n * i.denominator
  if i.closed then decide (i.lower ≤ point ∧ point ≤ i.upper)
  else decide (i.lower < point ∧ point < i.upper)

/-- The whole number of units in the interval that is nearest to the value, if there is one. -/
def Interval.nearest? (i : Interval) : Option Nat :=
  let floor := i.value / i.denominator
  let rest := i.value % i.denominator
  match i.has floor, i.has (floor + 1) with
  | true, true => some (if 2 * rest < i.denominator then floor else floor + 1)
  | true, false => some floor
  | false, true => some (floor + 1)
  | false, false => none

/-- How many decimal digits stand before the point of a positive ratio; for a ratio below one,
minus the number of zeros that follow the point. The first argument bounds the search. -/
def leadingPlace : Nat → Nat → Nat → Int
  | 0, _, _ => 0
  | steps + 1, num, den =>
    if den ≤ num then ((Nat.toDigits 10 (num / den)).length : Int)
    else leadingPlace steps (num * 10) den - 1

/-- The first of `remaining` grids, from that of `digits` digits on, with a point in the
interval. -/
def search (i : Interval) (place : Int) : Nat → Nat → Option Decimal
  | 0, _ => none
  | remaining + 1, digits =>
    let power := place - (digits : Int)
    match (i.inUnits power).nearest? with
    | some n => some ⟨n, power⟩
    | none => search i place remaining (digits + 1)

end Shortest

/-- The shortest decimal that reads back as the given number, nearest to it among the decimals of
that length. The search starts at the power of ten above the number, which can be the nearest
decimal too. The sign is left out; the number has to be finite and other than zero. -/
def Binary64.shortest (x : Binary64) : Decimal :=
  let interval := Shortest.Interval.ofNumber x
  let place := Shortest.leadingPlace 400 interval.value interval.denominator
  (Shortest.search interval place 18 0).getD ⟨0, 0⟩

end ScriptCore
