import ScriptCore.Fault
import ScriptCore.Text.Basic

/-!
The default order of values, and the order that a comparator's result stands for.

Values are ordered by the class of their type first: numbers, strings, booleans, null, references.
Numbers, strings and booleans have their natural order, with NaN behind every other number;
references are grouped by type and then ordered by age.
-/

namespace ScriptCore

/-- The class of a value's type in the default order. -/
def Value.typeRank : Value → Nat
  | number _ => 0
  | text _ => 1
  | boolean _ => 2
  | null => 3
  | _ => 4

/-- The order of numbers in which NaN comes last. -/
def Binary64.compareNaNLast (x y : Binary64) : Ordering :=
  match x.isNaN, y.isNaN with
  | true, true => .eq
  | true, false => .gt
  | false, true => .lt
  | false, false => compare x.orderKey y.orderKey

/-- The age of a reference; other values have none. -/
def Value.age (v : Value) : Nat := (v.identity.map Identity.index).getD 0

/-- The default order of values. -/
def Value.defaultCompare (a b : Value) : Ordering :=
  match a, b with
  | number x, number y => x.compareNaNLast y
  | text x, text y => compare x y
  | boolean x, boolean y => compare x.toNat y.toNat
  | _, _ =>
    ((compare a.typeRank b.typeRank).then (compare a.typeName b.typeName)).then
      (compare a.age b.age)

/-- The number that a comparator's result stands for: a number for itself, a boolean for 1 or -1,
a string for the numeral that it holds between blanks. -/
def Value.comparatorNumber (v : Value) : Except Cause Binary64 :=
  match v with
  | number n => .ok n
  | boolean b => .ok (Binary64.ofInt (if b then 1 else -1))
  | text s =>
    match Binary64.ofText? (Text.trim s) with
    | some n => .ok n
    | none => .error (.typeMismatch "comparator result" "number" "non-numeric string")
  | other => .error (.mismatch "comparator result" "number" other)

/-- The order that the sign of a number stands for; NaN stands for equality. -/
def Binary64.signOrder (n : Binary64) : Ordering :=
  if n.numLt .zero then .lt else if Binary64.zero.numLt n then .gt else .eq

/-- The order that a comparator's result stands for. -/
def Value.comparatorOrder (v : Value) : Except Cause Ordering :=
  v.comparatorNumber.map Binary64.signOrder

end ScriptCore
