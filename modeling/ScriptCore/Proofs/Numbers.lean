import Mathlib.Data.List.Basic
import ScriptCore.Number.Binary64

/-!
Numeric equality of numbers and their representatives.

A number is determined by its sign and its magnitude. Numbers that are not NaN are equal if they are
both zeros or the same number, and exactly then they have the same representative.
-/

namespace ScriptCore.Binary64

theorem eq_of_parts {x y : Binary64} (sign : x.negative = y.negative)
    (size : x.magnitude = y.magnitude) : x = y := by
  obtain ⟨x⟩ := x
  obtain ⟨y⟩ := y
  have weight : signWeight = 9223372036854775808 := by decide
  have sign := decide_eq_decide.1 sign
  have boundX := x.toNat_lt
  have boundY := y.toNat_lt
  simp only [magnitude, weight] at sign size
  rw [mk.injEq, ← UInt64.toNat_inj]
  omega

/-! ### Parts -/

theorem magnitude_lt (x : Binary64) : x.magnitude < signWeight :=
  Nat.mod_lt _ (by decide)

theorem toNat_ofParts (negative : Bool) {magnitude : Nat} (small : magnitude < signWeight) :
    (ofParts negative magnitude).bits.toNat =
      if negative then signWeight + magnitude else magnitude := by
  have weight : signWeight = 9223372036854775808 := by decide
  rw [weight] at small ⊢
  cases negative <;> simp only [ofParts, weight, UInt64.toNat_ofNat'] <;> simp <;> omega

theorem negative_ofParts (negative : Bool) {magnitude : Nat} (small : magnitude < signWeight) :
    (ofParts negative magnitude).negative = negative := by
  rw [Binary64.negative, toNat_ofParts negative small]
  cases negative <;> simp [small]

theorem magnitude_ofParts (negative : Bool) {magnitude : Nat} (small : magnitude < signWeight) :
    (ofParts negative magnitude).magnitude = magnitude := by
  rw [Binary64.magnitude, toNat_ofParts negative small]
  cases negative <;> simp [Nat.mod_eq_of_lt small]

theorem negative_neg (x : Binary64) : x.neg.negative = !x.negative :=
  negative_ofParts _ x.magnitude_lt

theorem magnitude_neg (x : Binary64) : x.neg.magnitude = x.magnitude :=
  magnitude_ofParts _ x.magnitude_lt

/-! ### Orders -/

theorem orderKey_neg (x : Binary64) : x.neg.orderKey = -x.orderKey := by
  unfold orderKey
  rw [negative_neg, magnitude_neg]
  cases x.negative
  · rfl
  · exact (Int.neg_neg _).symm

theorem orderKey_eq_zero_iff (x : Binary64) : x.orderKey = 0 ↔ x.magnitude = 0 := by
  unfold orderKey
  split <;> omega

/-- The total order makes room for negative zero by moving the negative numbers down. -/
theorem totalKey_of_ne_zero {x : Binary64} (nonzero : x.orderKey ≠ 0) :
    x.totalKey = if x.orderKey < 0 then x.orderKey - 1 else x.orderKey := by
  unfold totalKey orderKey at *
  by_cases negative : x.negative = true
  · rw [if_pos negative] at *
    rw [if_pos negative, if_pos (by omega)]
  · rw [if_neg negative] at *
    rw [if_neg negative, if_neg (by omega)]

/-! ### Representatives -/

theorem isNaN_normalize (x : Binary64) : x.normalize.isNaN = x.isNaN := by
  cases nan : x.isNaN with
  | true => rw [normalize, if_pos nan]; decide
  | false =>
    rw [normalize, if_neg (by simp [nan])]
    split
    · decide
    · exact nan

theorem normalize_normalize (x : Binary64) : x.normalize.normalize = x.normalize := by
  by_cases nan : x.isNaN = true
  · have canonical : x.normalize = Binary64.nan := by rw [normalize, if_pos nan]
    rw [canonical]
    decide
  · by_cases isZero : x.isZero = true
    · have canonical : x.normalize = zero := by rw [normalize, if_neg nan, if_pos isZero]
      rw [canonical]
      decide
    · have canonical : x.normalize = x := by rw [normalize, if_neg nan, if_neg isZero]
      rw [canonical, canonical]

/-- Two numbers of the same order position are both zeros or the same number. -/
theorem orderKey_eq_iff (x y : Binary64) :
    x.orderKey = y.orderKey ↔ x.magnitude = 0 ∧ y.magnitude = 0 ∨ x = y := by
  constructor
  · intro same
    by_cases zero : x.magnitude = 0 ∧ y.magnitude = 0
    · exact .inl zero
    have parts : x.negative = y.negative ∧ x.magnitude = y.magnitude := by
      cases sign : x.negative <;> cases sign' : y.negative <;>
        simp only [orderKey, sign, sign', Bool.false_eq_true, if_true, if_false] at same
      · exact ⟨rfl, by omega⟩
      · omega
      · omega
      · exact ⟨rfl, by omega⟩
    exact .inr (eq_of_parts parts.1 parts.2)
  · rintro (⟨zero, zero'⟩ | rfl)
    · simp [orderKey, zero, zero']
    · rfl

theorem numEq_iff (x y : Binary64) :
    x.numEq y = true ↔ x.isNaN = false ∧ y.isNaN = false ∧ x.orderKey = y.orderKey := by
  simp [numEq, and_assoc]

/-- A number that is not NaN shares its representative exactly with the numbers that it equals. -/
theorem normalize_eq_iff {x : Binary64} (number : x.isNaN = false) (y : Binary64) :
    x.normalize = y.normalize ↔ x.numEq y = true := by
  cases nan : y.isNaN with
  | true =>
    have apart : x.normalize ≠ y.normalize := by
      intro same
      have := congrArg isNaN same
      rw [isNaN_normalize, isNaN_normalize, number, nan] at this
      cases this
    simp [apart, numEq, nan]
  | false =>
    have zeroIsZero : zero.magnitude = 0 := by decide
    simp only [normalize, numEq, number, nan, isZero, orderKey_eq_iff, Bool.false_eq_true, if_false,
      Bool.not_false, Bool.true_and, decide_eq_true_iff]
    by_cases zeroX : x.magnitude = 0 <;> by_cases zeroY : y.magnitude = 0
    · simp [zeroX, zeroY]
    · have apart : x ≠ y := fun same => zeroY (same ▸ zeroX)
      have notZero : zero ≠ y := fun same => zeroY (same ▸ zeroIsZero)
      simp [zeroX, zeroY, apart, notZero]
    · have apart : x ≠ y := fun same => zeroX (same ▸ zeroY)
      have notZero : x ≠ zero := fun same => zeroX (same ▸ zeroIsZero)
      simp [zeroX, zeroY, apart, notZero]
    · simp [zeroX, zeroY]

end ScriptCore.Binary64
