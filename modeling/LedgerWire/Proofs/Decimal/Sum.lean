import LedgerWire.Proofs.Decimal.Rounding

namespace LedgerWire.Decimal

open Positional

/-!
Sums and products. A sum is exact while all digits of both operands lie in the window that ends 35
places below the higher leading digit. Digits below the window are rounded away, or dropped with
the whole operand; what is lost is less than the window's unit, too little to change a result of
few digits.
-/

/-- At most 38 digits, all of them at exponents far from both ends of the range. -/
structure Moderate (decimal : Decimal) : Prop where
  narrow : decimal.precision ≤ 38
  lower : minimumExponent + 100 ≤ decimal.exponent
  upper : decimal.exponent + 100 ≤ maximumExponent

/-- Every digit stands in the 38 places from an exponent on. -/
structure InWindow (low : ℤ) (decimal : Decimal) : Prop where
  lower : low ≤ decimal.exponent
  upper : decimal.exponent + decimal.precision ≤ low + 38

section Moderate

variable {decimal : Decimal} (moderate : decimal.Moderate)

include moderate

theorem Moderate.inRange : decimal.InRange := by
  obtain ⟨narrow, lower, upper⟩ := moderate
  exact ⟨by omega, by omega⟩

theorem Moderate.negate : decimal.negate.Moderate := by
  rw [Decimal.negate]
  split
  · exact moderate
  · exact ⟨moderate.narrow, moderate.lower, moderate.upper⟩

theorem Moderate.abs : decimal.abs.Moderate :=
  ⟨moderate.narrow, moderate.lower, moderate.upper⟩

theorem Moderate.leadingExponent :
    decimal.leadingExponent = decimal.exponent + decimal.precision - 1 := by
  obtain ⟨narrow, lower, upper⟩ := moderate
  simp only [minimumExponent, maximumExponent] at lower upper
  rw [Decimal.leadingExponent, clamp_of_small (by omega)]
  omega

end Moderate

section Aligned

variable {big small : Decimal} {low exponent : ℤ}

theorem magnitude_aligned (decimal : Decimal) (below : exponent ≤ decimal.exponent)
    (near : decimal.exponent ≤ exponent + 38) : decimal.magnitude =
      (decimal.mantissa * alignFactor (decimal.exponent - exponent).toNat : Nat) * 10 ^ exponent := by
  rw [alignFactor, if_pos (by omega), scaled_mul_ten_zpow, magnitude]
  congr 2
  omega

theorem aligned_lt {decimal : Decimal} (inside : decimal.InWindow low) (above : low ≤ exponent)
    (below : exponent ≤ decimal.exponent) :
    decimal.mantissa * alignFactor (decimal.exponent - exponent).toNat < weight 10 38 := by
  obtain ⟨lower, upper⟩ := inside
  have mantissa := lt_weight_decimalLength decimal.mantissa
  have unit := weight_pos (by decide : 0 < 10) (decimal.exponent - exponent).toNat
  rw [alignFactor, if_pos (by omega)]
  calc decimal.mantissa * weight 10 (decimal.exponent - exponent).toNat
      < weight 10 decimal.precision * weight 10 (decimal.exponent - exponent).toNat :=
        Nat.mul_lt_mul_of_pos_right mantissa unit
    _ = weight 10 (decimal.precision + (decimal.exponent - exponent).toNat) := (weight_add ..).symm
    _ ≤ weight 10 38 := weight_mono (by decide) (by omega)

/-- Numbers in one window are added exactly. -/
theorem toRat_addAligned (bigInside : big.InWindow low) (smallInside : small.InWindow low)
    (lower : minimumExponent ≤ low) (upper : low + 80 ≤ maximumExponent) :
    (big.addAligned small).toRat = big.toRat + small.toRat := by
  have above : low ≤ min big.exponent small.exponent := le_min bigInside.lower smallInside.lower
  have bigBelow := min_le_left big.exponent small.exponent
  have smallBelow := min_le_right big.exponent small.exponent
  have bigUpper := bigInside.upper
  have smallUpper := smallInside.upper
  have bigMagnitude := big.magnitude_aligned bigBelow (by omega)
  have smallMagnitude := small.magnitude_aligned smallBelow (by omega)
  have bigShort := aligned_lt bigInside above bigBelow
  have smallShort := aligned_lt smallInside above smallBelow
  have normalised (negative : Bool) {mantissa : Nat} (short : mantissa < 2 * weight 10 38) :
      (normal negative mantissa (min big.exponent small.exponent)).toRat =
        signed negative (mantissa * 10 ^ min big.exponent small.exponent) := by
    have wide : 2 * weight 10 38 ≤ weight 10 39 := by decide
    have length := decimalLength_le_iff.mpr (short.trans_le wide)
    exact toRat_normal negative (by omega) (by omega)
  rw [toRat.eq_def big, toRat.eq_def small, bigMagnitude, smallMagnitude]
  simp only [addAligned]
  -- From here on only the sizes of the aligned mantissas matter.
  generalize big.mantissa * alignFactor (big.exponent - min big.exponent small.exponent).toNat =
    left at *
  generalize small.mantissa * alignFactor (small.exponent - min big.exponent small.exponent).toNat =
    right at *
  split
  · rename_i same
    rw [normalised _ (by omega), same, Nat.cast_add, add_mul, signed_add]
  · rename_i opposite
    have flipped : small.negative = !big.negative := by
      cases bigSign : big.negative <;> cases smallSign : small.negative <;>
        simp_all only [Bool.not_true, Bool.not_false, not_true_eq_false]
    rw [flipped, signed_not, ← sub_eq_add_neg]
    split
    · rename_i ordered
      rw [normalised _ (by omega), Nat.cast_sub ordered, sub_mul, signed_sub]
    · rename_i ordered
      rw [normalised _ (by omega), Nat.cast_sub (by omega), sub_mul, signed_not, signed_sub, neg_sub]

end Aligned

section Window

variable {decimal : Decimal} {low : ℤ}

/-- Cutting an operand rounds it to the window's unit. -/
theorem toRat_cutBelow (moderate : decimal.Moderate) (small : low.natAbs ≤ 2147483647) :
    (decimal.cutBelow low).toRat = nearest (10 ^ low) decimal.toRat := by
  rw [cutBelow]
  split
  · rw [clamp_of_small (by omega), toRat_roundScale moderate.inRange moderate.narrow
        (Or.inl (bounds_of_small (by omega)).2),
      nearestPlaces, neg_neg]
  · rename_i above
    obtain ⟨count, multiple⟩ := decimal.exists_multiple (not_lt.mp above)
    rw [multiple, nearest_multiple (ten_zpow_pos low)]

/-- A cut operand that does not vanish lies in the window. -/
theorem inWindow_cutBelow (normal : decimal.IsNormal) (moderate : decimal.Moderate)
    (small : low.natAbs ≤ 2147483647) (reach : decimal.exponent + decimal.precision ≤ low + 36)
    (nonzero : (decimal.cutBelow low).isZero = false) : (decimal.cutBelow low).InWindow low := by
  have rounded := toRat_cutBelow moderate small
  obtain ⟨count, multiple⟩ := exists_count (10 ^ low) decimal.toRat
  have below : |(decimal.cutBelow low).toRat| < 10 ^ (low + 38) := by
    have error := abs_nearest_sub_le (ten_zpow_pos low) decimal.toRat
    have size := decimal.magnitude_lt.trans_le (ten_zpow_mono reach)
    have width : (10 : ℚ) ^ (low + 38) = 10 ^ 2 * 10 ^ (low + 36) := ten_zpow_raise 2 (by omega)
    have unit : (10 : ℚ) ^ low ≤ 10 ^ (low + 36) := ten_zpow_mono (by omega)
    have triangle := abs_sub_abs_le_abs_sub (nearest (10 ^ low) decimal.toRat) decimal.toRat
    rw [abs_toRat] at triangle
    rw [rounded, width]
    linarith [ten_zpow_pos low]
  obtain ⟨least, greatest⟩ := (normal.cutBelow low).exponent_bounds nonzero
    (rounded.trans multiple) below
  exact ⟨least, greatest⟩

end Window

section Ordered

variable {big small : Decimal} (bigNormal : big.IsNormal) (smallNormal : small.IsNormal)
  (bigModerate : big.Moderate) (smallModerate : small.Moderate) (nonzero : big.isZero = false)
  (ordered : small.leadingExponent ≤ big.leadingExponent)

/-- The exponent of the lowest digit that a sum keeps. -/
def lowest (big : Decimal) : ℤ :=
  big.leadingExponent - 35

theorem Moderate.lowest_eq {decimal : Decimal} (moderate : decimal.Moderate) :
    decimal.lowest = decimal.exponent + decimal.precision - 36 := by
  rw [lowest, moderate.leadingExponent]
  omega

theorem Moderate.lowest_bounds {decimal : Decimal} (moderate : decimal.Moderate) :
    minimumExponent + 64 ≤ decimal.lowest ∧ decimal.lowest + 98 ≤ maximumExponent := by
  have lowest := moderate.lowest_eq
  obtain ⟨narrow, lower, upper⟩ := moderate
  omega

include bigModerate nonzero in
/-- Cutting below the window leaves the leading digit. -/
theorem cutBelow_lowest_nonzero : (big.cutBelow big.lowest).isZero = false := by
  obtain ⟨least, greatest⟩ := bigModerate.lowest_bounds
  simp only [minimumExponent, maximumExponent] at least greatest
  refine Bool.eq_false_iff.mpr fun vanished => ?_
  have digits : nearestDigits 36 big.toRat = nearest (10 ^ big.lowest) big.toRat := by
    rw [nearestDigits_of_log (log_toRat nonzero), bigModerate.lowest_eq]
    congr 2
    push_cast
    ring
  refine nearestDigits_ne_zero (by decide : 0 < 36) (toRat_ne_zero nonzero) ?_
  rw [digits, ← toRat_cutBelow bigModerate (by omega), toRat_eq_zero_iff.mpr vanished]

include bigNormal smallNormal bigModerate smallModerate nonzero ordered

/-- A sum either drops the smaller operand, all of whose digits lie below the window, or adds the
operands rounded to the window's unit. -/
theorem addOrdered_cases :
    (big.addOrdered small = big ∧ small.magnitude < 10 ^ (big.lowest - 1)) ∨
      (big.addOrdered small).toRat =
        nearest (10 ^ big.lowest) big.toRat + nearest (10 ^ big.lowest) small.toRat := by
  have leading := bigModerate.leadingExponent
  have smallLeading := smallModerate.leadingExponent
  have lowest := bigModerate.lowest_eq
  obtain ⟨least, greatest⟩ := bigModerate.lowest_bounds
  have inside : big.lowest.natAbs ≤ 2147483600 := by
    simp only [minimumExponent, maximumExponent] at least greatest
    omega
  have low : clamp (big.leadingExponent - ((sumWidth : Int) - 1)) = big.lowest :=
    clamp_of_small (by simp only [sumWidth]; omega)
  simp only [addOrdered, low]
  rw [clamp_of_small (show (big.lowest - 1).natAbs ≤ 2147483647 by omega)]
  -- An operand below the window is dropped; else both are cut to the window and added.
  split
  · rename_i below
    refine Or.inl ⟨rfl, small.magnitude_lt.trans_le (ten_zpow_mono ?_)⟩
    omega
  · right
    have bigRounded := toRat_cutBelow bigModerate (show big.lowest.natAbs ≤ 2147483647 by omega)
    have smallRounded := toRat_cutBelow smallModerate (show big.lowest.natAbs ≤ 2147483647 by omega)
    rw [← bigRounded, ← smallRounded]
    split
    · rename_i vanished
      rw [toRat_eq_zero_iff.mpr vanished, add_zero]
    · rename_i remains
      exact toRat_addAligned
        (inWindow_cutBelow bigNormal bigModerate (by omega) (by omega)
          (cutBelow_lowest_nonzero bigModerate nonzero))
        (inWindow_cutBelow smallNormal smallModerate (by omega) (by omega)
          (Bool.eq_false_iff.mpr remains))
        (by omega) (by omega)

/-- A sum misses the exact one by at most the window's unit. -/
theorem abs_addOrdered_sub_le :
    |(big.addOrdered small).toRat - (big.toRat + small.toRat)| ≤ 10 ^ big.lowest := by
  have unit := ten_zpow_pos big.lowest
  rcases addOrdered_cases bigNormal smallNormal bigModerate smallModerate nonzero ordered with
    ⟨dropped, below⟩ | rounded
  · have lost : big.toRat - (big.toRat + small.toRat) = -small.toRat := by ring
    rw [dropped, lost, abs_neg, abs_toRat]
    exact below.le.trans (ten_zpow_mono (by omega))
  · have bigError := abs_nearest_sub_le unit big.toRat
    have smallError := abs_nearest_sub_le unit small.toRat
    rw [abs_le] at bigError smallError ⊢
    rw [rounded]
    constructor <;> linarith

/-- A smaller operand that reaches the window is not dropped. -/
theorem toRat_addOrdered_of_reaching (some : small.isZero = false)
    (reaches : big.lowest ≤ small.exponent + small.precision) : (big.addOrdered small).toRat =
      nearest (10 ^ big.lowest) big.toRat + nearest (10 ^ big.lowest) small.toRat := by
  rcases addOrdered_cases bigNormal smallNormal bigModerate smallModerate nonzero ordered with
    ⟨_, below⟩ | rounded
  · have atLeast := ten_zpow_le_magnitude some
    have high : (10 : ℚ) ^ (big.lowest - 1) ≤ 10 ^ (small.exponent + small.precision - 1) :=
      ten_zpow_mono (by omega)
    exact absurd (below.trans_le (high.trans atLeast)) (lt_irrefl _)
  · exact rounded

/-- A sum of numbers without digits below the window is exact. -/
theorem toRat_addOrdered (some : small.isZero = false) (bigAbove : big.lowest ≤ big.exponent)
    (smallAbove : big.lowest ≤ small.exponent) :
    (big.addOrdered small).toRat = big.toRat + small.toRat := by
  have unit := ten_zpow_pos big.lowest
  obtain ⟨bigCount, bigMultiple⟩ := big.exists_multiple bigAbove
  obtain ⟨smallCount, smallMultiple⟩ := small.exists_multiple smallAbove
  rw [toRat_addOrdered_of_reaching bigNormal smallNormal bigModerate smallModerate nonzero ordered
    some (by omega), bigMultiple, smallMultiple, nearest_multiple unit, nearest_multiple unit]

theorem abs_addOrdered_lt : |(big.addOrdered small).toRat| < 10 ^ (big.lowest + 37) := by
  have lowest := bigModerate.lowest_eq
  have leading := bigModerate.leadingExponent
  have smallLeading := smallModerate.leadingExponent
  have error := abs_addOrdered_sub_le bigNormal smallNormal bigModerate smallModerate nonzero ordered
  have bigSize := big.magnitude_lt
  have smallSize := small.magnitude_lt
  have bigReach : (10 : ℚ) ^ (big.exponent + big.precision) ≤ 10 ^ (big.lowest + 36) :=
    ten_zpow_mono (by omega)
  have smallReach : (10 : ℚ) ^ (small.exponent + small.precision) ≤ 10 ^ (big.lowest + 36) :=
    ten_zpow_mono (by omega)
  have unit : (10 : ℚ) ^ big.lowest ≤ 10 ^ (big.lowest + 36) := ten_zpow_mono (by omega)
  have width : (10 : ℚ) ^ (big.lowest + 37) = 10 ^ 1 * 10 ^ (big.lowest + 36) :=
    ten_zpow_raise 1 (by omega)
  have positive := ten_zpow_pos (big.lowest + 36)
  rw [← abs_toRat, abs_lt] at bigSize smallSize
  rw [abs_le] at error
  rw [width, abs_lt]
  constructor <;> linarith

/-- A sum has at most 38 digits, in the range of exponents. -/
theorem addOrdered_inRange :
    (big.addOrdered small).InRange ∧ (big.addOrdered small).precision ≤ 38 := by
  have lowest := bigModerate.lowest_eq
  obtain ⟨least, greatest⟩ := bigModerate.lowest_bounds
  rcases addOrdered_cases bigNormal smallNormal bigModerate smallModerate nonzero ordered with
    ⟨dropped, _⟩ | rounded
  · rw [dropped]
    exact ⟨bigModerate.inRange, bigModerate.narrow⟩
  · obtain ⟨bigCount, bigMultiple⟩ := exists_count (10 ^ big.lowest) big.toRat
    obtain ⟨smallCount, smallMultiple⟩ := exists_count (10 ^ big.lowest) small.toRat
    have multiple : (big.addOrdered small).toRat = ((bigCount + smallCount : ℤ) : ℚ) *
        10 ^ big.lowest := by
      rw [rounded, bigMultiple, smallMultiple]
      push_cast
      ring
    have below := abs_addOrdered_lt bigNormal smallNormal bigModerate smallModerate nonzero ordered
    obtain ⟨inRange, few⟩ := (bigNormal.addOrdered small).inRange multiple below (by omega)
      (by omega) (by omega)
    exact ⟨inRange, by omega⟩

/-- A sum of numbers of few digits rounds to as many digits as the exact sum does. -/
theorem nearestDigits_addOrdered {digits : ℕ} (few : 2 * digits ≤ 35) (some : small.isZero = false)
    (bigShort : big.precision ≤ digits) (smallShort : small.precision ≤ digits) :
    nearestDigits digits (big.addOrdered small).toRat =
      nearestDigits digits (big.toRat + small.toRat) := by
  have lowest := bigModerate.lowest_eq
  -- The larger operand has few digits, so only the smaller one can have some below the window.
  rcases le_or_gt big.lowest small.exponent with above | below
  · rw [toRat_addOrdered bigNormal smallNormal bigModerate smallModerate nonzero ordered some
      (by omega) above]
  · -- The smaller operand is lost on the larger one, which has few digits.
    have error := abs_addOrdered_sub_le bigNormal smallNormal bigModerate smallModerate nonzero
      ordered
    have leading := log_toRat nonzero
    have smallSize := small.magnitude_lt
    have smallReach : (10 : ℚ) ^ (small.exponent + small.precision) ≤
        10 ^ (Int.log 10 |big.toRat| - digits - 1) := ten_zpow_mono (by omega)
    have unit : (10 : ℚ) ^ big.lowest ≤ 10 ^ (Int.log 10 |big.toRat| - digits - 1) :=
      ten_zpow_mono (by omega)
    have tie : (10 : ℚ) ^ (Int.log 10 |big.toRat| - digits) =
        10 ^ 1 * 10 ^ (Int.log 10 |big.toRat| - digits - 1) := ten_zpow_raise 1 (by omega)
    have positive := ten_zpow_pos (Int.log 10 |big.toRat| - digits - 1)
    rw [← abs_toRat, abs_lt] at smallSize
    rw [abs_le] at error
    have center : HasDigits digits big.toRat := hasDigits_of_precision_le bigShort
    rw [nearestDigits_of_near center (toRat_ne_zero nonzero), nearestDigits_of_near center
      (toRat_ne_zero nonzero)]
    · rw [tie, abs_lt]
      constructor <;> linarith
    · rw [tie, abs_lt]
      constructor <;> linarith

end Ordered

section Sum

variable {left right : Decimal} (leftNormal : left.IsNormal) (rightNormal : right.IsNormal)
  (leftModerate : left.Moderate) (rightModerate : right.Moderate)

/-- A sum is the other operand if one is zero, and otherwise orders the operands. -/
theorem add_cases (left right : Decimal) :
    (left.isZero = true ∧ left.add right = right) ∨ (right.isZero = true ∧ left.add right = left) ∨
      left.isZero = false ∧ right.isZero = false ∧
        ((right.leadingExponent ≤ left.leadingExponent ∧ left.add right = left.addOrdered right) ∨
          (left.leadingExponent ≤ right.leadingExponent ∧
            left.add right = right.addOrdered left)) := by
  simp only [add]
  cases leftZero : left.isZero with
  | true => exact Or.inl ⟨rfl, rfl⟩
  | false =>
      cases rightZero : right.isZero with
      | true => exact Or.inr (Or.inl ⟨rfl, rfl⟩)
      | false =>
          refine Or.inr (Or.inr ⟨rfl, rfl, ?_⟩)
          simp only [Bool.false_eq_true, if_false]
          split
          · rename_i ordered
            exact Or.inl ⟨ordered, rfl⟩
          · exact Or.inr ⟨by omega, rfl⟩

include leftNormal rightNormal leftModerate rightModerate

theorem toRat_add (leftAbove : max left.lowest right.lowest ≤ left.exponent)
    (rightAbove : max left.lowest right.lowest ≤ right.exponent) :
    (left.add right).toRat = left.toRat + right.toRat := by
  rcases add_cases left right with ⟨isZero, same⟩ | ⟨isZero, same⟩ | ⟨leftSome, rightSome, sum⟩
  · rw [same, toRat_eq_zero_iff.mpr isZero, zero_add]
  · rw [same, toRat_eq_zero_iff.mpr isZero, add_zero]
  · rcases sum with ⟨ordered, same⟩ | ⟨ordered, same⟩
    · rw [same]
      exact toRat_addOrdered leftNormal rightNormal leftModerate rightModerate leftSome ordered
        rightSome (by omega) (by omega)
    · rw [same, add_comm]
      exact toRat_addOrdered rightNormal leftNormal rightModerate leftModerate rightSome ordered
        leftSome (by omega) (by omega)

theorem add_inRange : (left.add right).InRange ∧ (left.add right).precision ≤ 38 := by
  rcases add_cases left right with ⟨_, same⟩ | ⟨_, same⟩ | ⟨leftSome, rightSome, sum⟩
  · rw [same]
    exact ⟨rightModerate.inRange, rightModerate.narrow⟩
  · rw [same]
    exact ⟨leftModerate.inRange, leftModerate.narrow⟩
  · rcases sum with ⟨ordered, same⟩ | ⟨ordered, same⟩
    · rw [same]
      exact addOrdered_inRange leftNormal rightNormal leftModerate rightModerate leftSome ordered
    · rw [same]
      exact addOrdered_inRange rightNormal leftNormal rightModerate leftModerate rightSome ordered

theorem nearestDigits_add {digits : ℕ} (few : 2 * digits ≤ 35) (leftShort : left.precision ≤ digits)
    (rightShort : right.precision ≤ digits) : nearestDigits digits (left.add right).toRat =
      nearestDigits digits (left.toRat + right.toRat) := by
  rcases add_cases left right with ⟨isZero, same⟩ | ⟨isZero, same⟩ | ⟨leftSome, rightSome, sum⟩
  · rw [same, toRat_eq_zero_iff.mpr isZero, zero_add]
  · rw [same, toRat_eq_zero_iff.mpr isZero, add_zero]
  · rcases sum with ⟨ordered, same⟩ | ⟨ordered, same⟩
    · rw [same]
      exact nearestDigits_addOrdered leftNormal rightNormal leftModerate rightModerate leftSome
        ordered few rightSome leftShort rightShort
    · rw [same, add_comm left.toRat]
      exact nearestDigits_addOrdered rightNormal leftNormal rightModerate leftModerate rightSome
        ordered few leftSome rightShort leftShort

end Sum

section Product

variable {left right : Decimal} (leftShort : left.precision ≤ 19) (rightShort : right.precision ≤ 19)
  (lower : minimumExponent ≤ left.exponent + right.exponent)
  (upper : left.exponent + right.exponent + 38 ≤ maximumExponent)

include leftShort rightShort

theorem product_lt : left.mantissa * right.mantissa < weight 10 38 := by
  have positive := weight_pos (by decide : 0 < 10) 19
  calc left.mantissa * right.mantissa
      < weight 10 19 * weight 10 19 :=
        Nat.mul_lt_mul'' (decimalLength_le_iff.mp leftShort) (decimalLength_le_iff.mp rightShort)
    _ = weight 10 38 := (weight_add ..).symm

include lower upper

/-- A product of numbers of at most 19 digits is exact. -/
theorem toRat_mul : (left.mul right).toRat = left.toRat * right.toRat := by
  rw [mul]
  split
  · rename_i vanishes
    rcases vanishes with isZero | isZero
    · rw [toRat_eq_zero_iff.mpr isZero, zero_mul, toRat_zero]
    · rw [toRat_eq_zero_iff.mpr isZero, mul_zero, toRat_zero]
  · have length := decimalLength_le_iff.mpr (product_lt leftShort rightShort)
    simp only [productWidth, roundSignificant_of_precision_le leftShort,
      roundSignificant_of_precision_le rightShort]
    rw [clamp_of_bounds lower (by omega), toRat_normal _ lower (by omega), toRat.eq_def left,
      toRat.eq_def right, signed_mul_signed, magnitude, magnitude, ten_zpow_add, Nat.cast_mul,
      mul_mul_mul_comm]

theorem mul_inRange : (left.mul right).InRange ∧ (left.mul right).precision ≤ 38 := by
  rw [mul]
  split
  · rw [precision_zero]
    exact ⟨⟨by decide, by rw [precision_zero]; decide⟩, by decide⟩
  · have length := decimalLength_le_iff.mpr (product_lt leftShort rightShort)
    simp only [productWidth, roundSignificant_of_precision_le leftShort,
      roundSignificant_of_precision_le rightShort]
    rw [clamp_of_bounds lower (by omega)]
    obtain ⟨inRange, few⟩ := normal_inRange (left.negative != right.negative) lower
      (show _ + (decimalLength (left.mantissa * right.mantissa) : ℤ) ≤ _ by omega)
    exact ⟨inRange, few.trans length⟩

end Product

end LedgerWire.Decimal
