import LedgerWire.Proofs.Amount.Rounding
import LedgerWire.Proofs.Decimal.Quotient
import LedgerWire.Proofs.Decimal.Tie

namespace LedgerWire.Amount

open Decimal Positional

/-!
Quotients of amounts are the exact ones rounded once, although they are rounded twice: first to 34
digits, then to the precision of the dividend's kind. The two roundings can only disagree on a
quotient just below a tie. Mantissas are too short for a quotient to come that near, except for
native quotients beyond the bounds of native amounts, which are refused either way.
-/

section Ties

/-- No quotient of these mantissas comes as near to one of the ties around the largest native
amounts: where the dividend's zeros reach far enough, the difference is no multiple of `10 ^ 17`. -/
theorem no_near_tie {dividend divisor places : ℕ} {count gap : ℤ} (short : dividend < 10 ^ 17)
    (divisorShort : divisor < 10 ^ 16) (positive : 0 < gap) (near : 2 * 10 ^ 14 * gap ≤ divisor)
    (exact : (2 * count + 1) * 5 * divisor - dividend * 10 ^ places = gap)
    (tie : (count = 10 ^ 17 ∧ 2 * 10 ^ 15 ≤ divisor) ∨
      (count = 10 ^ 18 - 1 ∨ count = 10 ^ 18) ∧ 2 * 10 ^ 14 ≤ divisor) : False := by
  rcases Nat.lt_or_ge places 17 with few | many
  · have scaled := Nat.mul_le_mul_left dividend
      (Nat.pow_le_pow_right (by decide : 0 < 10) (Nat.le_of_lt_succ few))
    have cast : (dividend : ℤ) * 10 ^ places = (dividend * 10 ^ places : ℕ) := by push_cast; rfl
    rw [cast] at exact
    rcases tie with ⟨rfl, wide⟩ | ⟨rfl | rfl, wide⟩ <;> omega
  · obtain ⟨more, rfl⟩ := Nat.exists_eq_add_of_le many
    have multiple : (dividend : ℤ) * 10 ^ (17 + more) = 10 ^ 17 * (dividend * 10 ^ more) := by ring
    rw [multiple] at exact
    generalize (dividend : ℤ) * 10 ^ more = scaled at exact
    -- Up to a multiple of `10 ^ 17`, the tie is five times the divisor, or the opposite of that.
    rcases tie with ⟨rfl, wide⟩ | ⟨rfl | rfl, wide⟩
    · have rest : 10 ^ 17 * (10 * (divisor : ℤ) - scaled) = gap - 5 * divisor := by linarith
      generalize 10 * (divisor : ℤ) - scaled = units at rest
      omega
    · have rest : 10 ^ 17 * (100 * (divisor : ℤ) - scaled) = gap + 5 * divisor := by linarith
      generalize 100 * (divisor : ℤ) - scaled = units at rest
      omega
    · have rest : 10 ^ 17 * (100 * (divisor : ℤ) - scaled) = gap - 5 * divisor := by linarith
      generalize 100 * (divisor : ℤ) - scaled = units at rest
      omega

variable {dividend divisor : ℕ} {exponent top count : ℤ} (positive : 0 < divisor)
  (short : dividend < 10 ^ 17)
  (divisorShort : divisor < 10 ^ 16 ∨ (divisor : ℚ) * 10 ^ top ≤ 10 ^ 18)
  (least : (10 : ℚ) ^ top ≤ (dividend / divisor : ℚ) * 10 ^ exponent)
  (upper : (dividend / divisor : ℚ) * 10 ^ exponent < (count + 1 / 2) * 10 ^ (-6 : ℤ))

include positive upper

/-- A quotient less than half a unit of the first rounding below a tie: how far below, in the tie's
tenths divided by the divisor. -/
theorem exists_near_gap (coarse : -7 ≤ exponent) (near : (count + 1 / 2) * 10 ^ (-6 : ℤ) ≤
      (dividend / divisor : ℚ) * 10 ^ exponent + 10 ^ (top - 33) / 2) :
    ∃ gap : ℤ, 0 < gap ∧
      (2 * count + 1) * 5 * divisor - dividend * 10 ^ (exponent - -7).toNat = gap ∧
      2 * 10 ^ 26 * (gap : ℚ) ≤ divisor * 10 ^ top := by
  have divisorPositive : (0 : ℚ) < divisor := Nat.cast_pos.mpr positive
  rw [show (-6 : ℤ) = -7 + 1 by rfl, tie_eq] at upper near
  refine ⟨_, gap_pos positive coarse upper, rfl, ?_⟩
  have apart : (((2 * count + 1) * 5 : ℤ) : ℚ) * 10 ^ (-7 : ℤ) -
      (dividend / divisor : ℚ) * 10 ^ exponent = (((2 * count + 1) * 5 * divisor -
        dividend * 10 ^ (exponent - -7).toNat : ℤ) : ℚ) * (10 ^ (-7 : ℤ) / divisor) :=
    gap_eq positive coarse
  have shifted : (10 : ℚ) ^ top = 10 ^ 33 * 10 ^ (top - 33) := ten_zpow_raise 33 (by omega)
  generalize ((2 * count + 1) * 5 * divisor - dividend * 10 ^ (exponent - -7).toNat : ℤ) = gap at *
  have half : (gap : ℚ) * (10 ^ (-7 : ℤ) / divisor) ≤ 10 ^ (top - 33) / 2 := by linarith
  rw [mul_div_assoc', div_le_iff₀ divisorPositive] at half
  rw [shifted]
  norm_num at half ⊢
  linarith

include short least

/-- A quotient with digits below the tie's last one is as far from the tie as one of its own
units. -/
theorem gap_of_fine (fine : exponent < -7) : (dividend / divisor : ℚ) * 10 ^ exponent +
    10 ^ (top - 33) / 2 < (count + 1 / 2) * 10 ^ (-6 : ℤ) := by
  have divisorPositive : (0 : ℚ) < divisor := Nat.cast_pos.mpr positive
  have tie : ((count : ℚ) + 1 / 2) * 10 ^ (-6 : ℤ) =
      (((2 * count + 1) * 5 * 10 ^ (-7 - exponent).toNat : ℤ) : ℚ) * 10 ^ exponent := by
    rw [show (-6 : ℤ) = -7 + 1 by rfl, tie_eq, ten_zpow_eq fine.le]
    push_cast
    ring
  rw [tie] at upper ⊢
  have gap := gap_le positive le_rfl upper
  have unit : (10 : ℚ) ^ (top - 33) / 2 < 10 ^ exponent / divisor := by
    have scaled : (10 : ℚ) ^ top * divisor ≤ dividend * 10 ^ exponent := by
      have cleared := mul_le_mul_of_nonneg_right least divisorPositive.le
      rwa [mul_right_comm, div_mul_cancel₀ _ divisorPositive.ne'] at cleared
    have dividendBound : (dividend : ℚ) < 10 ^ 17 := by exact_mod_cast short
    have shifted : (10 : ℚ) ^ top = 10 ^ 33 * 10 ^ (top - 33) := ten_zpow_raise 33 (by omega)
    have digit := ten_zpow_pos exponent
    have lowDigit := ten_zpow_pos (top - 33)
    have bound : (dividend : ℚ) * 10 ^ exponent < 10 ^ 17 * 10 ^ exponent :=
      mul_lt_mul_of_pos_right dividendBound digit
    have product := mul_pos lowDigit divisorPositive
    rw [lt_div_iff₀ divisorPositive]
    rw [shifted] at scaled
    linarith
  linarith

include divisorShort

/-- A quotient without digits below the tie's last one is far from the tie, or too large. -/
theorem gap_of_coarse (coarse : -7 ≤ exponent) (small : top ≤ 12) :
    (dividend / divisor : ℚ) * 10 ^ exponent + 10 ^ (top - 33) / 2 <
        (count + 1 / 2) * 10 ^ (-6 : ℤ) ∨
      10 ^ 17 < count ∧ count ≠ 10 ^ 18 - 1 ∧ count ≠ 10 ^ 18 := by
  rw [or_iff_not_imp_left, not_lt]
  intro near
  have divisorPositive : (0 : ℚ) < divisor := Nat.cast_pos.mpr positive
  obtain ⟨gap, gapPositive, spelled, close⟩ := exists_near_gap positive upper coarse near
  have one : (1 : ℚ) ≤ gap := by exact_mod_cast gapPositive
  rcases divisorShort with divisorShort | within
  swap
  · linarith
  have divisorBound : (divisor : ℚ) < 10 ^ 16 := by exact_mod_cast divisorShort
  -- The gap is a positive integer, so 16 digits of divisor leave two places for the leading digit.
  have large : 11 ≤ top := by
    by_contra fewer
    have low : (10 : ℚ) ^ top ≤ 10 ^ (10 : ℤ) := ten_zpow_mono (by omega)
    have bound := mul_le_mul_of_nonneg_left low divisorPositive.le
    norm_num at bound
    linarith
  have ties (reach : 2 * 10 ^ 14 * gap ≤ divisor) (tie : (count = 10 ^ 17 ∧ 2 * 10 ^ 15 ≤ divisor) ∨
      (count = 10 ^ 18 - 1 ∨ count = 10 ^ 18) ∧ 2 * 10 ^ 14 ≤ divisor) : False :=
    no_near_tie short divisorShort gapPositive reach spelled tie
  rcases (by omega : top = 11 ∨ top = 12) with rfl | rfl
  · have reach : 2 * 10 ^ 15 * gap ≤ divisor := by
      norm_num at close
      exact_mod_cast (by linarith : 2 * 10 ^ 15 * (gap : ℚ) ≤ divisor)
    have many : 10 ^ 18 < (2 * count + 1) * 5 := by
      have above := least.trans_lt upper
      norm_num at above
      exact_mod_cast (by linarith : (10 : ℚ) ^ 18 < (2 * count + 1) * 5)
    refine ⟨?_, fun same => ?_, fun same => ?_⟩
    · refine lt_of_le_of_ne (by omega) fun same => ties (by omega) (Or.inl ⟨same.symm, by omega⟩)
    · exact ties (by omega) (Or.inr ⟨Or.inl same, by omega⟩)
    · exact ties (by omega) (Or.inr ⟨Or.inr same, by omega⟩)
  · have reach : 2 * 10 ^ 14 * gap ≤ divisor := by
      norm_num at close
      exact_mod_cast (by linarith : 2 * 10 ^ 14 * (gap : ℚ) ≤ divisor)
    have many : 10 ^ 19 < (2 * count + 1) * 5 := by
      have above := least.trans_lt upper
      norm_num at above
      exact_mod_cast (by linarith : (10 : ℚ) ^ 19 < (2 * count + 1) * 5)
    refine ⟨by omega, fun same => ?_, fun same => ?_⟩
    · exact ties reach (Or.inr ⟨Or.inl same, by omega⟩)
    · exact ties reach (Or.inr ⟨Or.inr same, by omega⟩)

end Ties

section Twice

/-- A number of drops beyond the maximum that is not the value of early ledgers. -/
def Beyond (drops : ℤ) : Prop :=
  10 ^ 17 < drops ∧ drops ≠ 10 ^ 18

theorem not_nativeBounds_of_beyond {drops : ℤ} {negative : Bool} (beyond : Beyond drops) :
    ¬ NativeBounds (signed negative (drops * 10 ^ (-6 : ℤ))) := by
  obtain ⟨above, other⟩ := beyond
  have unit : (10 : ℚ) ^ (-6 : ℤ) * 10 ^ 6 = 1 := by norm_num
  rintro ⟨found, whole, bound⟩
  rw [Int.abs_eq_natAbs] at bound
  cases negative with
  | false =>
      rw [signed_false, mul_assoc, unit, mul_one] at whole
      have same : drops = found := Int.cast_injective whole
      omega
  | true =>
      rw [signed_true, neg_mul, mul_assoc, unit, mul_one, ← Int.cast_neg] at whole
      have same : -drops = found := Int.cast_injective whole
      omega

theorem beyond_of_le {number : ℚ} {count : ℤ} (large : 10 ^ 13 ≤ number)
    (rounded : nearest (10 ^ (-6 : ℤ)) number = count * 10 ^ (-6 : ℤ)) : Beyond count := by
  have unit := ten_zpow_pos (-6)
  have spelled : ((10 ^ 19 : ℤ) : ℚ) * 10 ^ (-6 : ℤ) = 10 ^ 13 := by norm_num
  have atLeast : ((10 ^ 19 : ℤ) : ℚ) * 10 ^ (-6 : ℤ) ≤ count * 10 ^ (-6 : ℤ) := by
    rw [← rounded]
    exact multiple_le_nearest unit (by linarith) (spelled.trans_le large)
  have ordered : (10 ^ 19 : ℤ) ≤ count := by
    exact_mod_cast le_of_mul_le_mul_right atLeast unit
  exact ⟨by omega, by omega⟩

variable {dividend divisor : ℕ} {exponent : ℤ} {quotient : ℚ}

/-- A quotient rounded first to digits and then to drops is the number of drops that it rounds to,
or both are beyond what a native amount may be. -/
theorem drops_quotient (some : 0 < dividend) (positive : 0 < divisor) (short : dividend < 10 ^ 17)
    (spelled : quotient = (dividend / divisor : ℚ) * 10 ^ exponent)
    (divisorShort : divisor < 10 ^ 16 ∨ (divisor : ℚ) * 10 ^ Int.log 10 quotient ≤ 10 ^ 18) :
    ∃ twice once : ℤ, nearestPlaces 6 (nearestDigits 34 quotient) = twice * 10 ^ (-6 : ℤ) ∧
      nearestPlaces 6 quotient = once * 10 ^ (-6 : ℤ) ∧
      (twice = once ∨ Beyond twice ∧ Beyond once) := by
  have quotientPositive : 0 < quotient := by
    rw [spelled]
    exact mul_pos (div_pos (Nat.cast_pos.mpr some) (Nat.cast_pos.mpr positive)) (ten_zpow_pos _)
  have least := ten_zpow_log_le quotientPositive
  have first := ten_zpow_le_nearestDigits (by decide : 0 < 34) quotientPositive.ne'
  rw [abs_nearestDigits, abs_of_pos quotientPositive] at first
  rw [nearestPlaces, nearestPlaces]
  -- From `10 ^ 13` on, the quotient is beyond the bounds however it is rounded.
  rcases le_or_gt (Int.log 10 quotient) 12 with small | large
  · have unit := ten_zpow_pos (-6)
    obtain ⟨once, rounded, lower, upper⟩ := exists_nearest unit quotientPositive.le
    have gap : quotient + 10 ^ (Int.log 10 quotient - 33) / 2 < (once + 1 / 2) * 10 ^ (-6 : ℤ) ∨
        10 ^ 17 < once ∧ once ≠ 10 ^ 18 - 1 ∧ once ≠ 10 ^ 18 := by
      generalize Int.log 10 quotient = top at *
      rw [spelled] at least upper ⊢
      rcases lt_or_ge exponent (-7) with fine | coarse
      · exact Or.inl (gap_of_fine positive short least upper fine)
      · exact gap_of_coarse positive short divisorShort least upper coarse small
    have digits : nearestDigits 34 quotient =
        nearest (10 ^ (Int.log 10 quotient - 33)) quotient := by
      rw [nearestDigits, abs_of_pos quotientPositive]
      congr 2
      push_cast
      ring
    rw [digits]
    have fine : (10 : ℚ) ^ (Int.log 10 quotient - 33) ≤ 10 ^ (-6 : ℤ) := ten_zpow_mono (by omega)
    have finePositive := ten_zpow_pos (Int.log 10 quotient - 33)
    have divides := coarse_eq (show Int.log 10 quotient - 33 < -6 by omega)
    rcases gap with gap | ⟨above, notBelow, other⟩
    · exact ⟨once, once, nearest_nearest finePositive (by positivity) divides quotientPositive.le
        lower gap, rounded, Or.inl rfl⟩
    · -- The second rounding may go one drop too far, which is beyond the bounds either way.
      obtain ⟨twice, twiceRounded, low, high⟩ :=
        nearest_nearest_count finePositive divides fine quotientPositive.le lower upper
      exact ⟨twice, once, twiceRounded, rounded, Or.inr ⟨⟨by omega, by omega⟩, above, other⟩⟩
  · have beyond : (10 : ℚ) ^ 13 ≤ 10 ^ Int.log 10 quotient := by
      rw [← zpow_natCast]
      exact ten_zpow_mono (by push_cast; omega)
    obtain ⟨twice, twiceRounded⟩ := exists_count (10 ^ (-6 : ℤ)) (nearestDigits 34 quotient)
    obtain ⟨once, rounded⟩ := exists_count (10 ^ (-6 : ℤ)) quotient
    exact ⟨twice, once, twiceRounded, rounded, Or.inr
      ⟨beyond_of_le (beyond.trans first) twiceRounded, beyond_of_le (beyond.trans least) rounded⟩⟩

end Twice

section Divided

variable {left right : Amount} (leftValid : left.Valid) (rightValid : right.Valid)
  (leftBounded : left.unbounded = false) (rightBounded : right.unbounded = false)
  (nonzero : right.value.isZero = false)

include leftValid rightValid leftBounded rightBounded nonzero

/-- The exact quotient to 34 digits. -/
theorem quality_eq_ok : ∃ quotient, left.quality right = .ok quotient ∧ quotient.IsNormal ∧
    quotient.toRat = nearestDigits 34 (left.value.toRat / right.value.toRat) ∧
    quotient.InRange ∧ quotient.precision ≤ 35 := by
  obtain ⟨leftShort, leftLower, leftUpper⟩ := leftValid.digits leftBounded
  obtain ⟨rightShort, rightLower, rightUpper⟩ := rightValid.digits rightBounded
  have leading : (Int.log 10 |left.value.toRat / right.value.toRat|).natAbs ≤ 300 := by
    cases isZero : left.value.isZero with
    | true =>
        rw [toRat_eq_zero_iff.mpr isZero, zero_div, abs_zero, Int.log_zero_right]
        decide
    | false =>
        have positive := mantissa_pos isZero
        have rightPositive := mantissa_pos nonzero
        have some := precision_pos isZero
        have rightSome := precision_pos nonzero
        have unit := ten_zpow_pos (left.value.exponent - right.value.exponent)
        obtain ⟨least, most⟩ := log_quotient (left.value.exponent - right.value.exponent)
          positive rightPositive (decimalLength_le_iff.mp leftShort)
          (decimalLength_le_iff.mp rightShort)
        rw [toRat_div_toRat, abs_signed, abs_of_pos (by positivity)]
        omega
  obtain ⟨quotient, divided, normal, rounded⟩ := div_eq_ok (leftShort.trans (by decide))
    (rightShort.trans (by decide)) (by decide : 0 < 34) (by decide)
    (by simp only [minimumExponent]; omega) (by simp only [maximumExponent]; omega) nonzero
  obtain ⟨inRange, narrow⟩ := normal.inRange_of_nearestDigits rounded
    (by simp only [minimumExponent]; omega) (by simp only [maximumExponent]; omega)
  exact ⟨quotient, divided, normal, rounded, inRange, narrow⟩

omit leftBounded in
/-- A native divisor is small enough for native quotients in bounds. -/
theorem divisor_bound (isNative : left.isNative = true) (some : left.value.isZero = false) :
    right.value.mantissa < 10 ^ 16 ∨ (right.value.mantissa : ℚ) *
      10 ^ Int.log 10 ((left.value.mantissa / right.value.mantissa : ℚ) *
        10 ^ (left.value.exponent - right.value.exponent)) ≤ 10 ^ 18 := by
  cases rightNative : right.isNative with
  | false => exact Or.inl (decimalLength_le_iff.mp (rightValid.issued_digits rightNative rightBounded).1)
  | true =>
      right
      have unit := ten_zpow_pos (left.value.exponent - right.value.exponent)
      have rightPositive : (0 : ℚ) < right.value.mantissa := Nat.cast_pos.mpr (mantissa_pos nonzero)
      have leftPositive : (0 : ℚ) < left.value.mantissa := Nat.cast_pos.mpr (mantissa_pos some)
      have lowest := (rightValid.native_digits rightNative).2.1
      calc (right.value.mantissa : ℚ) * 10 ^ Int.log 10 ((left.value.mantissa /
              right.value.mantissa : ℚ) * 10 ^ (left.value.exponent - right.value.exponent))
          ≤ right.value.mantissa * ((left.value.mantissa / right.value.mantissa : ℚ) *
              10 ^ (left.value.exponent - right.value.exponent)) :=
            mul_le_mul_of_nonneg_left (ten_zpow_log_le (by positivity)) rightPositive.le
        _ = left.value.mantissa * 10 ^ (left.value.exponent - right.value.exponent) := by
            rw [← mul_assoc, mul_div_cancel₀ _ rightPositive.ne']
        _ ≤ left.value.mantissa * 10 ^ (left.value.exponent + 6) :=
            mul_le_mul_of_nonneg_left (ten_zpow_mono (by omega)) leftPositive.le
        _ = left.value.magnitude * 10 ^ 6 := by
            rw [ten_zpow_add, magnitude, mul_assoc]
            rfl
        _ ≤ 10 ^ 18 := leftValid.native_magnitude isNative

/-- Rounding a quotient of amounts twice is rounding it once, or is refused either way. -/
theorem rounded_quotient (some : left.value.isZero = false) :
    left.rounded (nearestDigits 34 (left.value.toRat / right.value.toRat)) =
        left.rounded (left.value.toRat / right.value.toRat) ∨
      ¬ left.Admits (left.rounded (nearestDigits 34 (left.value.toRat / right.value.toRat))) ∧
        ¬ left.Admits (left.rounded (left.value.toRat / right.value.toRat)) := by
  have positive := mantissa_pos some
  have rightPositive := mantissa_pos nonzero
  have short := decimalLength_le_iff.mp (leftValid.digits leftBounded).1
  have rightShort := decimalLength_le_iff.mp (rightValid.digits rightBounded).1
  rw [toRat_div_toRat, nearestDigits_signed, rounded, rounded]
  cases isNative : left.isNative with
  | true =>
      obtain ⟨twice, once, twiceRounded, onceRounded, same | ⟨twiceBeyond, onceBeyond⟩⟩ :=
        drops_quotient positive rightPositive short rfl
          (divisor_bound leftValid rightValid rightBounded nonzero isNative some)
      · left
        rw [if_pos rfl, if_pos rfl, nearestPlaces_signed, nearestPlaces_signed, twiceRounded,
          onceRounded, same]
      · right
        rw [if_pos rfl, if_pos rfl, nearestPlaces_signed, nearestPlaces_signed, twiceRounded,
          onceRounded, Admits, Admits, isNative, if_pos rfl, if_pos rfl]
        exact ⟨not_nativeBounds_of_beyond twiceBeyond, not_nativeBounds_of_beyond onceBeyond⟩
  | false =>
      left
      rw [if_neg Bool.false_ne_true, if_neg Bool.false_ne_true, nearestDigits_signed,
        nearestDigits_signed, nearestDigits_quotient positive rightPositive short rightShort
          (by decide) (by decide) (by decide)]

theorem roundsTo_divide :
    left.RoundsTo (left.value.toRat / right.value.toRat) (left.divide right) := by
  obtain ⟨quotient, divided, normal, value, inRange, narrow⟩ :=
    quality_eq_ok leftValid rightValid leftBounded rightBounded nonzero
  have given : left.divide right = left.withValue quotient := by
    rw [divide, divided]
    rfl
  have answered := toRat_roundFor left inRange (narrow.trans (by decide))
  rw [given]
  rw [value] at answered
  cases isZero : left.value.isZero with
  | true =>
      apply roundsTo_withValue leftValid leftBounded normal
      rw [answered, toRat_eq_zero_iff.mpr isZero, zero_div, nearestDigits_zero]
  | false =>
      rcases rounded_quotient leftValid rightValid leftBounded rightBounded nonzero isZero with
        same | ⟨outside, exactOutside⟩
      · exact roundsTo_withValue leftValid leftBounded normal (answered.trans same)
      · exact roundsTo_withValue_of_refused leftBounded normal (answered ▸ outside) exactOutside

end Divided

theorem RoundsTo.ne_divisionByZero {operand : Amount} {number : ℚ}
    {outcome : Except ValueError Amount} (rounds : operand.RoundsTo number outcome) :
    outcome ≠ .error .divisionByZero := by
  by_cases admitted : operand.Admits (operand.rounded number)
  · obtain ⟨amount, answered, _⟩ := rounds.answered admitted
    rw [answered]
    intro failed
    contradiction
  · obtain ⟨text, cause, failed⟩ := rounds.refused admitted
    rw [failed]
    intro same
    cases same

/-- Division by zero is refused as such. Any other quotient is the exact one rounded once, or
refused for its precision, although it is rounded to 34 digits first. -/
theorem division_rounds_once {left right : Amount} (leftValid : left.Valid)
    (rightValid : right.Valid) (leftBounded : left.unbounded = false)
    (rightBounded : right.unbounded = false) :
    (left.divide right = .error .divisionByZero ↔ right.value.toRat = 0) ∧
    (right.value.toRat ≠ 0 →
      (∃ quotient, left.quality right = .ok quotient ∧
        quotient.toRat = nearestDigits 34 (left.value.toRat / right.value.toRat)) ∧
      left.RoundsTo (left.value.toRat / right.value.toRat) (left.divide right)) := by
  rw [ne_eq, toRat_eq_zero_iff]
  cases isZero : right.value.isZero with
  | true =>
      refine ⟨iff_of_true ?_ rfl, fun nonzero => absurd rfl nonzero⟩
      rw [divide, quality, div_of_isZero _ isZero]
      rfl
  | false =>
      have rounds := roundsTo_divide leftValid rightValid leftBounded rightBounded isZero
      obtain ⟨quotient, divided, _, rounded, _⟩ :=
        quality_eq_ok leftValid rightValid leftBounded rightBounded isZero
      exact ⟨iff_of_false rounds.ne_divisionByZero Bool.false_ne_true,
        fun _ => ⟨⟨quotient, divided, rounded⟩, rounds⟩⟩

/-- Two units of the native asset. -/
def twoNative : Amount :=
  ⟨⟨false, 2, 0⟩, NativeAsset.primary.currency, Account.zero, false⟩

/-- A native amount divided by an issued one is a whole number of drops. -/
theorem division_rounds_once_twoThirds :
    ∃ amount, twoNative.divide (dollars ⟨false, 3, 0⟩) = .ok amount ∧
      amount.value.toRat = 666667 / 10 ^ 6 ∧
      amount.currency = NativeAsset.primary.currency := by
  have nativeValid : twoNative.Valid :=
    ⟨Or.inr (by decide), by decide, by decide +kernel, fun _ => ⟨.primary, rfl, rfl, rfl⟩⟩
  have issuedValid : (dollars ⟨false, 3, 0⟩).Valid := valid_dollars (by decide) (by decide +kernel)
  have two : twoNative.value.toRat = 2 := by
    simp [toRat, magnitude, twoNative]
  have three : (dollars ⟨false, 3, 0⟩).value.toRat = 3 := by
    simp [toRat, magnitude, dollars]
  have rounds := ((division_rounds_once nativeValid issuedValid rfl rfl).2
    (by rw [three]; norm_num)).2
  have isNative : twoNative.isNative = true := by decide
  have rounded : twoNative.rounded (2 / 3) = 666667 / 10 ^ 6 := by
    rw [Amount.rounded, if_pos isNative, nearestPlaces, nearest_eq (show (0 : ℚ) < _ by norm_num)
      (show (0 : ℚ) ≤ 2 / 3 by norm_num) (show (((666667 : ℤ) : ℚ) - 1 / 2) * _ ≤ _ by norm_num)
      (by norm_num)]
    norm_num
  have admitted : twoNative.Admits (twoNative.rounded (2 / 3)) := by
    rw [rounded, Admits, if_pos isNative]
    exact ⟨666667, by norm_num, Or.inl (by norm_num)⟩
  rw [two, three] at rounds
  obtain ⟨amount, answered, _, value, currency, _⟩ := rounds.answered admitted
  exact ⟨amount, answered, value.trans rounded, currency⟩

end LedgerWire.Amount
