import LedgerWire.Proofs.Decimal.Number

namespace LedgerWire.Decimal

open Positional

/-!
Dropping digits rounds to the nearest multiple of the lowest kept digit's unit, since the first
dropped digit tells on which side of the tie a number lies. So rounding a decimal to a number of
digits or of places rounds the number that it denotes.
-/

/-- The mantissa without its last digits, raised by one if the first dropped digit is five or
more. -/
def keptDigits (mantissa count : Nat) : Nat :=
  if 5 ≤ mantissa / weight 10 (count - 1) % 10 then mantissa / weight 10 count + 1
  else mantissa / weight 10 count

section Kept

variable {count digits : Nat}

/-- The kept digits count the units nearest to the mantissa. -/
theorem keptDigits_bounds (mantissa : Nat) (some : 0 < count) :
    keptDigits mantissa count * weight 10 count ≤ mantissa + 5 * weight 10 (count - 1) ∧
      mantissa < keptDigits mantissa count * weight 10 count + 5 * weight 10 (count - 1) := by
  obtain ⟨places, rfl⟩ := Nat.exists_eq_succ_of_ne_zero (Nat.ne_of_gt some)
  rw [keptDigits, Nat.succ_sub_one, weight_succ, ← Nat.div_div_eq_div_mul]
  have unit := weight_pos (by decide : 0 < 10) places
  have whole := Nat.div_add_mod mantissa (weight 10 places)
  have below := Nat.mod_lt mantissa unit
  have split := Nat.div_add_mod (mantissa / weight 10 places) 10
  have digit := Nat.mod_lt (mantissa / weight 10 places) (by decide : 10 > 0)
  generalize mantissa / weight 10 places / 10 = kept at *
  generalize mantissa / weight 10 places % 10 = dropped at *
  generalize weight 10 places = width at *
  rw [← split] at whole
  have spelled : width * (10 * kept + dropped) = kept * (width * 10) + dropped * width := by ring
  rw [spelled] at whole
  split
  · rename_i five
    have atLeast := Nat.mul_le_mul_right width five
    have atMost := Nat.mul_le_mul_right width (Nat.le_of_lt_succ digit)
    rw [Nat.add_mul, Nat.one_mul]
    omega
  · rename_i fewer
    have atMost := Nat.mul_le_mul_right width (by omega : dropped ≤ 4)
    omega

variable {mantissa : Nat}

theorem keptDigits_le (short : decimalLength mantissa ≤ digits + count) :
    keptDigits mantissa count ≤ weight 10 digits := by
  have kept : mantissa / weight 10 count < weight 10 digits := by
    rw [Nat.div_lt_iff_lt_mul (weight_pos (by decide) count), ← weight_add]
    exact decimalLength_le_iff.mp short
  rw [keptDigits]
  split <;> omega

theorem decimalLength_keptDigits_le (short : decimalLength mantissa ≤ digits + count) :
    decimalLength (keptDigits mantissa count) ≤ digits + 1 := by
  have bound := keptDigits_le short
  have unit := weight_pos (by decide : 0 < 10) digits
  rw [decimalLength_le_iff, weight_succ]
  omega

end Kept

section Dropping

variable {decimal : Decimal} {count digits : Nat}

theorem dropDigits_eq (decimal : Decimal) (some : 0 < count) (narrow : count ≤ 38) :
    decimal.dropDigits count = normal decimal.negative (keptDigits decimal.mantissa count)
      (clamp (decimal.exponent + count)) := by
  rw [dropDigits, dropDivisor_eq narrow, dropDivisor_eq (by omega), if_neg (Nat.ne_of_gt some)]
  rfl

theorem nearest_magnitude (decimal : Decimal) (some : 0 < count) :
    nearest (10 ^ (decimal.exponent + count)) decimal.magnitude =
      keptDigits decimal.mantissa count * 10 ^ (decimal.exponent + count) := by
  obtain ⟨lower, upper⟩ := keptDigits_bounds decimal.mantissa some
  have unit := ten_zpow_pos decimal.exponent
  have coarse : ((weight 10 count : Nat) : ℚ) * 10 ^ decimal.exponent =
      10 ^ (decimal.exponent + count) := by
    rw [cast_weight, add_comm, ten_zpow_add]
  have tie : weight 10 count = 2 * (5 * weight 10 (count - 1)) := by
    obtain ⟨places, rfl⟩ := Nat.exists_eq_succ_of_ne_zero (Nat.ne_of_gt some)
    rw [Nat.succ_sub_one, weight_succ]
    ring
  have half : ((5 * weight 10 (count - 1) : Nat) : ℚ) = weight 10 count / 2 := by
    rw [tie]
    push_cast
    ring
  have lower : (keptDigits decimal.mantissa count : ℚ) * weight 10 count ≤
      decimal.mantissa + weight 10 count / 2 := by
    rw [← half]
    exact_mod_cast lower
  have upper : (decimal.mantissa : ℚ) <
      keptDigits decimal.mantissa count * weight 10 count + weight 10 count / 2 := by
    rw [← half]
    exact_mod_cast upper
  rw [← coarse, ← Int.cast_natCast (keptDigits decimal.mantissa count)]
  apply nearest_eq (coarse ▸ ten_zpow_pos _) decimal.magnitude_nonneg
  · rw [magnitude, ← mul_assoc, Int.cast_natCast]
    exact mul_le_mul_of_nonneg_right (by linarith) unit.le
  · rw [magnitude, ← mul_assoc, Int.cast_natCast]
    exact mul_lt_mul_of_pos_right (by linarith) unit

theorem toRat_dropDigits (inRange : decimal.InRange) (some : 0 < count) (narrow : count ≤ 38)
    (present : count ≤ decimal.precision) : (decimal.dropDigits count).toRat =
      nearest (10 ^ (decimal.exponent + count)) decimal.toRat := by
  have length := decimalLength_keptDigits_le
    (show decimalLength decimal.mantissa ≤ (decimal.precision - count) + count from
      le_tsub_add)
  have lower := inRange.lower
  have upper := inRange.upper
  have placed : clamp (decimal.exponent + count) = decimal.exponent + count :=
    clamp_of_bounds (by omega) (by omega)
  rw [dropDigits_eq decimal some narrow, placed, toRat_normal _ (by omega) (by omega), toRat,
    nearest_signed, nearest_magnitude decimal some]

theorem exists_multiple {low : ℤ} (decimal : Decimal) (below : low ≤ decimal.exponent) :
    ∃ count : ℤ, decimal.toRat = count * 10 ^ low := by
  have scaled : decimal.magnitude =
      ((decimal.mantissa * 10 ^ (decimal.exponent - low).toNat : ℕ) : ℤ) * 10 ^ low := by
    rw [magnitude, ten_zpow_eq below, ← mul_assoc, Int.cast_natCast, Int.cast_natCast, Nat.cast_mul]
  rw [toRat, scaled]
  cases decimal.negative
  · exact ⟨_, rfl⟩
  · exact ⟨-_, by rw [signed_true, Int.cast_neg, neg_mul]⟩

theorem toRat_roundSignificant (inRange : decimal.InRange) (some : 0 < digits)
    (narrow : decimal.precision ≤ 38 + digits) :
    (decimal.roundSignificant digits).toRat = nearestDigits digits decimal.toRat := by
  cases isZero : decimal.isZero with
  | true =>
      have none : decimal.mantissa = 0 := eq_of_beq isZero
      have short : decimal.precision ≤ digits := by
        rw [precision, none, decimalLength_zero]
        exact Nat.zero_le _
      rw [roundSignificant_of_precision_le short, toRat_eq_zero_iff.mpr isZero, nearestDigits_zero]
  | false =>
      have leading := log_toRat isZero
      rw [roundSignificant]
      split
      · obtain ⟨count, multiple⟩ := decimal.exists_multiple le_rfl
        exact (nearestDigits_multiple multiple (by omega)).symm
      · rename_i long
        rw [toRat_dropDigits inRange (by omega) (by omega) (by omega), nearestDigits, leading]
        congr 2
        omega

/-- A number all of whose digits lie below the tie rounds to nothing. -/
theorem nearest_of_below {low : ℤ} (below : decimal.exponent + decimal.precision < low) :
    nearest (10 ^ low) decimal.toRat = 0 := by
  have nonnegative := decimal.magnitude_nonneg
  have unit := ten_zpow_pos low
  have bound : decimal.magnitude < (((0 : ℤ) : ℚ) + 1 / 2) * 10 ^ low := by
    have small := decimal.magnitude_lt
    have lower : (10 : ℚ) ^ (decimal.exponent + decimal.precision) ≤ 10 ^ (low - 1) :=
      ten_zpow_mono (by omega)
    have tenth : (10 : ℚ) ^ low = 10 ^ 1 * 10 ^ (low - 1) := ten_zpow_raise 1 (by omega)
    have positive := ten_zpow_pos (low - 1)
    rw [tenth, Int.cast_zero]
    linarith
  rw [toRat, nearest_signed, nearest_eq unit nonnegative (by rw [Int.cast_zero]; linarith) bound,
    Int.cast_zero, zero_mul, signed_zero]

/-- Rounding to places rounds the number, also where the unit lies outside the range of exponents,
as long as no digit comes close to the range's end. -/
theorem toRat_roundScale {places : ℤ} (inRange : decimal.InRange) (narrow : decimal.precision ≤ 38)
    (reach : -places ≤ maximumExponent ∨
      decimal.exponent + decimal.precision < maximumExponent) :
    (decimal.roundScale places).toRat = nearestPlaces places decimal.toRat := by
  have lower := inRange.lower
  have upper := inRange.upper
  have floor : clamp (-places) = max minimumExponent (min maximumExponent (-places)) := rfl
  have unit := ten_zpow_pos (-places)
  unfold roundScale
  simp only
  split
  · rename_i coarse
    cases isZero : decimal.isZero with
    | true => rw [nearestPlaces, toRat_eq_zero_iff.mpr isZero, nearest_zero]
    | false =>
        have some := precision_pos isZero
        have above := coarse.resolve_left (Bool.eq_false_iff.mp isZero)
        -- Nothing lies below the unit.
        obtain ⟨count, multiple⟩ := decimal.exists_multiple (show -places ≤ decimal.exponent by omega)
        rw [nearestPlaces, multiple, nearest_multiple unit]
  · rename_i fine
    rw [not_or] at fine
    split
    · rw [toRat_zero, nearestPlaces, nearest_of_below (by omega)]
    · rw [toRat_dropDigits inRange (by omega) (by omega) (by omega), nearestPlaces]
      congr 2
      omega

end Dropping

end LedgerWire.Decimal
