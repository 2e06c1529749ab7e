import LedgerWire.Proofs.Decimal.Nearest
import LedgerWire.Proofs.Decimal.NormalForm

namespace LedgerWire.Decimal

open Positional

/-!
The number that a decimal denotes. Decimals in normal form that denote one number are equal, and
bringing a mantissa to normal form keeps the number as long as the exponent stays in range.
-/

/-- The magnitude of the number that a decimal denotes. -/
def magnitude (decimal : Decimal) : ℚ :=
  decimal.mantissa * 10 ^ decimal.exponent

/-- The number that a decimal denotes. -/
def toRat (decimal : Decimal) : ℚ :=
  signed decimal.negative decimal.magnitude

/-- The exponent may grow by all digits of the mantissa and stay in range. -/
structure InRange (decimal : Decimal) : Prop where
  lower : minimumExponent ≤ decimal.exponent
  upper : decimal.exponent + decimal.precision ≤ maximumExponent

theorem cast_weight (places : Nat) : ((weight 10 places : Nat) : ℚ) = 10 ^ (places : ℤ) := by
  rw [zpow_natCast]
  exact Nat.cast_pow 10 places

theorem scaled_mul_ten_zpow (mantissa places : Nat) (exponent : ℤ) :
    ((mantissa * weight 10 places : Nat) : ℚ) * 10 ^ exponent =
      mantissa * 10 ^ (exponent + places) := by
  rw [Nat.cast_mul, cast_weight, ten_zpow_add, mul_assoc, mul_comm (10 ^ (places : ℤ) : ℚ)]

section Magnitude

variable {decimal : Decimal}

@[simp] theorem magnitude_zero : zero.magnitude = 0 := by
  rw [magnitude, zero, Nat.cast_zero, zero_mul]

theorem magnitude_eq_int (decimal : Decimal) :
    decimal.magnitude = ((decimal.mantissa : ℤ) : ℚ) * 10 ^ decimal.exponent := by
  rw [Int.cast_natCast]
  rfl

@[simp] theorem toRat_zero : zero.toRat = 0 := by
  rw [toRat, magnitude_zero, signed_zero]

theorem magnitude_nonneg (decimal : Decimal) : 0 ≤ decimal.magnitude :=
  mul_nonneg (Nat.cast_nonneg _) (ten_zpow_pos _).le

theorem abs_toRat (decimal : Decimal) : |decimal.toRat| = decimal.magnitude := by
  rw [toRat, abs_signed, abs_of_nonneg decimal.magnitude_nonneg]

theorem magnitude_pos (nonzero : decimal.isZero = false) : 0 < decimal.magnitude :=
  mul_pos (Nat.cast_pos.mpr (mantissa_pos nonzero)) (ten_zpow_pos _)

theorem toRat_eq_zero_iff : decimal.toRat = 0 ↔ decimal.isZero = true := by
  rw [← abs_eq_zero, abs_toRat]
  cases isZero : decimal.isZero with
  | true =>
      have none : decimal.mantissa = 0 := eq_of_beq isZero
      rw [magnitude, none, Nat.cast_zero, zero_mul]
      exact iff_of_true rfl rfl
  | false => exact iff_of_false (magnitude_pos isZero).ne' Bool.false_ne_true

theorem toRat_ne_zero (nonzero : decimal.isZero = false) : decimal.toRat ≠ 0 := fun zero =>
  Bool.false_ne_true (nonzero.symm.trans (toRat_eq_zero_iff.mp zero))

theorem toRat_negate (decimal : Decimal) : decimal.negate.toRat = -decimal.toRat := by
  rw [negate]
  split
  · rename_i isZero
    rw [toRat_eq_zero_iff.mpr isZero, neg_zero]
  · exact signed_not decimal.negative decimal.magnitude

theorem toRat_abs (decimal : Decimal) : decimal.abs.toRat = |decimal.toRat| := by
  rw [abs_toRat]
  rfl

@[simp] theorem precision_zero : zero.precision = 0 :=
  decimalLength_zero

theorem precision_pos (nonzero : decimal.isZero = false) : 0 < decimal.precision :=
  decimalLength_pos (mantissa_pos nonzero)

theorem magnitude_lt (decimal : Decimal) :
    decimal.magnitude < 10 ^ (decimal.exponent + decimal.precision) := by
  rw [magnitude, add_comm, ten_zpow_add, ← cast_weight]
  exact mul_lt_mul_of_pos_right (Nat.cast_lt.mpr (lt_weight_decimalLength _)) (ten_zpow_pos _)

theorem ten_zpow_le_magnitude (nonzero : decimal.isZero = false) :
    (10 : ℚ) ^ (decimal.exponent + decimal.precision - 1) ≤ decimal.magnitude := by
  have some := precision_pos nonzero
  have least : weight 10 (decimal.precision - 1) ≤ decimal.mantissa :=
    weight_le_of_lt_decimalLength (show decimal.precision - 1 < decimal.precision by omega)
  have split : decimal.exponent + decimal.precision - 1 =
      ((decimal.precision - 1 : ℕ) : ℤ) + decimal.exponent := by
    omega
  rw [split, ten_zpow_add, ← cast_weight]
  exact mul_le_mul_of_nonneg_right (Nat.cast_le.mpr least) (ten_zpow_pos _).le

/-- The leading digit stands at the exponent that the mantissa's length tells. -/
theorem log_magnitude (nonzero : decimal.isZero = false) :
    Int.log 10 decimal.magnitude = decimal.exponent + decimal.precision - 1 := by
  apply log_eq (ten_zpow_le_magnitude nonzero)
  rw [sub_add_cancel]
  exact decimal.magnitude_lt

theorem log_toRat (nonzero : decimal.isZero = false) :
    Int.log 10 |decimal.toRat| = decimal.exponent + decimal.precision - 1 := by
  rw [abs_toRat, log_magnitude nonzero]

end Magnitude

section NormalForm

theorem toRat_normal {mantissa : Nat} {exponent : ℤ} (negative : Bool)
    (lower : minimumExponent ≤ exponent)
    (upper : exponent + decimalLength mantissa ≤ maximumExponent + 1) :
    (normal negative mantissa exponent).toRat = signed negative (mantissa * 10 ^ exponent) := by
  by_cases none : mantissa = 0
  · rw [normal, if_pos none, none, Nat.cast_zero, zero_mul, toRat_zero, signed_zero]
  · obtain ⟨stripped, places, last, spelled⟩ := exists_stripped (by omega : 0 < mantissa)
    have stripped_pos : 0 < stripped := Nat.pos_of_ne_zero fun zero => last (by rw [zero])
    have length := decimalLength_scaled stripped_pos places
    have some := decimalLength_pos stripped_pos
    rw [← spelled] at length
    rw [normal_of_pos (by omega), spelled, stripZeros_scaled last lower (by omega),
      scaled_mul_ten_zpow]
    rfl

/-- A normal form is no multiple of a power of ten above its last digit. -/
theorem le_exponent_of_multiple {decimal : Decimal} {count low : ℤ}
    (last : decimal.mantissa % 10 ≠ 0) (multiple : decimal.magnitude = count * 10 ^ low) :
    low ≤ decimal.exponent := by
  by_contra above
  rw [magnitude, ten_zpow_eq (show decimal.exponent ≤ low by omega), ← mul_assoc] at multiple
  have scaled : (decimal.mantissa : ℤ) = count * (10 ^ (low - decimal.exponent).toNat : ℕ) := by
    exact_mod_cast mul_right_cancel₀ (ten_zpow_pos decimal.exponent).ne' multiple
  obtain ⟨places, some⟩ := Nat.exists_eq_succ_of_ne_zero
    (by omega : (low - decimal.exponent).toNat ≠ 0)
  rw [some, Nat.pow_succ, Nat.cast_mul, ← mul_assoc] at scaled
  omega

/-- The exponents that a normal form uses, from the number that it denotes. -/
theorem IsNormal.exponent_bounds {decimal : Decimal} {count low high : ℤ}
    (normal : decimal.IsNormal) (nonzero : decimal.isZero = false)
    (multiple : decimal.toRat = count * 10 ^ low) (below : |decimal.toRat| < 10 ^ high) :
    low ≤ decimal.exponent ∧ decimal.exponent + decimal.precision ≤ high := by
  have scaled : decimal.magnitude = (|count| : ℤ) * 10 ^ low := by
    rw [← abs_toRat, multiple, abs_mul, abs_of_pos (ten_zpow_pos low), Int.cast_abs]
  have leading := (log_lt_iff (abs_pos.mpr (toRat_ne_zero nonzero))).mpr below
  rw [log_toRat nonzero] at leading
  exact ⟨le_exponent_of_multiple (normal.last nonzero) scaled, by omega⟩

/-- A number between two exponents has a normal form in range, and of few digits. -/
theorem IsNormal.inRange {decimal : Decimal} {count low high : ℤ} (normal : decimal.IsNormal)
    (multiple : decimal.toRat = count * 10 ^ low) (below : |decimal.toRat| < 10 ^ high)
    (ordered : low ≤ high) (lower : minimumExponent ≤ low) (upper : high ≤ maximumExponent) :
    decimal.InRange ∧ (decimal.precision : ℤ) ≤ high - low := by
  cases isZero : decimal.isZero with
  | true =>
      rw [normal.eq_zero isZero, precision_zero]
      exact ⟨⟨by decide, by rw [precision_zero]; decide⟩, by omega⟩
  | false =>
      obtain ⟨least, greatest⟩ := normal.exponent_bounds isZero multiple below
      exact ⟨⟨by omega, by omega⟩, by omega⟩

/-- A number that was rounded to digits, as a normal form in range. -/
theorem IsNormal.inRange_of_nearestDigits {decimal : Decimal} {digits : Nat} {number : ℚ}
    (normal : decimal.IsNormal) (rounded : decimal.toRat = nearestDigits digits number)
    (lower : minimumExponent ≤ Int.log 10 |number| + 1 - digits)
    (upper : Int.log 10 |number| + 2 ≤ maximumExponent) :
    decimal.InRange ∧ decimal.precision ≤ digits + 1 := by
  obtain ⟨count, multiple⟩ := exists_count (10 ^ (Int.log 10 |number| + 1 - digits)) number
  have most := abs_nearestDigits_le digits number
  have below : (10 : ℚ) ^ (Int.log 10 |number| + 1) < 10 ^ (Int.log 10 |number| + 2) :=
    zpow_lt_zpow_right₀ (by norm_num) (by omega)
  rw [← rounded] at most
  obtain ⟨inRange, few⟩ := normal.inRange (rounded.trans multiple) (most.trans_lt below) (by omega)
    lower upper
  exact ⟨inRange, by omega⟩

/-- Bringing a number to normal form needs no exponent outside those of its spelling. -/
theorem normal_inRange (negative : Bool) {mantissa : Nat} {exponent : ℤ}
    (lower : minimumExponent ≤ exponent)
    (upper : exponent + decimalLength mantissa ≤ maximumExponent) :
    (normal negative mantissa exponent).InRange ∧
      (normal negative mantissa exponent).precision ≤ decimalLength mantissa := by
  have number := toRat_normal negative lower
    (show exponent + decimalLength mantissa ≤ maximumExponent + 1 by omega)
  have multiple : (normal negative mantissa exponent).toRat =
      ((if negative then -mantissa else mantissa : ℤ) : ℚ) * 10 ^ exponent := by
    rw [number]
    cases negative <;> simp
  have below : |(normal negative mantissa exponent).toRat| <
      10 ^ (exponent + decimalLength mantissa) := by
    rw [number, abs_signed, abs_of_nonneg (mul_nonneg (Nat.cast_nonneg _) (ten_zpow_pos _).le)]
    exact magnitude_lt ⟨negative, mantissa, exponent⟩
  obtain ⟨inRange, few⟩ := (isNormal_normal negative mantissa exponent).inRange multiple below
    (by omega) lower upper
  exact ⟨inRange, by omega⟩

/-- A number has one decimal in normal form. -/
theorem IsNormal.eq_of_toRat_eq {left right : Decimal} (leftNormal : left.IsNormal)
    (rightNormal : right.IsNormal) (same : left.toRat = right.toRat) : left = right := by
  cases isZero : left.isZero with
  | true =>
      have none := toRat_eq_zero_iff.mpr isZero
      rw [leftNormal.eq_zero isZero,
        rightNormal.eq_zero (toRat_eq_zero_iff.mp (same.symm.trans none))]
  | false =>
      have nonzero : right.isZero = false := Bool.eq_false_iff.mpr fun isZero =>
        toRat_ne_zero ‹_› (same.trans (toRat_eq_zero_iff.mpr isZero))
      have magnitudes : left.magnitude = right.magnitude := by
        rw [← abs_toRat, same, abs_toRat]
      have positive := magnitude_pos nonzero
      have exponents : left.exponent = right.exponent :=
        le_antisymm
          (le_exponent_of_multiple (rightNormal.last nonzero)
            (magnitudes.symm.trans left.magnitude_eq_int))
          (le_exponent_of_multiple (leftNormal.last isZero)
            (magnitudes.trans right.magnitude_eq_int))
      have mantissas : left.mantissa = right.mantissa := by
        rw [magnitude, magnitude, exponents] at magnitudes
        exact_mod_cast mul_right_cancel₀ (ten_zpow_pos right.exponent).ne' magnitudes
      have signs : left.negative = right.negative := by
        rw [toRat, toRat, magnitudes] at same
        cases leftSign : left.negative <;> cases rightSign : right.negative <;>
          simp only [leftSign, rightSign, signed_true, signed_false] at same ⊢ <;> linarith
      obtain ⟨_, _, _⟩ := left
      obtain ⟨_, _, _⟩ := right
      congr

end NormalForm

section Digits

variable {decimal : Decimal} {digits : Nat}

theorem hasDigits_of_precision_le (short : decimal.precision ≤ digits) :
    HasDigits digits decimal.toRat := by
  have few := decimalLength_le_iff.mp short
  refine ⟨if decimal.negative then -decimal.mantissa else decimal.mantissa, decimal.exponent, ?_, ?_⟩
  · have bound : (decimal.mantissa : ℤ) < 10 ^ digits := by exact_mod_cast few
    cases decimal.negative <;> simpa using bound
  · rw [toRat, magnitude]
    cases decimal.negative <;> simp

/-- No spelling has fewer digits than the normal form. -/
theorem IsNormal.precision_le (normal : decimal.IsNormal) (short : HasDigits digits decimal.toRat) :
    decimal.precision ≤ digits := by
  obtain ⟨mantissa, exponent, few, spelled⟩ := short
  cases isZero : decimal.isZero with
  | true =>
      rw [normal.eq_zero isZero]
      exact Nat.le_trans (Nat.le_of_eq decimalLength_zero) (Nat.zero_le _)
  | false =>
      have positive := magnitude_pos isZero
      have short : HasDigits digits decimal.magnitude :=
        ⟨|mantissa|, exponent, by rwa [abs_abs], by
          rw [← abs_toRat, spelled, abs_mul, abs_of_pos (ten_zpow_pos exponent), Int.cast_abs]⟩
      obtain ⟨count, multiple, _⟩ := short.exists_units positive
      rw [log_magnitude isZero] at multiple
      have above := le_exponent_of_multiple (normal.last isZero) multiple
      omega

end Digits

end LedgerWire.Decimal
