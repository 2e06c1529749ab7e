import LedgerWire.Proofs.Decimal.Rounding

namespace LedgerWire.Decimal

open Positional

/-!
Quotients. Long division splits the dividend exactly into quotient and remainder and stops with
more digits than are wanted, or with nothing left over; cutting the rest off before rounding is
harmless, so that the answer is the exact quotient rounded once.
-/

/-- What long division leaves: the dividend's value split by the divisor, with no remainder or with
more than the wanted digits. Digits are only brought down up to one more than wanted. -/
structure Division (divisor digits quotient remainder : Nat) (exponent : ℤ)
    (result : Nat × ℤ) : Prop where
  split : ∃ left, left < divisor ∧ (left = 0 ∨ digits < decimalLength result.1) ∧
    ((result.1 * divisor + left : ℕ) : ℚ) * 10 ^ result.2 =
      ((quotient * divisor + remainder : ℕ) : ℚ) * 10 ^ exponent
  short : result = (quotient, exponent) ∨ decimalLength result.1 ≤ digits + 1
  lowered : result.2 ≤ exponent

section LongDivision

variable {divisor digits : Nat}

/-- Bringing down one digit keeps the value that is divided. -/
theorem broughtDown (divisor quotient remainder : Nat) (exponent : ℤ) :
    (((quotient * 10 + remainder * 10 / divisor) * divisor + remainder * 10 % divisor : ℕ) : ℚ) *
        10 ^ (exponent - 1) =
      ((quotient * divisor + remainder : ℕ) : ℚ) * 10 ^ exponent := by
  have whole := Nat.div_add_mod (remainder * 10) divisor
  have tenfold : (quotient * 10 + remainder * 10 / divisor) * divisor + remainder * 10 % divisor =
      (quotient * divisor + remainder) * weight 10 1 := by
    rw [Nat.add_mul, Nat.mul_comm (remainder * 10 / divisor) divisor, Nat.add_assoc, whole,
      weight_succ, weight_zero]
    ring
  rw [tenfold, scaled_mul_ten_zpow]
  congr 2
  push_cast
  ring

theorem division_longDivide (positive : 0 < divisor) {remainder : Nat} (proper : remainder < divisor)
    (quotient : Nat) (exponent : ℤ) : Division divisor digits quotient remainder exponent
      (longDivide divisor digits quotient remainder exponent) := by
  fun_induction longDivide divisor digits quotient remainder exponent with
  | case1 quotient remainder exponent continues ih =>
      obtain ⟨⟨left, below, done, split⟩, short, lowered⟩ := ih (Nat.mod_lt _ positive)
      refine ⟨⟨left, below, done, split.trans (broughtDown ..)⟩, Or.inr ?_, by omega⟩
      rcases short with same | short
      · rw [same, decimalLength_le_iff]
        have digit : remainder * 10 / divisor < 10 := by
          rw [Nat.div_lt_iff_lt_mul positive]
          omega
        have few := decimalLength_le_iff.mp (Nat.le_of_lt_succ continues.2.2)
        rw [weight_succ]
        generalize remainder * 10 / divisor = added at *
        show quotient * 10 + added < weight 10 digits * 10
        omega
      · exact short
  | case2 quotient remainder exponent stops =>
      refine ⟨⟨remainder, proper, ?_, rfl⟩, Or.inl rfl, le_rfl⟩
      show remainder = 0 ∨ digits < decimalLength quotient
      omega

end LongDivision

section Truncation

variable {digits whole : Nat} {fraction : ℚ} {exponent : ℤ}

theorem log_truncated (exponent : ℤ) (some : 0 < whole) (nonnegative : 0 ≤ fraction)
    (proper : fraction < 1) :
    Int.log 10 ((whole + fraction) * 10 ^ exponent) = exponent + decimalLength whole - 1 := by
  have unit := ten_zpow_pos exponent
  have nonzero : (⟨false, whole, exponent⟩ : Decimal).isZero = false :=
    beq_eq_false_iff_ne.mpr (Nat.ne_of_gt some)
  have least : (10 : ℚ) ^ (exponent + decimalLength whole - 1) ≤ whole * 10 ^ exponent :=
    ten_zpow_le_magnitude nonzero
  have most : (whole : ℚ) + 1 ≤ 10 ^ (decimalLength whole : ℤ) := by
    rw [← cast_weight]
    exact_mod_cast lt_weight_decimalLength whole
  apply log_eq
  · exact least.trans (mul_le_mul_of_nonneg_right (by linarith) unit.le)
  · rw [sub_add_cancel, add_comm exponent, ten_zpow_add]
    exact mul_lt_mul_of_pos_right (by linarith) unit

/-- A fraction of the unit below the digits that rounding drops does not matter. -/
theorem nearestDigits_truncated (long : digits < decimalLength whole) (nonnegative : 0 ≤ fraction)
    (proper : fraction < 1) : nearestDigits digits ((whole + fraction) * 10 ^ exponent) =
      nearestDigits digits (whole * 10 ^ exponent) := by
  have some : 0 < whole := Nat.pos_of_ne_zero fun none => by
    rw [none, decimalLength_zero] at long
    omega
  have unit := ten_zpow_pos exponent
  have leading := log_truncated exponent some nonnegative proper
  have truncated := log_truncated exponent some le_rfl one_pos
  rw [add_zero] at truncated
  have positive : (0 : ℚ) ≤ (whole + fraction) * 10 ^ exponent := by positivity
  have wholePositive : (0 : ℚ) ≤ whole * 10 ^ exponent := by positivity
  rw [nearestDigits, nearestDigits, abs_of_nonneg positive, abs_of_nonneg wholePositive, leading,
    truncated]
  have half : 0 < 5 * 10 ^ (decimalLength whole - digits - 1) := by positivity
  apply nearest_truncated unit half _ nonnegative proper
  have width : exponent + decimalLength whole - 1 + 1 - (digits : ℤ) =
      exponent + ((decimalLength whole - digits - 1) + 1 : ℕ) := by
    omega
  rw [width, ten_zpow_add_natCast, pow_succ]
  push_cast
  ring

end Truncation

section Quotient

/-- The leading digit of a quotient of integers of bounded length. -/
theorem log_quotient {dividend divisor places : Nat} (exponent : ℤ) (some : 0 < dividend)
    (positive : 0 < divisor) (short : dividend < weight 10 places)
    (divisorShort : divisor < weight 10 places) :
    exponent - places ≤ Int.log 10 ((dividend / divisor : ℚ) * 10 ^ exponent) ∧
      Int.log 10 ((dividend / divisor : ℚ) * 10 ^ exponent) < exponent + places := by
  have unit := ten_zpow_pos exponent
  have divisorPositive : (0 : ℚ) < divisor := by exact_mod_cast positive
  have atLeast : (1 : ℚ) ≤ dividend := by exact_mod_cast some
  have divisorAtLeast : (1 : ℚ) ≤ divisor := by exact_mod_cast positive
  have dividendBound : (dividend : ℚ) < 10 ^ (places : ℤ) := by
    rw [← cast_weight]
    exact_mod_cast short
  have divisorBound : (divisor : ℚ) < 10 ^ (places : ℤ) := by
    rw [← cast_weight]
    exact_mod_cast divisorShort
  have quotientPositive : (0 : ℚ) < (dividend / divisor : ℚ) * 10 ^ exponent :=
    mul_pos (div_pos (by linarith) divisorPositive) unit
  constructor
  · rw [le_log_iff quotientPositive, sub_eq_add_neg, add_comm, ten_zpow_add, zpow_neg]
    refine mul_le_mul_of_nonneg_right ?_ unit.le
    rw [inv_eq_one_div]
    exact div_le_div₀ (by linarith) atLeast divisorPositive divisorBound.le
  · rw [log_lt_iff quotientPositive, add_comm, ten_zpow_add]
    refine mul_lt_mul_of_pos_right ?_ unit
    exact (div_le_self (by linarith) divisorAtLeast).trans_lt dividendBound

variable {divisor digits dividend : Nat} {exponent : ℤ} {result : Nat × ℤ}
  (division : Division divisor digits (dividend / divisor) (dividend % divisor) exponent result)
  (positive : 0 < divisor)

include division positive

/-- The exact quotient is what was found and a fraction of its last unit. -/
theorem Division.quotient_eq : ∃ fraction : ℚ, 0 ≤ fraction ∧ fraction < 1 ∧
    (fraction = 0 ∨ digits < decimalLength result.1) ∧
    (dividend / divisor : ℚ) * 10 ^ exponent = (result.1 + fraction) * 10 ^ result.2 := by
  obtain ⟨left, below, done, split⟩ := division.split
  have divisorPositive : (0 : ℚ) < divisor := by exact_mod_cast positive
  refine ⟨left / divisor, by positivity, ?_, ?_, ?_⟩
  · rw [div_lt_one divisorPositive]
    exact_mod_cast below
  · rcases done with none | long
    · exact Or.inl (by rw [none, Nat.cast_zero, zero_div])
    · exact Or.inr long
  · have whole : dividend / divisor * divisor + dividend % divisor = dividend := by
      rw [Nat.mul_comm]
      exact Nat.div_add_mod ..
    rw [whole] at split
    push_cast at split
    field_simp
    linarith

/-- Rounding what was found rounds the exact quotient. -/
theorem Division.nearestDigits_eq : nearestDigits digits (result.1 * 10 ^ result.2) =
    nearestDigits digits ((dividend / divisor : ℚ) * 10 ^ exponent) := by
  obtain ⟨fraction, nonnegative, proper, done, exact⟩ := division.quotient_eq positive
  rw [exact]
  rcases done with none | long
  · rw [none, add_zero]
  · exact (nearestDigits_truncated long nonnegative proper).symm

/-- What was found stays close to the exponents of the operands. -/
theorem Division.exponent_bounds {places : Nat} (some : 0 < dividend)
    (short : dividend < weight 10 places) (divisorShort : divisor < weight 10 places) :
    exponent - digits - places - 1 ≤ result.2 ∧
      result.2 + decimalLength result.1 ≤ exponent + places := by
  obtain ⟨least, most⟩ := log_quotient exponent some positive short divisorShort
  obtain ⟨fraction, nonnegative, proper, _, exact⟩ := division.quotient_eq positive
  have lowered := division.lowered
  rw [exact] at least most
  by_cases none : result.1 = 0
  · have fractionPositive : 0 < fraction := by
      refine lt_of_le_of_ne nonnegative fun zero => ?_
      have quotientPositive : (0 : ℚ) < (dividend / divisor : ℚ) * 10 ^ exponent :=
        mul_pos (div_pos (Nat.cast_pos.mpr some) (Nat.cast_pos.mpr positive)) (ten_zpow_pos _)
      rw [exact, none, ← zero, Nat.cast_zero, add_zero, zero_mul] at quotientPositive
      exact lt_irrefl _ quotientPositive
    have small : Int.log 10 (((result.1 : ℚ) + fraction) * 10 ^ result.2) < result.2 := by
      have unit := ten_zpow_pos result.2
      rw [none, Nat.cast_zero, zero_add, log_lt_iff (mul_pos fractionPositive unit)]
      exact mul_lt_of_lt_one_left unit proper
    rw [none, decimalLength_zero]
    omega
  · have leading := log_truncated result.2 (Nat.pos_of_ne_zero none) nonnegative proper
    rcases division.short with same | few
    · have exponents : result.2 = exponent := congrArg Prod.snd same
      omega
    · omega

end Quotient

section Division

variable {left right : Decimal} {digits : Nat}

theorem div_of_isZero (digits : Nat) (isZero : right.isZero = true) :
    left.div right digits = .error .divisionByZero :=
  if_pos isZero

variable (leftShort : left.precision ≤ 36) (rightShort : right.precision ≤ 36)
  (some : 0 < digits) (few : digits ≤ 35)
  (lower : minimumExponent + 72 ≤ left.exponent - right.exponent)
  (upper : left.exponent - right.exponent + 36 ≤ maximumExponent) (nonzero : right.isZero = false)

/-- The number that dividing mantissas and subtracting exponents makes. -/
theorem toRat_div_toRat (left right : Decimal) : left.toRat / right.toRat =
    signed (left.negative != right.negative)
      ((left.mantissa / right.mantissa : ℚ) * 10 ^ (left.exponent - right.exponent)) := by
  have unit := ten_zpow_pos right.exponent
  have quotient : left.magnitude / right.magnitude =
      (left.mantissa / right.mantissa : ℚ) * 10 ^ (left.exponent - right.exponent) := by
    rw [magnitude, magnitude, mul_div_mul_comm, zpow_sub₀ (by norm_num)]
  rw [toRat, toRat, ← quotient]
  cases left.negative <;> cases right.negative <;>
    simp only [bne_self_eq_false, Bool.true_bne, Bool.false_bne, Bool.not_false,
      signed_false, signed_true, neg_div, div_neg, neg_neg]

include leftShort rightShort few lower upper nonzero

/-- Operands of nonzero value are divided as they are. -/
theorem div_of_nonzero (leftNonzero : left.isZero = false) :
    let found := longDivide right.mantissa digits (left.mantissa / right.mantissa)
      (left.mantissa % right.mantissa) (left.exponent - right.exponent)
    left.div right digits =
      .ok ((normal (left.negative != right.negative) found.1 found.2).roundSignificant digits) := by
  have placed : clamp (left.exponent - right.exponent) = left.exponent - right.exponent :=
    clamp_of_bounds (by omega) (by omega)
  have wanted : min digits (36 - 1) = digits := min_eq_left few
  rw [div, if_neg (Bool.eq_false_iff.mp nonzero), if_neg (Bool.eq_false_iff.mp leftNonzero)]
  simp only [sumWidth, roundSignificant_of_precision_le leftShort,
    roundSignificant_of_precision_le rightShort, placed, wanted]

/-- The division leaves few digits, in the range of exponents. -/
theorem longDivide_bounds (leftNonzero : left.isZero = false) :
    let found := longDivide right.mantissa digits (left.mantissa / right.mantissa)
      (left.mantissa % right.mantissa) (left.exponent - right.exponent)
    minimumExponent ≤ found.2 ∧ found.2 + decimalLength found.1 ≤ maximumExponent ∧
      decimalLength found.1 ≤ 36 := by
  have positive := mantissa_pos nonzero
  have division : Division right.mantissa digits _ _ _ _ := division_longDivide positive
    (Nat.mod_lt left.mantissa positive) (left.mantissa / right.mantissa)
    (left.exponent - right.exponent)
  obtain ⟨least, most⟩ := division.exponent_bounds positive (mantissa_pos leftNonzero)
    (decimalLength_le_iff.mp leftShort) (decimalLength_le_iff.mp rightShort)
  refine ⟨by omega, by omega, ?_⟩
  rcases division.short with same | short
  · rw [same]
    exact (decimalLength_mono (Nat.div_le_self _ _)).trans leftShort
  · omega

include some

/-- A quotient is the exact one rounded to the wanted digits. -/
theorem div_eq_ok : ∃ quotient, left.div right digits = .ok quotient ∧ quotient.IsNormal ∧
    quotient.toRat = nearestDigits digits (left.toRat / right.toRat) := by
  cases isZero : left.isZero with
  | true =>
      refine ⟨zero, ?_, isNormal_zero, ?_⟩
      · rw [div, if_neg (Bool.eq_false_iff.mp nonzero), if_pos isZero]
      · rw [toRat_eq_zero_iff.mpr isZero, zero_div, toRat_zero, nearestDigits_zero]
  | false =>
      have divided := div_of_nonzero leftShort rightShort few lower upper nonzero isZero
      refine ⟨_, divided, isNormal_div divided, ?_⟩
      have positive := mantissa_pos nonzero
      have division : Division right.mantissa digits _ _ _ _ := division_longDivide positive
        (Nat.mod_lt left.mantissa positive) (left.mantissa / right.mantissa)
        (left.exponent - right.exponent)
      have exact := division.nearestDigits_eq positive
      obtain ⟨least, most, length⟩ :=
        longDivide_bounds leftShort rightShort few lower upper nonzero isZero
      generalize longDivide right.mantissa digits (left.mantissa / right.mantissa)
        (left.mantissa % right.mantissa) (left.exponent - right.exponent) = found at *
      obtain ⟨inRange, narrow⟩ := normal_inRange (left.negative != right.negative) least most
      rw [toRat_roundSignificant inRange some (by omega), toRat_normal _ least (by omega),
        nearestDigits_signed, exact, ← nearestDigits_signed, ← toRat_div_toRat]

end Division

end LedgerWire.Decimal
