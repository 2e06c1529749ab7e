import LedgerWire.Decimal.Arithmetic
import LedgerWire.Decimal.Text
import LedgerWire.Proofs.Positional

namespace LedgerWire.Decimal

open Positional

/-!
The normal form of decimals. A number in normal form is determined by any of its spellings
`m · 10^e`, every operation answers in normal form, and rounding to a number of significant digits
leaves at most that many.
-/

/-- A mantissa without a trailing zero, or zero itself. -/
def IsNormal (decimal : Decimal) : Prop :=
  decimal = zero ∨ decimal.mantissa % 10 ≠ 0

theorem clamp_of_bounds {exponent : Int} (lower : minimumExponent ≤ exponent)
    (upper : exponent ≤ maximumExponent) : clamp exponent = exponent := by
  simp only [clamp]
  omega

theorem bounds_of_small {exponent : Int} (small : exponent.natAbs ≤ 2147483647) :
    minimumExponent ≤ exponent ∧ exponent ≤ maximumExponent := by
  simp only [minimumExponent, maximumExponent]
  omega

theorem clamp_of_small {exponent : Int} (small : exponent.natAbs ≤ 2147483647) :
    clamp exponent = exponent := by
  obtain ⟨lower, upper⟩ := bounds_of_small small
  exact clamp_of_bounds lower upper

/-- An exponent that was brought strictly between the ends was there before. -/
theorem eq_of_clamp {exponent : Int} (lower : minimumExponent < clamp exponent)
    (upper : clamp exponent < maximumExponent) : clamp exponent = exponent := by
  simp only [clamp] at *
  omega

theorem stripZeros_of_last {mantissa : Nat} (last : mantissa % 10 ≠ 0) (exponent : Int) :
    stripZeros mantissa exponent = (mantissa, exponent) := by
  rw [stripZeros.eq_def, if_neg (fun trailing => last trailing.2)]

theorem stripZeros_scaled {mantissa : Nat} (last : mantissa % 10 ≠ 0) {places : Nat}
    {exponent : Int} (lower : minimumExponent ≤ exponent)
    (upper : exponent + places ≤ maximumExponent) :
    stripZeros (mantissa * weight 10 places) exponent = (mantissa, exponent + places) := by
  induction places generalizing exponent with
  | zero => rw [weight_zero, Nat.mul_one, stripZeros_of_last last]; simp
  | succ places ih =>
      have positive : 0 < mantissa * weight 10 places :=
        Nat.mul_pos (by omega) (weight_pos (by decide) places)
      have spelled : mantissa * weight 10 (places + 1) = mantissa * weight 10 places * 10 := by
        rw [weight_succ, Nat.mul_assoc]
      have next : clamp (exponent + 1) = exponent + 1 :=
        clamp_of_bounds (by omega) (by omega)
      rw [stripZeros.eq_def, spelled, if_pos (by omega), Nat.mul_div_cancel _ (by decide), next,
        ih (by omega) (by omega)]
      congr 1
      omega

theorem stripZeros_last {mantissa : Nat} (positive : 0 < mantissa) (exponent : Int) :
    (stripZeros mantissa exponent).1 % 10 ≠ 0 := by
  fun_induction stripZeros mantissa exponent with
  | case1 mantissa exponent trailing ih => exact ih (by omega)
  | case2 mantissa exponent last =>
      intro trailing
      exact last ⟨positive, trailing⟩

/-- The stripped mantissa, up to the power of ten that was stripped. -/
theorem stripZeros_places (mantissa : Nat) (exponent : Int) :
    ∃ places, mantissa = (stripZeros mantissa exponent).1 * weight 10 places := by
  fun_induction stripZeros mantissa exponent with
  | case1 mantissa exponent trailing ih =>
      obtain ⟨places, tenth⟩ := ih
      refine ⟨places + 1, ?_⟩
      rw [weight_succ, ← Nat.mul_assoc, ← tenth]
      omega
  | case2 mantissa exponent => exact ⟨0, (Nat.mul_one mantissa).symm⟩

theorem normal_of_pos {mantissa : Nat} (positive : 0 < mantissa) (negative : Bool)
    (exponent : Int) : normal negative mantissa exponent =
      ⟨negative, (stripZeros mantissa exponent).1, (stripZeros mantissa exponent).2⟩ :=
  if_neg (by omega)

theorem isNormal_zero : IsNormal zero := Or.inl rfl

theorem isNormal_normal (negative : Bool) (mantissa : Nat) (exponent : Int) :
    IsNormal (normal negative mantissa exponent) := by
  simp only [normal]
  split
  · exact isNormal_zero
  · exact Or.inr (stripZeros_last (by omega) exponent)

theorem normal_scaled {negative : Bool} {mantissa : Nat} (last : mantissa % 10 ≠ 0) {places : Nat}
    {exponent : Int} (small : exponent.natAbs + places ≤ 2147483647) :
    normal negative (mantissa * weight 10 places) exponent =
      ⟨negative, mantissa, exponent + places⟩ := by
  have positive : 0 < mantissa * weight 10 places :=
    Nat.mul_pos (by omega) (weight_pos (by decide) places)
  have lower : minimumExponent ≤ exponent := by simp only [minimumExponent]; omega
  have upper : exponent + places ≤ maximumExponent := by simp only [maximumExponent]; omega
  rw [normal_of_pos positive, stripZeros_scaled last lower upper]

theorem IsNormal.last {decimal : Decimal} (isNormal : IsNormal decimal)
    (nonzero : decimal.isZero = false) : decimal.mantissa % 10 ≠ 0 := by
  rcases isNormal with rfl | last
  · exact absurd nonzero (by decide)
  · exact last

theorem IsNormal.eq_zero {decimal : Decimal} (isNormal : IsNormal decimal)
    (isZero : decimal.isZero = true) : decimal = zero := by
  rcases isNormal with rfl | last
  · rfl
  · have zero : decimal.mantissa = 0 := eq_of_beq isZero
    rw [zero] at last
    contradiction

theorem mantissa_pos {decimal : Decimal} (nonzero : decimal.isZero = false) :
    0 < decimal.mantissa := by
  have notZero : decimal.mantissa ≠ 0 := fun zero => by
    simp only [isZero] at nonzero
    rw [zero] at nonzero
    contradiction
  omega

theorem isZero_normal {mantissa : Nat} (positive : 0 < mantissa) (negative : Bool)
    (exponent : Int) : (normal negative mantissa exponent).isZero = false := by
  have last := stripZeros_last positive exponent
  rw [normal_of_pos positive, isZero, beq_eq_false_iff_ne]
  intro (zero : (stripZeros mantissa exponent).1 = 0)
  rw [zero] at last
  contradiction

theorem precision_normal_le {mantissa digits : Nat} (some : 0 < digits)
    (bound : mantissa ≤ weight 10 digits) (negative : Bool) (exponent : Int) :
    (normal negative mantissa exponent).precision ≤ digits := by
  by_cases zero : mantissa = 0
  · have none : (normal negative mantissa exponent).precision = 0 := by
      rw [normal, if_pos zero]
      exact decimalLength_zero
    omega
  · obtain ⟨places, spelled⟩ := stripZeros_places mantissa exponent
    have last := stripZeros_last (by omega : 0 < mantissa) exponent
    rw [normal_of_pos (by omega), precision, decimalLength_le_iff]
    change (stripZeros mantissa exponent).1 < weight 10 digits
    have shorter : (stripZeros mantissa exponent).1 ≤ mantissa := by
      have scaled := Nat.le_mul_of_pos_right (stripZeros mantissa exponent).1
        (weight_pos (by decide : 0 < 10) places)
      rwa [← spelled] at scaled
    have trailing : weight 10 digits % 10 = 0 := by
      obtain ⟨shorterDigits, rfl⟩ := Nat.exists_eq_succ_of_ne_zero (by omega : digits ≠ 0)
      rw [Nat.succ_eq_add_one, weight_succ, Nat.mul_mod_left]
    have different : (stripZeros mantissa exponent).1 ≠ weight 10 digits := fun same => by
      rw [same] at last
      contradiction
    omega

theorem dropDivisor_eq {count : Nat} (bound : count ≤ 38) : dropDivisor count = weight 10 count := by
  have widest : weight 10 38 ≤ maximumMantissa := by decide
  have below := weight_mono (by decide : 0 < 10) bound
  simp only [dropDivisor]
  omega

theorem precision_le_of_mantissa_le {decimal : Decimal}
    (bound : decimal.mantissa ≤ maximumMantissa) : decimal.precision ≤ 39 := by
  have wide : maximumMantissa < weight 10 39 := by decide
  exact decimalLength_le_iff.mpr (by omega)

theorem roundSignificant_of_precision_le {decimal : Decimal} {digits : Nat}
    (short : decimal.precision ≤ digits) : decimal.roundSignificant digits = decimal :=
  if_pos short

theorem isNormal_dropDigits (decimal : Decimal) (count : Nat) :
    (decimal.dropDigits count).IsNormal :=
  isNormal_normal _ _ _

theorem IsNormal.roundSignificant {decimal : Decimal} (isNormal : decimal.IsNormal)
    (digits : Nat) : (decimal.roundSignificant digits).IsNormal := by
  simp only [Decimal.roundSignificant]
  split
  · exact isNormal
  · exact isNormal_dropDigits _ _

theorem IsNormal.roundScale {decimal : Decimal} (isNormal : decimal.IsNormal) (scale : Int) :
    (decimal.roundScale scale).IsNormal := by
  unfold Decimal.roundScale
  simp only
  split
  · exact isNormal
  · split
    · exact isNormal_zero
    · exact isNormal_dropDigits _ _

theorem IsNormal.negate {decimal : Decimal} (isNormal : decimal.IsNormal) :
    decimal.negate.IsNormal := by
  simp only [Decimal.negate]
  split
  · exact isNormal
  · rename_i nonzero
    exact Or.inr (isNormal.last (Bool.eq_false_iff.mpr nonzero))

theorem leadingExponent_negate (decimal : Decimal) :
    decimal.negate.leadingExponent = decimal.leadingExponent := by
  rw [negate]
  split <;> rfl

theorem isZero_negate (decimal : Decimal) : decimal.negate.isZero = decimal.isZero := by
  rw [negate]
  split <;> rfl

theorem IsNormal.abs {decimal : Decimal} (isNormal : decimal.IsNormal) : decimal.abs.IsNormal := by
  rcases isNormal with rfl | last
  · exact isNormal_zero
  · exact Or.inr last

theorem IsNormal.shift {decimal : Decimal} (isNormal : decimal.IsNormal) (places : Int) :
    (decimal.shift places).IsNormal := by
  simp only [Decimal.shift]
  split
  · exact isNormal
  · rename_i nonzero
    exact Or.inr (isNormal.last (Bool.eq_false_iff.mpr nonzero))

theorem IsNormal.cutBelow {decimal : Decimal} (isNormal : decimal.IsNormal) (low : Int) :
    (decimal.cutBelow low).IsNormal := by
  simp only [Decimal.cutBelow]
  split
  · exact isNormal.roundScale _
  · exact isNormal

theorem isNormal_addAligned (big small : Decimal) : (big.addAligned small).IsNormal := by
  unfold addAligned
  simp only
  split
  · exact isNormal_normal _ _ _
  · split <;> exact isNormal_normal _ _ _

theorem IsNormal.addOrdered {big : Decimal} (isNormal : big.IsNormal) (small : Decimal) :
    (big.addOrdered small).IsNormal := by
  unfold Decimal.addOrdered
  simp only
  split
  · exact isNormal
  · split
    · exact isNormal.cutBelow _
    · exact isNormal_addAligned _ _

theorem IsNormal.add {left right : Decimal} (leftNormal : left.IsNormal)
    (rightNormal : right.IsNormal) : (left.add right).IsNormal := by
  simp only [Decimal.add]
  split
  · exact rightNormal
  · split
    · exact leftNormal
    · split
      · exact leftNormal.addOrdered right
      · exact rightNormal.addOrdered left

theorem isNormal_mul (left right : Decimal) : (left.mul right).IsNormal := by
  simp only [mul]
  split
  · exact isNormal_zero
  · exact isNormal_normal _ _ _

theorem isNormal_div {left right quotient : Decimal} {digits : Nat}
    (divided : left.div right digits = .ok quotient) : quotient.IsNormal := by
  simp only [div] at divided
  split at divided
  · contradiction
  · split at divided
    · cases divided
      exact isNormal_zero
    · cases divided
      exact (isNormal_normal _ _ _).roundSignificant _

theorem isNormal_ofInt (number : Int) : (ofInt number).IsNormal :=
  isNormal_normal _ _ _

theorem isNormal_parse {text : String} {decimal : Decimal} (parsed : parse text = .ok decimal) :
    decimal.IsNormal := by
  simp only [parse] at parsed
  simp only [bind, Except.bind, throw, throwThe, MonadExceptOf.throw, pure, Except.pure] at parsed
  repeat' split at parsed
  -- Every refusal is gone; what is answered was brought to normal form.
  all_goals cases parsed
  all_goals exact isNormal_normal _ _ _

section Rounding

variable {decimal : Decimal} {digits : Nat} (bound : decimal.mantissa ≤ maximumMantissa)
  (some : 0 < digits)

include bound some

/-- The digits that rounding keeps are at least one and at most as many as asked for. -/
private theorem kept_bounds (long : digits < decimal.precision) :
    0 < decimal.mantissa / dropDivisor (decimal.precision - digits) ∧
      decimal.mantissa / dropDivisor (decimal.precision - digits) < weight 10 digits := by
  have wide := precision_le_of_mantissa_le bound
  have positive := weight_pos (by decide : 0 < 10) (decimal.precision - digits)
  rw [dropDivisor_eq (by omega)]
  constructor
  · apply Nat.div_pos _ positive
    apply weight_le_of_lt_decimalLength
    change decimal.precision - digits < decimal.precision
    omega
  · rw [Nat.div_lt_iff_lt_mul positive, ← weight_add, Nat.add_sub_cancel' (by omega)]
    exact lt_weight_decimalLength decimal.mantissa

theorem precision_roundSignificant_le : (decimal.roundSignificant digits).precision ≤ digits := by
  simp only [roundSignificant]
  split
  · assumption
  · obtain ⟨_, above⟩ := kept_bounds bound some (by omega)
    apply precision_normal_le some
    split <;> split <;> omega

theorem isZero_roundSignificant :
    (decimal.roundSignificant digits).isZero = decimal.isZero := by
  simp only [roundSignificant]
  split
  · rfl
  · rename_i long
    obtain ⟨below, _⟩ := kept_bounds bound some (by omega)
    have nonzero : decimal.isZero = false := by
      simp only [isZero]
      rw [beq_eq_false_iff_ne]
      intro zero
      rw [zero, Nat.zero_div] at below
      exact absurd below (by decide)
    rw [nonzero]
    apply isZero_normal
    split <;> split <;> omega

end Rounding

end LedgerWire.Decimal
