import LedgerWire.Proofs.Decimal.Nearest

namespace LedgerWire

/-!
Quotients of short integers keep away from ties. A quotient that is below a tie is below it by a
whole number of units divided by the divisor, which is far more than what a first rounding to many
digits adds. So rounding a quotient twice is rounding it once.
-/

section Gap

variable {dividend divisor : ℕ} {exponent low tie : ℤ} (positive : 0 < divisor)
  (below : low ≤ exponent)

include positive below

theorem gap_eq : (tie : ℚ) * 10 ^ low - (dividend / divisor : ℚ) * 10 ^ exponent =
    ((tie * divisor - dividend * 10 ^ (exponent - low).toNat : ℤ) : ℚ) * (10 ^ low / divisor) := by
  have divisorPositive : (0 : ℚ) < divisor := Nat.cast_pos.mpr positive
  rw [ten_zpow_eq below]
  push_cast
  field_simp

/-- The integers that tell a quotient from a tie differ. -/
theorem gap_pos (above : (dividend / divisor : ℚ) * 10 ^ exponent < tie * 10 ^ low) :
    0 < tie * divisor - dividend * 10 ^ (exponent - low).toNat := by
  have unit : (0 : ℚ) < 10 ^ low / divisor := div_pos (ten_zpow_pos low) (Nat.cast_pos.mpr positive)
  have apart := sub_pos.mpr above
  rw [gap_eq positive below] at apart
  exact_mod_cast (mul_pos_iff_of_pos_right unit).mp apart

theorem gap_le (above : (dividend / divisor : ℚ) * 10 ^ exponent < tie * 10 ^ low) :
    (dividend / divisor : ℚ) * 10 ^ exponent + 10 ^ low / divisor ≤ tie * 10 ^ low := by
  have unit : (0 : ℚ) < 10 ^ low / divisor := div_pos (ten_zpow_pos low) (Nat.cast_pos.mpr positive)
  have atLeast : (1 : ℚ) ≤ (tie * divisor - dividend * 10 ^ (exponent - low).toNat : ℤ) := by
    exact_mod_cast gap_pos positive below above
  have scaled := mul_le_mul_of_nonneg_right atLeast unit.le
  rw [← gap_eq positive below] at scaled
  linarith

end Gap

section Digits

variable {dividend divisor : ℕ} {exponent : ℤ} {fewer digits places : ℕ}

/-- The tie above a count of units, in tenths of the unit. -/
theorem tie_eq (count unit : ℤ) :
    ((count : ℚ) + 1 / 2) * 10 ^ (unit + 1) = (((2 * count + 1) * 5 : ℤ) : ℚ) * 10 ^ unit := by
  rw [ten_zpow_raise 1 (show unit + 1 = unit + (1 : ℕ) from rfl)]
  push_cast
  ring

/-- The coarse unit as twice a multiple of a finer one. -/
theorem coarse_eq {fine coarse : ℤ} (finer : fine < coarse) :
    (10 : ℚ) ^ coarse = 2 * ((5 * 10 ^ (coarse - 1 - fine).toNat : ℕ) : ℚ) * 10 ^ fine := by
  rw [ten_zpow_raise 1 (show coarse = coarse - 1 + (1 : ℕ) by omega),
    ten_zpow_eq (show fine ≤ coarse - 1 by omega)]
  push_cast
  ring

/-- A quotient of integers of few digits, rounded first to many and then to few digits. -/
theorem nearestDigits_quotient (some : 0 < dividend) (positive : 0 < divisor)
    (short : dividend < 10 ^ places) (divisorShort : divisor < 10 ^ places) (one : 0 < fewer)
    (few : places ≤ fewer + 1) (many : fewer + places + 1 ≤ digits) :
    nearestDigits fewer (nearestDigits digits ((dividend / divisor : ℚ) * 10 ^ exponent)) =
      nearestDigits fewer ((dividend / divisor : ℚ) * 10 ^ exponent) := by
  have divisorPositive : (0 : ℚ) < divisor := Nat.cast_pos.mpr positive
  have quotientPositive : (0 : ℚ) < (dividend / divisor : ℚ) * 10 ^ exponent :=
    mul_pos (div_pos (Nat.cast_pos.mpr some) divisorPositive) (ten_zpow_pos _)
  have leading : Int.log 10 ((dividend / divisor : ℚ) * 10 ^ exponent) < exponent + places := by
    rw [log_lt_iff quotientPositive, add_comm, ten_zpow_add, zpow_natCast]
    refine mul_lt_mul_of_pos_right ?_ (ten_zpow_pos _)
    have atLeast : (1 : ℚ) ≤ divisor := by exact_mod_cast positive
    have bound : (dividend : ℚ) < 10 ^ places := by exact_mod_cast short
    exact (div_le_self (Nat.cast_nonneg _) atLeast).trans_lt bound
  rw [nearestDigits_nearestDigits one (by omega) quotientPositive]
  rw [nearestDigits, nearestDigits, abs_of_pos quotientPositive]
  generalize Int.log 10 ((dividend / divisor : ℚ) * 10 ^ exponent) = top at *
  obtain ⟨count, rounded, lower, upper⟩ :=
    exists_nearest (ten_zpow_pos (top + 1 - fewer)) quotientPositive.le
  rw [rounded]
  apply nearest_nearest (ten_zpow_pos _) (by positivity) (coarse_eq (by omega))
    quotientPositive.le lower
  rw [show top + 1 - (fewer : ℤ) = (top - fewer) + 1 by ring, tie_eq] at upper ⊢
  -- A quotient below a tie is below it by more than the fine unit, since its divisor is short.
  have gap := gap_le positive (show top - (fewer : ℤ) ≤ exponent by omega) upper
  have fine : (10 : ℚ) ^ (top + 1 - digits) < 10 ^ (top - fewer) / divisor := by
    have bound : (divisor : ℚ) < 10 ^ (places : ℤ) := by
      rw [zpow_natCast]
      exact_mod_cast divisorShort
    calc (10 : ℚ) ^ (top + 1 - digits) ≤ 10 ^ (top - fewer - places) := ten_zpow_mono (by omega)
      _ = 10 ^ (top - fewer) / 10 ^ (places : ℤ) := zpow_sub₀ (by norm_num) _ _
      _ < 10 ^ (top - fewer) / divisor :=
        div_lt_div_of_pos_left (ten_zpow_pos _) divisorPositive bound
  have unit := ten_zpow_pos (top + 1 - digits)
  linarith

end Digits

end LedgerWire
