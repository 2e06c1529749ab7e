import LedgerWire.Proofs.Decimal.Quotient
import LedgerWire.Proofs.Decimal.Words

namespace LedgerWire.Decimal

open Positional

/-!
Long division in words. Each step brings down a digit; as long as the quotient is zero the
remainder grows towards the divisor, and from the first digit on the quotient grows by one digit
a step. So 36 steps more than the wanted digits are enough, and neither the quotient nor ten times
the remainder outgrows a word.
-/

section Checked

/-- Long division in words, of at most so many steps. -/
def longDivide? (divisor digits : Nat) : Nat → Nat → Nat → Int → Option (Nat × Int)
  | 0, quotient, remainder, exponent =>
    if remainder ≠ 0 ∧ decimalLength quotient < digits + 1 then none
    else some (quotient, exponent)
  | steps + 1, quotient, remainder, exponent =>
    if remainder ≠ 0 ∧ decimalLength quotient < digits + 1 then do
      let dividend ← word? (remainder * 10)
      let scaled ← word? (quotient * 10)
      let longer ← word? (scaled + dividend / divisor)
      let lowered ← exponent? (exponent - 1)
      longDivide? divisor digits steps longer (dividend % divisor) lowered
    else some (quotient, exponent)

/-- The quotient in words, by a long division of at most 36 steps more than the wanted digits. -/
def div? (left right : Decimal) (digits : Nat) : Option (Except ValueError Decimal) :=
  if right.isZero then some (.error .divisionByZero)
  else if left.isZero then some (.ok zero)
  else do
    let divisor ← right.roundSignificant? sumWidth
    let dividend ← left.roundSignificant? sumWidth
    let wanted := min digits (sumWidth - 1)
    let exponent ← exponent? (dividend.exponent - divisor.exponent)
    let found ← longDivide? divisor.mantissa wanted (sumWidth + wanted)
      (dividend.mantissa / divisor.mantissa) (dividend.mantissa % divisor.mantissa) exponent
    let whole ← normal? (left.negative != right.negative) found.1 found.2
    let quotient ← whole.roundSignificant? wanted
    return .ok quotient

end Checked

section Steps

/-- Before at most so many steps of a long division: the remainder is proper, the exponent can be
lowered as often, and the digits that are wanted can be reached. A quotient that is still zero has
its first digit to come, once the remainder with zeros brought down reaches the divisor. -/
structure Dividing (divisor digits steps quotient remainder : Nat) (exponent : Int) : Prop where
  proper : remainder < divisor
  lower : minimumExponent + steps ≤ exponent
  upper : exponent ≤ maximumExponent
  reached : remainder = 0 ∨
    (quotient = 0 ∧ digits ≤ steps ∧ divisor ≤ remainder * weight 10 (steps - digits)) ∨
    (0 < quotient ∧ digits < decimalLength quotient + steps)

variable {divisor digits steps quotient remainder : Nat} {exponent : Int}

/-- One step keeps all of this. -/
theorem Dividing.step
    (dividing : Dividing divisor digits (steps + 1) quotient remainder exponent)
    (continues : remainder ≠ 0) :
    Dividing divisor digits steps (quotient * 10 + remainder * 10 / divisor)
      (remainder * 10 % divisor) (exponent - 1) := by
  obtain ⟨proper, lower, upper, reached⟩ := dividing
  refine ⟨Nat.mod_lt _ (by omega), by omega, by omega, ?_⟩
  right
  -- Before its first digit the remainder grows towards the divisor; then each step adds a digit.
  rcases reached with done | ⟨rfl, enough, reaches⟩ | ⟨some, enough⟩
  · exact absurd done continues
  · have more : digits < steps + 1 := by
      refine Nat.lt_of_le_of_ne enough fun same => ?_
      rw [same, Nat.sub_self, weight_zero, Nat.mul_one] at reaches
      omega
    rw [Nat.zero_mul, Nat.zero_add]
    rcases Nat.eq_zero_or_pos (remainder * 10 / divisor) with none | some
    · have fits : remainder * 10 < divisor :=
        (Nat.div_eq_zero_iff.mp none).resolve_left (by omega)
      refine Or.inl ⟨none, by omega, ?_⟩
      rw [Nat.mod_eq_of_lt fits, Nat.mul_assoc, Nat.mul_comm 10, ← weight_succ]
      rwa [show steps - digits + 1 = steps + 1 - digits by omega]
    · have digit := decimalLength_pos some
      exact Or.inr ⟨some, by omega⟩
  · have longer : 0 < quotient * 10 + remainder * 10 / divisor :=
      Nat.add_pos_left (Nat.mul_pos some (by decide)) _
    have length := decimalLength_lt_append longer
    exact Or.inr ⟨longer, by omega⟩

/-- In that many steps, the division ends without an overflow. -/
theorem longDivide?_eq (short : divisor ≤ weight 10 36) (few : digits ≤ 35)
    (dividing : Dividing divisor digits steps quotient remainder exponent) :
    longDivide? divisor digits steps quotient remainder exponent =
      some (longDivide divisor digits quotient remainder exponent) := by
  induction steps generalizing quotient remainder exponent with
  | zero =>
      have stops : ¬ (remainder ≠ 0 ∧ decimalLength quotient < digits + 1) := by
        obtain ⟨proper, _, _, done | ⟨_, none, reaches⟩ | ⟨_, enough⟩⟩ := dividing
        · omega
        · rw [Nat.zero_sub, weight_zero, Nat.mul_one] at reaches
          omega
        · omega
      rw [longDivide?, longDivide.eq_def, if_neg stops, if_neg (by omega)]
  | succ steps ih =>
      have proper := dividing.proper
      rw [longDivide?, longDivide.eq_def]
      by_cases continues : remainder ≠ 0 ∧ decimalLength quotient < digits + 1
      · have wide : weight 10 36 * 10 < weight 10 38 := by decide
        have quotientBound : quotient < weight 10 digits :=
          decimalLength_le_iff.mp (Nat.le_of_lt_succ continues.2)
        have narrow := weight_mono (by decide : 0 < 10) (show digits ≤ 36 by omega)
        have digit : remainder * 10 / divisor < 10 := by
          rw [Nat.div_lt_iff_lt_mul (by omega)]
          omega
        have lower := dividing.lower
        have upper := dividing.upper
        rw [if_pos continues, if_pos (by omega)]
        simp only [word?_of_lt (show remainder * 10 < weight 10 38 by omega),
          word?_of_lt (show quotient * 10 < weight 10 38 by omega),
          word?_of_lt (show quotient * 10 + remainder * 10 / divisor < weight 10 38 by omega),
          exponent?_of_bounds (show minimumExponent ≤ exponent - 1 by omega) (by omega),
          Option.bind_eq_bind, Option.bind_some]
        exact ih (dividing.step continues.1)
      · rw [if_neg continues, if_neg (by omega)]

/-- The division of two mantissas of at most 36 digits takes at most as many steps as those digits
and the wanted ones. -/
theorem dividing_start {dividend : Nat} (positive : 0 < divisor) (short : divisor ≤ weight 10 36)
    (lower : minimumExponent + 71 ≤ exponent) (upper : exponent ≤ maximumExponent)
    (few : digits ≤ 35) :
    Dividing divisor digits (36 + digits) (dividend / divisor) (dividend % divisor) exponent := by
  refine ⟨Nat.mod_lt _ positive, by omega, upper, ?_⟩
  rcases Nat.eq_zero_or_pos (dividend % divisor) with done | remains
  · exact Or.inl done
  · rcases Nat.eq_zero_or_pos (dividend / divisor) with none | some
    · refine Or.inr (Or.inl ⟨none, by omega, ?_⟩)
      rw [Nat.add_sub_cancel]
      exact short.trans (Nat.le_mul_of_pos_left _ remains)
    · exact Or.inr (Or.inr ⟨some, by omega⟩)

end Steps

section Division

variable {left right : Decimal} {digits : Nat} (leftShort : left.precision ≤ 36)
  (rightShort : right.precision ≤ 36) (some : 0 < digits) (few : digits ≤ 35)
  (lower : minimumExponent + 72 ≤ left.exponent - right.exponent)
  (upper : left.exponent - right.exponent + 36 ≤ maximumExponent)

include leftShort rightShort some few lower upper

/-- A division does not overflow. -/
theorem div?_eq : left.div? right digits = .some (left.div right digits) := by
  cases rightZero : right.isZero with
  | true => rw [div?, div, if_pos rightZero, if_pos rightZero]
  | false =>
      cases leftZero : left.isZero with
      | true =>
          rw [div?, div, if_neg (Bool.eq_false_iff.mp rightZero),
            if_neg (Bool.eq_false_iff.mp rightZero), if_pos leftZero, if_pos leftZero]
      | false =>
          have positive := mantissa_pos rightZero
          have short : right.mantissa < weight 10 36 := decimalLength_le_iff.mp rightShort
          have wanted : min digits (36 - 1) = digits := min_eq_left few
          have start : Dividing right.mantissa digits (36 + digits) (left.mantissa / right.mantissa)
              (left.mantissa % right.mantissa) (left.exponent - right.exponent) :=
            dividing_start positive short.le (by omega) (by omega) few
          obtain ⟨least, most, length⟩ :=
            longDivide_bounds leftShort rightShort few lower upper rightZero leftZero
          obtain ⟨inRange, narrow⟩ := normal_inRange (left.negative != right.negative) least most
          have normalised :=
            normal?_eq (left.negative != right.negative) least (Int.le_add_one most)
          rw [div_of_nonzero leftShort rightShort few lower upper rightZero leftZero, div?,
            if_neg (Bool.eq_false_iff.mp rightZero), if_neg (Bool.eq_false_iff.mp leftZero)]
          simp only [sumWidth, roundSignificant?_of_precision_le leftShort,
            roundSignificant?_of_precision_le rightShort, wanted, longDivide?_eq short.le few start,
            exponent?_of_bounds (show minimumExponent ≤ left.exponent - right.exponent by omega)
              (by omega), normalised, roundSignificant?_eq inRange (show _ ≤ 38 by omega) some,
            Option.bind_eq_bind, Option.bind_some]
          rfl

end Division

end LedgerWire.Decimal
