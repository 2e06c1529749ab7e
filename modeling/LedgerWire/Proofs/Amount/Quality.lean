import LedgerWire.Proofs.Amount.Division
import LedgerWire.Proofs.Decimal.LongDivision

namespace LedgerWire

open Decimal

/-!
The quality of two amounts, and the division that it rests on: long division ends within words and
its answer is the exact quotient rounded once. The mantissas and exponents of amounts are far inside
the range in which that holds.
-/

/-- Division by zero is refused. Any other division of numbers of at most 36 digits ends without an
overflow, and answers the exact quotient rounded to the wanted digits; so the quality of two bounded
amounts is their exact ratio to 34 digits. -/
theorem Decimal.div_rounds_in_words {left right : Decimal} {digits : Nat}
    (leftShort : left.precision ≤ 36) (rightShort : right.precision ≤ 36) (some : 0 < digits)
    (few : digits ≤ 35) (lower : minimumExponent + 72 ≤ left.exponent - right.exponent)
    (upper : left.exponent - right.exponent + 36 ≤ maximumExponent) :
    (left.div right digits = .error .divisionByZero ↔ right.toRat = 0) ∧
    (right.toRat ≠ 0 → ∃ quotient, left.div? right digits = .some (.ok quotient) ∧
      left.div right digits = .ok quotient ∧ quotient.IsNormal ∧
      quotient.toRat = nearestDigits digits (left.toRat / right.toRat)) ∧
    ∀ dividend divisor : Amount, dividend.Valid → divisor.Valid → dividend.unbounded = false →
      divisor.unbounded = false → divisor.value.toRat ≠ 0 →
      ∃ quotient, dividend.quality divisor = .ok quotient ∧
        quotient.toRat = nearestDigits 34 (dividend.value.toRat / divisor.value.toRat) := by
  have checked := div?_eq leftShort rightShort some few lower upper
  refine ⟨?_, fun nonzero => ?_, ?_⟩
  · rw [toRat_eq_zero_iff]
    cases isZero : right.isZero with
    | true => exact iff_of_true (div_of_isZero digits isZero) rfl
    | false =>
        obtain ⟨quotient, divided, _⟩ := div_eq_ok leftShort rightShort some few lower upper isZero
        rw [divided]
        exact iff_of_false nofun nofun
  · rw [ne_eq, toRat_eq_zero_iff, Bool.not_eq_true] at nonzero
    obtain ⟨quotient, divided, normal, rounded⟩ :=
      div_eq_ok leftShort rightShort some few lower upper nonzero
    exact ⟨quotient, checked.trans (congrArg Option.some divided), divided, normal, rounded⟩
  · intro dividend divisor dividendValid divisorValid dividendBounded divisorBounded nonzero
    rw [ne_eq, toRat_eq_zero_iff, Bool.not_eq_true] at nonzero
    obtain ⟨quotient, divided, _, rounded, _⟩ := Amount.quality_eq_ok dividendValid divisorValid
      dividendBounded divisorBounded nonzero
    exact ⟨quotient, divided, rounded⟩

/-- Two thirds to five digits. -/
theorem Decimal.div_rounds_in_words_twoThirds :
    ∃ quotient, div? ⟨false, 2, 0⟩ ⟨false, 3, 0⟩ 5 = some (.ok quotient) ∧
      quotient.toRat = 66667 / 10 ^ 5 := by
  have two : (⟨false, 2, 0⟩ : Decimal).toRat = 2 := by simp [toRat, magnitude]
  have three : (⟨false, 3, 0⟩ : Decimal).toRat = 3 := by simp [toRat, magnitude]
  have twoShort : (⟨false, 2, 0⟩ : Decimal).precision ≤ 36 :=
    Positional.decimalLength_le_iff.mpr (by decide)
  have threeShort : (⟨false, 3, 0⟩ : Decimal).precision ≤ 36 :=
    Positional.decimalLength_le_iff.mpr (by decide)
  have divided := (div_rounds_in_words twoShort threeShort (by decide : 0 < 5) (by decide)
    (by decide) (by decide)).2.1 (by rw [three]; norm_num)
  obtain ⟨quotient, checked, _, _, rounded⟩ := divided
  refine ⟨quotient, checked, ?_⟩
  rw [two, three] at rounded
  have leading : Int.log 10 |(2 : ℚ) / 3| = -1 := by
    rw [abs_of_pos (by norm_num)]
    exact log_eq (by norm_num) (by norm_num)
  rw [rounded, nearestDigits, leading, nearest_eq (by positivity) (by norm_num)
    (show (((66667 : ℤ) : ℚ) - 1 / 2) * _ ≤ _ by norm_num) (by norm_num)]
  norm_num

end LedgerWire
