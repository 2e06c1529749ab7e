import LedgerWire.Proofs.Amount.Bounds
import LedgerWire.Proofs.Decimal.Sum

namespace LedgerWire.Amount

open Decimal Positional

/-!
What an operation on amounts may answer: the exact result rounded once to the precision of the
operand's kind, as an amount of the operand's asset, or a refusal if that kind does not admit the
rounded number. The digits of a valid amount stand in a narrow range of exponents, so that no
operation on two of them comes near the limits of decimals.
-/

theorem eq_of_drops {number : ℚ} {drops : ℤ} (whole : number * 10 ^ 6 = drops) :
    number = drops * 10 ^ (-6 : ℤ) := by
  have unit : (10 : ℚ) ^ (-6 : ℤ) * 10 ^ 6 = 1 := by norm_num
  rw [← whole, mul_assoc, mul_comm (10 ^ 6), unit, mul_one]

section Digits

variable {amount : Amount} (valid : amount.Valid)

include valid

theorem Valid.native_magnitude (isNative : amount.isNative = true) :
    amount.value.magnitude * 10 ^ 6 ≤ 10 ^ 18 := by
  obtain ⟨drops, whole, bound⟩ := (checkNative_iff_bounds valid.normal).mp
    ((check_of_isNative isNative).symm.trans valid.checked)
  have size : |drops| ≤ 10 ^ 18 := by
    rcases bound with small | large
    · exact small.trans (by norm_num)
    · rw [large]
      norm_num
  have cast : |(drops : ℚ)| ≤ 10 ^ 18 := by exact_mod_cast size
  rwa [← whole, abs_mul, abs_toRat, abs_of_pos (by norm_num)] at cast

/-- A native value has at most seventeen digits: the two values beyond are powers of ten. -/
theorem Valid.native_digits (isNative : amount.isNative = true) :
    amount.value.precision ≤ 17 ∧ -6 ≤ amount.value.exponent ∧
      amount.value.exponent + amount.value.precision ≤ 13 := by
  obtain ⟨drops, whole, bound⟩ := (checkNative_iff_bounds valid.normal).mp
    ((check_of_isNative isNative).symm.trans valid.checked)
  have spelled := eq_of_drops whole
  have short : HasDigits 17 amount.value.toRat := by
    rcases bound with small | large
    · rcases lt_or_eq_of_le small with below | most
      · exact ⟨drops, -6, below, spelled⟩
      · rcases abs_eq (by norm_num) |>.mp most with same | same
        · refine ⟨1, 11, by norm_num, ?_⟩
          rw [spelled, same]
          norm_num
        · refine ⟨-1, 11, by norm_num, ?_⟩
          rw [spelled, same]
          norm_num
    · refine ⟨1, 12, by norm_num, ?_⟩
      rw [spelled, large]
      norm_num
  refine ⟨valid.normal.precision_le short, ?_⟩
  cases isZero : amount.value.isZero with
  | true =>
      rw [valid.normal.eq_zero isZero, precision_zero]
      decide
  | false =>
      have below : |amount.value.toRat| < 10 ^ (13 : ℤ) := by
        have size := valid.native_magnitude isNative
        rw [abs_toRat]
        norm_num
        linarith
      exact valid.normal.exponent_bounds isZero spelled below

theorem Valid.issued_digits (isIssued : amount.isNative = false)
    (bounded : amount.unbounded = false) :
    amount.value.precision ≤ 16 ∧ -96 ≤ amount.value.exponent ∧
      amount.value.exponent + amount.value.precision ≤ 96 := by
  have checked := (check_of_issued isIssued).symm.trans valid.checked
  rw [bounded] at checked
  cases isZero : amount.value.isZero with
  | true =>
      rw [valid.normal.eq_zero isZero, precision_zero]
      decide
  | false =>
      obtain ⟨short, normalised, inside⟩ := issued_bounds isZero checked
      rw [inExponentRange_iff, normalised] at inside
      have some := precision_pos isZero
      omega

variable (bounded : amount.unbounded = false)

include bounded

theorem Valid.digits : amount.value.precision ≤ 17 ∧ -96 ≤ amount.value.exponent ∧
    amount.value.exponent + amount.value.precision ≤ 96 := by
  cases isNative : amount.isNative with
  | true =>
      have digits := valid.native_digits isNative
      omega
  | false =>
      have digits := valid.issued_digits isNative bounded
      omega

theorem Valid.moderate : amount.value.Moderate := by
  have digits := valid.digits bounded
  refine ⟨by omega, ?_, ?_⟩
  · simp only [minimumExponent]
    omega
  · simp only [maximumExponent]
    omega

end Digits

/-- The number to the precision of an amount's kind: six decimal places, or sixteen digits. -/
def rounded (operand : Amount) (number : ℚ) : ℚ :=
  if operand.isNative then nearestPlaces 6 number else nearestDigits 16 number

/-- An outcome that is the exact number rounded once, as an amount of the operand's asset, or a
refusal if the operand's kind does not admit the rounded number. -/
structure RoundsTo (operand : Amount) (number : ℚ) (outcome : Except ValueError Amount) : Prop where
  answered : operand.Admits (operand.rounded number) → ∃ amount : Amount, outcome = .ok amount ∧
    amount.Valid ∧ amount.value.toRat = operand.rounded number ∧
    amount.currency = operand.currency ∧ amount.issuer = operand.issuer ∧ amount.unbounded = false
  refused : ¬ operand.Admits (operand.rounded number) →
    ∃ text cause, outcome = .error (.precision text cause)

section Outcomes

variable {operand : Amount} {value : Decimal}

theorem toRat_roundFor (operand : Amount) (inRange : value.InRange) (narrow : value.precision ≤ 38) :
    (operand.roundFor value).toRat = operand.rounded value.toRat := by
  rw [roundFor, rounded]
  split
  · exact toRat_roundScale inRange narrow (Or.inl (by decide))
  · exact toRat_roundSignificant inRange (by decide) (by omega)

theorem checkNative_error {cause : ValueError} (refused : checkNative value = .error cause) :
    ∃ text reason, cause = .precision text reason := by
  simp only [checkNative] at refused
  repeat' split at refused
  all_goals cases refused
  all_goals exact ⟨_, _, rfl⟩

theorem checkIssued_error {unbounded : Bool} {cause : ValueError}
    (refused : checkIssued value unbounded = .error cause) :
    ∃ text reason, cause = .precision text reason := by
  simp only [checkIssued] at refused
  repeat' split at refused
  all_goals cases refused
  all_goals exact ⟨_, _, rfl⟩

/-- The check of a bounded amount is that of its number, and refuses it for its precision. -/
theorem check_cases (normal : value.IsNormal) (bounded : operand.unbounded = false) :
    (operand.Admits value.toRat ∧ check { operand with value := value } = .ok ()) ∨
      (¬ operand.Admits value.toRat ∧ ∃ text cause,
        check { operand with value := value } = .error (.precision text cause)) := by
  have native : check { operand with value := value } =
      if operand.isNative then checkNative value else checkIssued value operand.unbounded := rfl
  rw [native, Admits, bounded]
  cases operand.isNative with
  | true =>
      simp only [if_true]
      rw [← checkNative_iff_bounds normal]
      cases checked : checkNative value with
      | ok => exact Or.inl ⟨rfl, rfl⟩
      | error cause =>
          obtain ⟨text, reason, rfl⟩ := checkNative_error checked
          exact Or.inr ⟨by intro passed; contradiction, text, reason, rfl⟩
  | false =>
      simp only [Bool.false_eq_true, if_false]
      rw [← checkIssued_iff_bounds normal]
      cases checked : checkIssued value false with
      | ok => exact Or.inl ⟨rfl, rfl⟩
      | error cause =>
          obtain ⟨text, reason, rfl⟩ := checkIssued_error checked
          exact Or.inr ⟨by intro passed; contradiction, text, reason, rfl⟩

/-- Giving an amount another value rounds it and checks what it rounds to. -/
theorem withValue_cases (normal : value.IsNormal) (bounded : operand.unbounded = false) :
    (operand.Admits (operand.roundFor value).toRat ∧
        operand.withValue value = .ok { operand with value := operand.roundFor value }) ∨
      (¬ operand.Admits (operand.roundFor value).toRat ∧
        ∃ text cause, operand.withValue value = .error (.precision text cause)) := by
  have unfolded : operand.withValue value = (do
      check { operand with value := operand.roundFor value }
      pure { operand with value := operand.roundFor value }) := by
    rw [withValue, ← bounded]
  rw [unfolded]
  rcases check_cases (isNormal_roundFor operand normal) bounded with
    ⟨admitted, checked⟩ | ⟨refused, text, cause, checked⟩
  · rw [checked]
    exact Or.inl ⟨admitted, rfl⟩
  · rw [checked]
    exact Or.inr ⟨refused, text, cause, rfl⟩

variable {number : ℚ} (valid : operand.Valid) (bounded : operand.unbounded = false)
  (normal : value.IsNormal)

include bounded normal

include valid in
theorem roundsTo_withValue (exact : (operand.roundFor value).toRat = operand.rounded number) :
    operand.RoundsTo number (operand.withValue value) := by
  have outcomes := withValue_cases normal bounded
  rw [exact] at outcomes
  rcases outcomes with ⟨admitted, answered⟩ | ⟨refused, failed⟩
  · exact ⟨fun _ => ⟨_, answered, valid_withValue valid normal answered, exact, rfl, rfl, bounded⟩,
      fun refused => absurd admitted refused⟩
  · exact ⟨fun admitted => absurd admitted refused, fun _ => failed⟩

/-- A value that rounds to another number than the exact one makes no difference if neither is
admitted. -/
theorem roundsTo_withValue_of_refused (outside : ¬ operand.Admits (operand.roundFor value).toRat)
    (exactOutside : ¬ operand.Admits (operand.rounded number)) :
    operand.RoundsTo number (operand.withValue value) := by
  rcases withValue_cases normal bounded with ⟨admitted, _⟩ | ⟨_, failed⟩
  · exact absurd admitted outside
  · exact ⟨fun admitted => absurd admitted exactOutside, fun _ => failed⟩

end Outcomes

/-- An amount of dollars, issued by the neutral account. -/
def dollars (value : Decimal) : Amount :=
  ⟨value, Currency.ofCode ⟨[85, 83, 68], rfl⟩ 0, Account.one, false⟩

theorem valid_dollars {value : Decimal} (last : value.mantissa % 10 ≠ 0)
    (checked : checkIssued value false = .ok ()) : (dollars value).Valid := by
  have isIssued : (dollars value).isNative = false := by
    change (dollars zero).isNative = false
    decide
  exact ⟨Or.inr last, mantissa_le_of_checkIssued checked,
    (check_of_issued isIssued).trans checked, fun isNative => absurd isNative (by rw [isIssued]; decide)⟩

end LedgerWire.Amount
