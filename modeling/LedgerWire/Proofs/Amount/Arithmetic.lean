import LedgerWire.Proofs.Amount.Rounding
import LedgerWire.Proofs.Currency

namespace LedgerWire.Amount

open Decimal

/-!
Sums, differences, products, opposites and magnitudes of amounts are the exact ones rounded once.
Sums need one denomination; those of native amounts are sums of drops.
-/

/-- Amounts of one currency and, unless it is native, of one issuer. -/
def SharesAsset (left right : Amount) : Prop :=
  left.currency = right.currency ∧ (left.isNative = true ∨ left.issuer = right.issuer)

/-- An outcome that is a number of drops, or a refusal if it is out of bounds. -/
structure IsDrops (drops : ℤ) (outcome : Except ValueError Amount) : Prop where
  answered : |drops| ≤ 10 ^ 17 ∨ drops = 10 ^ 18 →
    ∃ amount, outcome = .ok amount ∧ amount.drops? = some drops
  refused : ¬ (|drops| ≤ 10 ^ 17 ∨ drops = 10 ^ 18) →
    ∃ text cause, outcome = .error (.precision text cause)

theorem sameDenomination_iff {left right : Amount} :
    left.sameDenomination right = true ↔ left.SharesAsset right := by
  rw [sameDenomination, Bool.and_eq_true, Bool.or_eq_true, Currency.same_iff, beq_iff_eq]
  rfl

theorem requireSameDenomination_of_shares {left right : Amount} (shares : left.SharesAsset right) :
    left.requireSameDenomination right = .ok () :=
  if_pos (sameDenomination_iff.mpr shares)

theorem requireSameDenomination_of_not_shares {left right : Amount}
    (differs : ¬ left.SharesAsset right) : left.requireSameDenomination right =
      .error (.currencyMismatch left.denomination right.denomination) :=
  if_neg fun same => differs (sameDenomination_iff.mp same)

section Operations

variable {left right : Amount} (leftValid : left.Valid) (leftBounded : left.unbounded = false)

include leftValid leftBounded

theorem roundsTo_negate : left.RoundsTo (-left.value.toRat) left.negate := by
  have moderate := (leftValid.moderate leftBounded).negate
  apply roundsTo_withValue leftValid leftBounded leftValid.normal.negate
  rw [toRat_roundFor _ moderate.inRange moderate.narrow, toRat_negate]

theorem roundsTo_abs : left.RoundsTo |left.value.toRat| left.abs := by
  have moderate := (leftValid.moderate leftBounded).abs
  apply roundsTo_withValue leftValid leftBounded leftValid.normal.abs
  rw [toRat_roundFor _ moderate.inRange moderate.narrow, toRat_abs]

variable (rightValid : right.Valid) (rightBounded : right.unbounded = false)

include rightValid rightBounded

theorem roundsTo_multiply :
    left.RoundsTo (left.value.toRat * right.value.toRat) (left.multiply right) := by
  obtain ⟨leftShort, leftLower, leftUpper⟩ := leftValid.digits leftBounded
  obtain ⟨rightShort, rightLower, rightUpper⟩ := rightValid.digits rightBounded
  have lower : minimumExponent ≤ left.value.exponent + right.value.exponent := by
    simp only [minimumExponent]
    omega
  have upper : left.value.exponent + right.value.exponent + 38 ≤ maximumExponent := by
    simp only [maximumExponent]
    omega
  obtain ⟨inRange, narrow⟩ := mul_inRange (leftShort.trans (by decide))
    (rightShort.trans (by decide)) lower upper
  apply roundsTo_withValue leftValid leftBounded (isNormal_mul _ _)
  rw [toRat_roundFor _ inRange narrow, toRat_mul (leftShort.trans (by decide))
    (rightShort.trans (by decide)) lower upper]

end Operations

section Sums

/-- What a sum needs of its operands: values of one kind. -/
structure Summand (operand : Amount) (value : Decimal) : Prop where
  normal : value.IsNormal
  moderate : value.Moderate
  native : operand.isNative = true → -6 ≤ value.exponent ∧ value.exponent + value.precision ≤ 13
  issued : operand.isNative = false → value.precision ≤ 16

variable {operand : Amount} {left right : Decimal}

theorem Summand.negate (summand : operand.Summand right) : operand.Summand right.negate := by
  refine ⟨summand.normal.negate, summand.moderate.negate, ?_, ?_⟩ <;> rw [Decimal.negate] <;> split
  · exact summand.native
  · exact summand.native
  · exact summand.issued
  · exact summand.issued

theorem Valid.summand {amount : Amount} (valid : amount.Valid) (bounded : amount.unbounded = false)
    (same : operand.isNative = amount.isNative) : operand.Summand amount.value :=
  ⟨valid.normal, valid.moderate bounded, fun isNative => (valid.native_digits (same ▸ isNative)).2,
    fun isIssued => (valid.issued_digits (same ▸ isIssued) bounded).1⟩

/-- A sum within one kind loses nothing that rounding for the kind would keep. -/
theorem rounded_add (leftSummand : operand.Summand left) (rightSummand : operand.Summand right) :
    operand.rounded (left.add right).toRat = operand.rounded (left.toRat + right.toRat) := by
  rw [rounded, rounded]
  cases isNative : operand.isNative with
  | true =>
      have leftDigits := leftSummand.native isNative
      have rightDigits := rightSummand.native isNative
      have leftLowest := leftSummand.moderate.lowest_eq
      have rightLowest := rightSummand.moderate.lowest_eq
      rw [toRat_add leftSummand.normal rightSummand.normal leftSummand.moderate
        rightSummand.moderate (by omega) (by omega)]
  | false =>
      exact nearestDigits_add leftSummand.normal rightSummand.normal leftSummand.moderate
        rightSummand.moderate (by decide) (leftSummand.issued isNative)
        (rightSummand.issued isNative)

theorem roundsTo_sum (valid : operand.Valid) (bounded : operand.unbounded = false)
    (leftSummand : operand.Summand left) (rightSummand : operand.Summand right) :
    operand.RoundsTo (left.toRat + right.toRat) (operand.withValue (left.add right)) := by
  obtain ⟨inRange, narrow⟩ := add_inRange leftSummand.normal rightSummand.normal
    leftSummand.moderate rightSummand.moderate
  apply roundsTo_withValue valid bounded (leftSummand.normal.add rightSummand.normal)
  rw [toRat_roundFor _ inRange narrow, rounded_add leftSummand rightSummand]

/-- A whole number of drops is not rounded. -/
theorem RoundsTo.isDrops {drops : ℤ} {number : ℚ} {outcome : Except ValueError Amount}
    (rounds : operand.RoundsTo number outcome) (isNative : operand.isNative = true)
    (whole : number * 10 ^ 6 = drops) : IsDrops drops outcome := by
  have unrounded : operand.rounded number = number := by
    rw [rounded, if_pos isNative, nearestPlaces, eq_of_drops whole,
      nearest_multiple (ten_zpow_pos _)]
  have admits : operand.Admits (operand.rounded number) ↔ |drops| ≤ 10 ^ 17 ∨ drops = 10 ^ 18 := by
    rw [unrounded, Admits, if_pos isNative]
    constructor
    · rintro ⟨found, same, bound⟩
      rw [whole] at same
      rwa [Int.cast_injective same]
    · intro bound
      exact ⟨drops, whole, bound⟩
  constructor
  · intro bound
    obtain ⟨amount, answered, valid, value, currency, _⟩ := rounds.answered (admits.mpr bound)
    obtain ⟨_, _, found, counted, cast⟩ := valid.sound.native
      ((congrArg Currency.isNative currency).trans isNative)
    rw [value, unrounded, whole] at cast
    exact ⟨amount, answered, Int.cast_injective cast ▸ counted⟩
  · intro outside
    exact rounds.refused (mt admits.mp outside)

end Sums

/-- Every operation but division answers the exact result rounded once, or refuses it for its
precision. Only sums and differences of two denominations are refused for these. -/
theorem arithmetic_rounds_once {left right : Amount} (leftValid : left.Valid)
    (rightValid : right.Valid) (leftBounded : left.unbounded = false)
    (rightBounded : right.unbounded = false) :
    (left.SharesAsset right →
      left.RoundsTo (left.value.toRat + right.value.toRat) (left.add right) ∧
      left.RoundsTo (left.value.toRat - right.value.toRat) (left.subtract right) ∧
      (left.isNative = true → ∃ leftDrops rightDrops : ℤ,
        left.drops? = some leftDrops ∧ right.drops? = some rightDrops ∧
        IsDrops (leftDrops + rightDrops) (left.add right) ∧
        IsDrops (leftDrops - rightDrops) (left.subtract right))) ∧
    (¬ left.SharesAsset right →
      left.add right = .error (.currencyMismatch left.denomination right.denomination) ∧
      left.subtract right = .error (.currencyMismatch left.denomination right.denomination)) ∧
    left.RoundsTo (left.value.toRat * right.value.toRat) (left.multiply right) ∧
    left.RoundsTo (-left.value.toRat) left.negate ∧
    left.RoundsTo |left.value.toRat| left.abs := by
  refine ⟨fun shares => ?_, fun differs => ?_,
    roundsTo_multiply leftValid leftBounded rightValid rightBounded,
    roundsTo_negate leftValid leftBounded, roundsTo_abs leftValid leftBounded⟩
  · have leftSummand : left.Summand left.value := leftValid.summand leftBounded rfl
    have rightSummand : left.Summand right.value :=
      rightValid.summand rightBounded (congrArg Currency.isNative shares.1)
    have sum : left.RoundsTo (left.value.toRat + right.value.toRat) (left.add right) := by
      rw [add, requireSameDenomination_of_shares shares]
      exact roundsTo_sum leftValid leftBounded leftSummand rightSummand
    have difference : left.RoundsTo (left.value.toRat - right.value.toRat) (left.subtract right) := by
      rw [subtract, requireSameDenomination_of_shares shares, sub_eq_add_neg, ← toRat_negate]
      exact roundsTo_sum leftValid leftBounded leftSummand rightSummand.negate
    refine ⟨sum, difference, fun isNative => ?_⟩
    obtain ⟨_, _, leftDrops, leftFound, leftWhole⟩ := leftValid.sound.native isNative
    obtain ⟨_, _, rightDrops, rightFound, rightWhole⟩ := rightValid.sound.native
      ((congrArg Currency.isNative shares.1).symm.trans isNative)
    refine ⟨leftDrops, rightDrops, leftFound, rightFound, sum.isDrops isNative ?_,
      difference.isDrops isNative ?_⟩
    · rw [add_mul, ← leftWhole, ← rightWhole, Int.cast_add]
    · rw [sub_mul, ← leftWhole, ← rightWhole, Int.cast_sub]
  · rw [add, subtract, requireSameDenomination_of_not_shares differs]
    exact ⟨rfl, rfl⟩

/-- Nines to the last of sixteen digits, and half a unit of that digit. -/
def oddDollars : Amount := dollars ⟨false, 9999999999999995, 0⟩

def halfDollar : Amount := dollars ⟨false, 5, -1⟩

/-- The sum is halfway between two numbers of sixteen digits, and the upper one is answered. -/
theorem arithmetic_rounds_once_halfway :
    oddDollars.RoundsTo (9999999999999995 + 1 / 2) (oddDollars.add halfDollar) ∧
      oddDollars.add halfDollar = .ok (dollars ⟨false, 9999999999999996, 0⟩) := by
  have oddValid : oddDollars.Valid := valid_dollars (by decide) (by decide +kernel)
  have halfValid : halfDollar.Valid := valid_dollars (by decide) (by decide +kernel)
  have sum := ((arithmetic_rounds_once oddValid halfValid rfl rfl).1 ⟨rfl, Or.inr rfl⟩).1
  have odd : oddDollars.value.toRat = 9999999999999995 := by
    simp [toRat, magnitude, oddDollars, dollars]
  have half : halfDollar.value.toRat = 1 / 2 := by
    norm_num [toRat, magnitude, halfDollar, dollars]
  rw [odd, half] at sum
  exact ⟨sum, by decide +kernel⟩

end LedgerWire.Amount
