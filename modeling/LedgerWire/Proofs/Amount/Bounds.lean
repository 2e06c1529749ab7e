import LedgerWire.Proofs.Amount.Validity
import LedgerWire.Proofs.Decimal.Rounding

namespace LedgerWire

open Positional

/-!
The numbers that amounts may have. A native value is a whole number of drops up to a maximum, or
the one value of early ledgers beyond it; an issued value is zero or has few digits and its leading
digit in range, if need be after rounding. Constructors accept exactly these numbers, and no reader
or operation answers any other.
-/

namespace Decimal

/-- A decimal in normal form whose mantissa and exponent fit their words. -/
structure WellFormed (decimal : Decimal) : Prop where
  normal : decimal.IsNormal
  mantissa : decimal.mantissa ≤ maximumMantissa
  lower : minimumExponent ≤ decimal.exponent
  upper : decimal.exponent ≤ maximumExponent

/-- Stripping zeros raises the exponent by at most one for each digit. -/
theorem stripZeros_exponent (mantissa : Nat) {exponent : Int} (lower : minimumExponent ≤ exponent)
    (upper : exponent ≤ maximumExponent) :
    exponent ≤ (stripZeros mantissa exponent).2 ∧
      (stripZeros mantissa exponent).2 ≤ exponent + decimalLength mantissa ∧
      (stripZeros mantissa exponent).2 ≤ maximumExponent := by
  fun_induction stripZeros mantissa exponent with
  | case1 mantissa exponent trailing ih =>
      have next : exponent ≤ clamp (exponent + 1) ∧ clamp (exponent + 1) ≤ exponent + 1 ∧
          clamp (exponent + 1) ≤ maximumExponent := by
        simp only [clamp]
        omega
      obtain ⟨low, high, inside⟩ := ih (by omega) next.2.2
      have length := decimalLength_of_pos trailing.1
      omega
  | case2 mantissa exponent last => omega

theorem wellFormed_normal (negative : Bool) {mantissa : Nat} {exponent : Int}
    (bound : mantissa ≤ maximumMantissa) (lower : minimumExponent ≤ exponent)
    (upper : exponent ≤ maximumExponent) : (normal negative mantissa exponent).WellFormed := by
  have isNormal := isNormal_normal negative mantissa exponent
  by_cases none : mantissa = 0
  · rw [normal, if_pos none]
    exact ⟨isNormal_zero, Nat.zero_le _, by decide, by decide⟩
  · obtain ⟨places, spelled⟩ := stripZeros_places mantissa exponent
    obtain ⟨low, _, high⟩ := stripZeros_exponent mantissa lower upper
    have shorter := Nat.le_mul_of_pos_right (stripZeros mantissa exponent).1
      (weight_pos (by decide : 0 < 10) places)
    rw [← spelled] at shorter
    rw [normal_of_pos (by omega)] at isNormal ⊢
    exact ⟨isNormal, Nat.le_trans shorter bound, Int.le_trans lower low, high⟩

section Digits

variable {decimal : Decimal} {digits : Nat}

/-- The exponent of a rounded decimal is that of the unit, but for the zeros that are stripped. -/
theorem exponent_roundSignificant (bounded : decimal.mantissa ≤ maximumMantissa)
    (some : 0 < digits) (long : digits < decimal.precision) :
    let unit := clamp (decimal.exponent + (decimal.precision - digits : Nat))
    unit ≤ (decimal.roundSignificant digits).exponent ∧
      (decimal.roundSignificant digits).exponent ≤ unit + digits + 1 := by
  intro unit
  have wide := precision_le_of_mantissa_le bounded
  have length := decimalLength_keptDigits_le
    (show decimalLength decimal.mantissa ≤ digits + (decimal.precision - digits) from le_add_tsub)
  have nonzero : (decimal.roundSignificant digits).isZero = false := by
    rw [isZero_roundSignificant bounded some]
    refine beq_eq_false_iff_ne.mpr fun none => ?_
    rw [precision, none, decimalLength_zero] at long
    omega
  rw [roundSignificant, if_neg (by omega), dropDigits_eq _ (by omega) (by omega)] at nonzero ⊢
  have kept : 0 < keptDigits decimal.mantissa (decimal.precision - digits) := by
    refine Nat.pos_of_ne_zero fun none => ?_
    rw [none] at nonzero
    exact Bool.false_ne_true nonzero.symm
  have inside : minimumExponent ≤ unit ∧ unit ≤ maximumExponent := by
    simp only [unit, clamp, minimumExponent, maximumExponent]
    omega
  obtain ⟨low, high, _⟩ := stripZeros_exponent
    (keptDigits decimal.mantissa (decimal.precision - digits)) inside.1 inside.2
  rw [normal_of_pos kept]
  exact ⟨low, high.trans (by omega)⟩

end Digits

end Decimal

namespace Amount

open Decimal

/-- A whole number of drops up to the maximum in magnitude, or the value of early ledgers. -/
def NativeBounds (number : ℚ) : Prop :=
  ∃ drops : ℤ, number * 10 ^ 6 = drops ∧ (|drops| ≤ 10 ^ 17 ∨ drops = 10 ^ 18)

/-- The leading digit is neither too small nor too large. -/
def LeadingBounds (number : ℚ) : Prop :=
  -81 ≤ Int.log 10 |number| ∧ Int.log 10 |number| ≤ 95

/-- Zero, or a number of at most sixteen digits with its leading digit in range. -/
def IssuedBounds (number : ℚ) : Prop :=
  number = 0 ∨ HasDigits 16 number ∧ LeadingBounds number

/-- Zero, or a number with its leading digit in range once rounded to sixteen digits. -/
def UnboundedBounds (number : ℚ) : Prop :=
  number = 0 ∨ LeadingBounds (nearestDigits 16 number)

/-- The numbers that an amount's kind admits. -/
def Admits (amount : Amount) (number : ℚ) : Prop :=
  if amount.isNative then NativeBounds number
  else if amount.unbounded then UnboundedBounds number else IssuedBounds number

section Native

variable {value : Decimal} {drops : Int}

theorem toRat_of_toDrops? (found : toDrops? value = some drops) : value.toRat * 10 ^ 6 = drops := by
  obtain ⟨places, exponent, _, magnitude, sign⟩ := toDrops?_eq_some found
  have unit : (10 : ℚ) ^ value.exponent * 10 ^ 6 = 10 ^ (places : ℤ) := by
    have six : (10 : ℚ) ^ 6 = 10 ^ (6 : ℤ) := by norm_num
    rw [six, ← ten_zpow_add, exponent, Limits.nativeScale, sub_add_cancel]
  have whole : value.magnitude * 10 ^ 6 = ((drops.natAbs : ℤ) : ℚ) := by
    rw [Decimal.magnitude, mul_assoc, unit, magnitude, Int.cast_natCast, Nat.cast_mul, cast_weight]
  rw [toRat]
  cases negative : value.negative <;> rw [negative] at sign
  · rw [signed_false, whole]
    exact congrArg Int.cast sign.symm
  · rw [signed_true, neg_mul, whole, ← Int.cast_neg]
    exact congrArg Int.cast sign.symm

/-- A whole number of drops is found, provided that it is not too large. -/
theorem toDrops?_of_toRat (normal : value.IsNormal) (bound : drops.natAbs < 10000000000000000000)
    (whole : value.toRat * 10 ^ 6 = drops) : toDrops? value = some drops := by
  have found := toDrops?_shift_ofInt bound
  have same : ((Decimal.ofInt drops).shift (-Limits.nativeScale)).toRat = value.toRat :=
    mul_right_cancel₀ (by norm_num) ((toRat_of_toDrops? found).trans whole.symm)
  rwa [((isNormal_ofInt drops).shift _).eq_of_toRat_eq normal same] at found

theorem checkNative_iff_bounds (normal : value.IsNormal) :
    checkNative value = .ok () ↔ NativeBounds value.toRat := by
  rw [checkNative_eq_ok_iff normal]
  constructor
  · rintro ⟨drops, found, bound⟩
    simp only [Limits.maximumDrops, Limits.dropsPerUnit] at bound
    refine ⟨drops, toRat_of_toDrops? found, ?_⟩
    rw [Int.abs_eq_natAbs]
    omega
  · rintro ⟨drops, whole, bound⟩
    rw [Int.abs_eq_natAbs] at bound
    refine ⟨drops, toDrops?_of_toRat normal (by omega) whole, ?_⟩
    simp only [Limits.maximumDrops, Limits.dropsPerUnit]
    omega

end Native

section Issued

variable {value : Decimal}

theorem checkIssued_iff_bounds (normal : value.IsNormal) :
    checkIssued value false = .ok () ↔ IssuedBounds value.toRat := by
  cases isZero : value.isZero with
  | true =>
      have none := toRat_eq_zero_iff.mpr isZero
      exact iff_of_true (by rw [normal.eq_zero isZero]; rfl) (Or.inl none)
  | false =>
      have leading := log_toRat isZero
      constructor
      · intro checked
        obtain ⟨short, normalised, inside⟩ := issued_bounds isZero checked
        rw [inExponentRange_iff, normalised] at inside
        refine Or.inr ⟨hasDigits_of_precision_le short, ?_⟩
        rw [LeadingBounds, leading]
        omega
      · rintro (none | ⟨short, lower, upper⟩)
        · exact absurd none (toRat_ne_zero isZero)
        · have few := normal.precision_le short
          rw [leading] at lower upper
          refine checkIssued_eq_ok few fun _ => inExponentRange_iff.mpr ?_
          rw [normalisedExponent, clamp_of_small] <;> simp only [Limits.issuedPrecision] <;> omega

theorem checkIssued_unbounded_eq_ok_iff (nonzero : value.isZero = false) :
    checkIssued value true = .ok () ↔ inExponentRange
      (normalisedExponent (value.roundSignificant Limits.issuedPrecision)) = true := by
  simp only [checkIssued, nonzero, Bool.not_true, Bool.false_and, Bool.false_eq_true, if_false,
    if_true]
  split
  · rename_i inside
    exact iff_of_true rfl inside
  · rename_i outside
    refine iff_of_false ?_ outside
    intro failed
    contradiction

variable (bounded : value.mantissa ≤ maximumMantissa)

include bounded

/-- What is checked once rounded was not out of range before. -/
theorem exponent_bounds_of_checked (nonzero : value.isZero = false)
    (checked : checkIssued value true = .ok ()) :
    -200 ≤ value.exponent ∧ value.exponent + value.precision ≤ 200 := by
  have some := precision_pos nonzero
  have wide := precision_le_of_mantissa_le bounded
  have few := precision_roundSignificant_le bounded (by decide : 0 < 16)
  have inside := (checkIssued_unbounded_eq_ok_iff nonzero).mp checked
  rw [inExponentRange_iff, normalisedExponent, Limits.issuedPrecision] at inside
  rw [eq_of_clamp (by simp only [minimumExponent]; omega) (by simp only [maximumExponent]; omega)]
    at inside
  by_cases short : value.precision ≤ 16
  · rw [roundSignificant_of_precision_le short] at inside
    omega
  · obtain ⟨low, high⟩ := exponent_roundSignificant bounded (by decide : 0 < 16) (by omega)
    have placed : clamp (value.exponent + (value.precision - 16 : Nat)) =
        value.exponent + (value.precision - 16 : Nat) :=
      eq_of_clamp (by simp only [minimumExponent]; omega) (by simp only [maximumExponent]; omega)
    omega

/-- The check of a rounded value is that of its leading digit. -/
theorem checkIssued_unbounded_iff_bounds (lower : minimumExponent ≤ value.exponent) :
    checkIssued value true = .ok () ↔ UnboundedBounds value.toRat := by
  cases isZero : value.isZero with
  | true =>
      refine iff_of_true ?_ (Or.inl (toRat_eq_zero_iff.mpr isZero))
      rw [checkIssued, if_pos isZero]
  | false =>
      have some := precision_pos isZero
      have wide := precision_le_of_mantissa_le bounded
      have few := precision_roundSignificant_le bounded (by decide : 0 < 16)
      have nonzero := (isZero_roundSignificant bounded (by decide : 0 < 16)).trans isZero
      have least := log_le_log_nearestDigits (by decide : 0 < 16) (toRat_ne_zero isZero)
      rw [log_toRat isZero] at least
      have rounded (upper : value.exponent + value.precision ≤ 200) :
          LeadingBounds (nearestDigits 16 value.toRat) ↔
            inExponentRange (normalisedExponent (value.roundSignificant 16)) = true := by
        have inRange : value.InRange := ⟨lower, by simp only [maximumExponent]; omega⟩
        rw [← toRat_roundSignificant inRange (by decide) (by omega), LeadingBounds, log_toRat nonzero,
          inExponentRange_iff, normalisedExponent, Limits.issuedPrecision, clamp,
          minimumExponent, maximumExponent]
        omega
      constructor
      · intro checked
        have upper := (exponent_bounds_of_checked bounded isZero checked).2
        exact Or.inr ((rounded upper).mpr ((checkIssued_unbounded_eq_ok_iff isZero).mp checked))
      · rintro (none | leading)
        · exact absurd none (toRat_ne_zero isZero)
        · have upper : value.exponent + value.precision ≤ 200 := by
            have highest := leading.2
            omega
          exact (checkIssued_unbounded_eq_ok_iff isZero).mpr ((rounded upper).mp leading)

end Issued

/-- An amount whose value is admitted. A native amount is of one of the two native assets, has no
issuer of its own, and a value that is its drops. -/
structure Sound (amount : Amount) : Prop where
  admitted : amount.Admits amount.value.toRat
  native : amount.isNative = true →
    (amount.currency = NativeAsset.primary.currency ∨
      amount.currency = NativeAsset.secondary.currency) ∧
    amount.issuer = Account.zero ∧
    ∃ drops : ℤ, amount.drops? = some drops ∧ (drops : ℚ) = amount.value.toRat * 10 ^ 6

section Amounts

variable {amount : Amount} {value : Decimal} {currency : Currency} {issuer : Account}

theorem Valid.admits (valid : amount.Valid) : amount.Admits amount.value.toRat := by
  rw [Admits]
  split
  · rename_i isNative
    exact (checkNative_iff_bounds valid.normal).mp
      ((check_of_isNative isNative).symm.trans valid.checked)
  · rename_i notNative
    have checked := (check_of_issued (Bool.eq_false_iff.mpr notNative)).symm.trans valid.checked
    split
    · rename_i isUnbounded
      rw [isUnbounded] at checked
      cases isZero : amount.value.isZero with
      | true => exact Or.inl (toRat_eq_zero_iff.mpr isZero)
      | false =>
          have lower := (exponent_bounds_of_checked valid.bounded isZero checked).1
          refine (checkIssued_unbounded_iff_bounds valid.bounded ?_).mp checked
          simp only [minimumExponent]
          omega
    · rename_i bounded
      rw [Bool.eq_false_iff.mpr bounded] at checked
      exact (checkIssued_iff_bounds valid.normal).mp checked

theorem Valid.sound (valid : amount.Valid) : Sound amount := by
  refine ⟨valid.admits, fun isNative => ?_⟩
  obtain ⟨asset, sameCurrency, sameIssuer, _⟩ := valid.native isNative
  obtain ⟨drops, found, bound⟩ := exists_drops valid.normal
    ((check_of_isNative isNative).symm.trans valid.checked)
  refine ⟨?_, sameIssuer, drops, drops?_eq_some isNative found (by omega),
    (toRat_of_toDrops? found).symm⟩
  rw [sameCurrency]
  cases asset
  · exact Or.inl rfl
  · exact Or.inr rfl

theorem exists_native_iff {asset : NativeAsset} :
    (∃ amount, Amount.native asset value = .ok amount) ↔ checkNative value = .ok () := by
  simp only [Amount.native]
  cases checkNative value with
  | error cause =>
      constructor
      · rintro ⟨amount, made⟩
        contradiction
      · intro checked
        contradiction
  | ok => exact iff_of_true ⟨_, rfl⟩ rfl

theorem exists_issuedWith_iff {unbounded : Bool} :
    (∃ amount, issuedWith unbounded value currency issuer = .ok amount) ↔
      currency.isNative = false ∧ checkIssued value unbounded = .ok () := by
  constructor
  · rintro ⟨amount, built⟩
    obtain ⟨isIssued, checked, _⟩ := issuedWith_eq_ok built
    exact ⟨isIssued, checked⟩
  · rintro ⟨isIssued, checked⟩
    refine ⟨⟨value, currency, issuer, unbounded⟩, ?_⟩
    rw [issuedWith, isIssued, checked]
    rfl

/-- Constructors accept exactly the numbers of their kind, and every amount that is built has such a
number. -/
theorem bounds_characterised :
    (∀ value : Decimal, value.WellFormed →
      (∀ asset, (∃ amount, Amount.native asset value = .ok amount) ↔ NativeBounds value.toRat) ∧
      (∀ currency issuer, (∃ amount, Amount.issued value currency issuer = .ok amount) ↔
        currency.isNative = false ∧ IssuedBounds value.toRat) ∧
      ∀ currency issuer, (∃ amount, issuedWith true value currency issuer = .ok amount) ↔
        currency.isNative = false ∧ UnboundedBounds value.toRat) ∧
      ∀ amount, Built amount → Sound amount := by
  refine ⟨fun value formed => ⟨fun asset => ?_, fun currency issuer => ?_, fun currency issuer => ?_⟩,
    fun amount built => built.valid.sound⟩
  · rw [exists_native_iff, checkNative_iff_bounds formed.normal]
  · rw [Amount.issued, exists_issuedWith_iff, checkIssued_iff_bounds formed.normal]
  · rw [exists_issuedWith_iff, checkIssued_unbounded_iff_bounds formed.mantissa formed.lower]

/-- The value of early ledgers is admitted, its opposite is not. -/
theorem bounds_characterised_earlyLedger :
    (∃ amount, Amount.native .primary ⟨false, 1, 12⟩ = .ok amount) ∧
      (¬ ∃ amount, Amount.native .primary ⟨true, 1, 12⟩ = .ok amount) ∧
      Sound ⟨⟨false, 1, 12⟩, NativeAsset.primary.currency, Account.zero, false⟩ := by
  have formed (negative : Bool) : (⟨negative, 1, 12⟩ : Decimal).WellFormed := by
    cases negative <;> exact ⟨Or.inr (by decide), by decide, by decide, by decide⟩
  have early : NativeBounds (⟨false, 1, 12⟩ : Decimal).toRat := by
    refine ⟨10 ^ 18, ?_, Or.inr rfl⟩
    rw [toRat, magnitude]
    norm_num
  have opposite : ¬ NativeBounds (⟨true, 1, 12⟩ : Decimal).toRat := by
    rintro ⟨drops, whole, bound⟩
    have same : drops = -10 ^ 18 := by
      rw [toRat, magnitude] at whole
      norm_num at whole
      exact_mod_cast whole.symm
    rw [same] at bound
    norm_num at bound
  have made : Amount.native .primary ⟨false, 1, 12⟩ =
      .ok ⟨⟨false, 1, 12⟩, NativeAsset.primary.currency, Account.zero, false⟩ := by
    decide +kernel
  exact ⟨((bounds_characterised.1 _ (formed false)).1 _).mpr early,
    fun made => opposite (((bounds_characterised.1 _ (formed true)).1 _).mp made),
    bounds_characterised.2 _ (.native (formed false).normal made)⟩

end Amounts

end Amount

end LedgerWire
