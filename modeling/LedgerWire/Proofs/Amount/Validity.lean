import LedgerWire.Amount.Arithmetic
import LedgerWire.Amount.Json
import LedgerWire.Amount.Wire
import LedgerWire.Proofs.Decimal.NormalForm
import LedgerWire.Proofs.Success
import LedgerWire.Proofs.Wire.Reading

namespace LedgerWire.Amount

open Decimal Positional

/-!
Valid amounts. What passes the check of a native value is a number of drops within bounds, and what
passes the check of an issued value has, once rounded, at most sixteen digits and a leading digit
in range. Every constructor, reader and operation answers a valid amount.
-/

section Drops

/-- The mantissa and the power of ten that make up a number of drops. -/
theorem toDrops?_eq_some {value : Decimal} {drops : Int} (found : toDrops? value = some drops) :
    ∃ places : Nat, value.exponent = (places : Int) - Limits.nativeScale ∧ places ≤ 38 ∧
      drops.natAbs = value.mantissa * weight 10 places ∧
      drops = if value.negative then -(drops.natAbs : Int) else (drops.natAbs : Int) := by
  unfold toDrops? toScaledInt? at found
  simp only at found
  split at found
  · contradiction
  · split at found
    · rename_i inside _
      refine ⟨(value.exponent + Limits.nativeScale).toNat, by omega, by omega, ?_⟩
      generalize value.mantissa * weight 10 (value.exponent + Limits.nativeScale).toNat =
        magnitude at found ⊢
      cases found
      cases value.negative <;> simp
    · contradiction

/-- The magnitude of a value has the magnitude of its drops. -/
theorem toDrops?_abs (value : Decimal) :
    toDrops? value.abs = (toDrops? value).map fun drops => (drops.natAbs : Int) := by
  unfold toDrops? toScaledInt? Decimal.abs
  simp only
  split
  · rfl
  · split
    · generalize value.mantissa * weight 10 (value.exponent + Limits.nativeScale).toNat = magnitude
      cases value.negative <;> simp
    · rfl

/-- A checked native value is a whole number of drops up to the maximum, or the one beyond it. -/
theorem checkNative_eq_ok_iff {value : Decimal} (normal : value.IsNormal) :
    checkNative value = .ok () ↔ ∃ drops, toDrops? value = some drops ∧
      (drops.natAbs ≤ Limits.maximumDrops ∨ drops = 1000000000000000000) := by
  constructor
  · intro checked
    simp only [checkNative] at checked
    split at checked
    · rename_i exempt
      rcases Bool.or_eq_true_iff.mp exempt with isZero | historical
      · rw [normal.eq_zero isZero]
        exact ⟨0, rfl, Or.inl (Nat.zero_le _)⟩
      · simp only [isHistorical] at historical
        split at historical
        · rename_i drops found
          simp only [Limits.historicalDrops, List.any_cons, List.any_nil, Bool.or_false,
            beq_iff_eq] at historical
          exact ⟨drops, found, Or.inr historical.symm⟩
        · contradiction
    · split at checked
      · contradiction
      · split at checked
        · rename_i drops found
          split at checked
          · rename_i bound
            rw [toDrops?_abs] at found
            obtain ⟨signed, same, rfl⟩ := Option.map_eq_some_iff.mp found
            exact ⟨signed, same, Or.inl (Int.ofNat_le.mp bound)⟩
          · contradiction
        · contradiction
  · rintro ⟨drops, found, bound⟩
    simp only [checkNative]
    split
    · rfl
    · rename_i notExempt
      have whole : ¬ Limits.nativeScale < value.scale := by
        obtain ⟨places, exponent, _⟩ := toDrops?_eq_some found
        simp only [scale, clamp, Limits.nativeScale, Decimal.minimumExponent,
          Decimal.maximumExponent] at exponent ⊢
        omega
      rw [if_neg whole, toDrops?_abs, found]
      rcases bound with inside | historical
      · exact if_pos (Int.ofNat_le.mpr inside)
      · have exempt : isHistorical value = true := by
          rw [isHistorical, found, historical]
          rfl
        rw [exempt, Bool.or_true] at notExempt
        exact absurd rfl notExempt

/-- A checked native value is a number of drops within the bounds of the word that holds it. -/
theorem exists_drops {value : Decimal} (normal : value.IsNormal)
    (checked : checkNative value = .ok ()) :
    ∃ drops, toDrops? value = some drops ∧ drops.natAbs ≤ 1000000000000000000 := by
  obtain ⟨drops, found, bound⟩ := (checkNative_eq_ok_iff normal).mp checked
  refine ⟨drops, found, ?_⟩
  simp only [Limits.maximumDrops, Limits.dropsPerUnit] at bound
  omega

/-- A value in display units is the one that its drops make. -/
theorem shift_ofInt_drops {value : Decimal} {drops : Int} (normal : value.IsNormal)
    (found : toDrops? value = some drops) :
    (Decimal.ofInt drops).shift (-Limits.nativeScale) = value := by
  obtain ⟨places, exponent, narrow, magnitude, sign⟩ := toDrops?_eq_some found
  simp only [Limits.nativeScale] at exponent ⊢
  cases isZero : value.isZero with
  | true =>
      rw [normal.eq_zero isZero] at magnitude ⊢
      have none : drops = 0 := by
        have empty : drops.natAbs = 0 := magnitude.trans (Nat.zero_mul _)
        omega
      rw [none]
      rfl
  | false =>
      have last := normal.last isZero
      have some : 0 < value.mantissa * weight 10 places :=
        Nat.mul_pos (mantissa_pos isZero) (weight_pos (by decide) places)
      have signed : decide (drops < 0) = value.negative := by
        cases negative : value.negative <;> simp only [negative, if_true, if_false,
          Bool.false_eq_true] at sign <;> simp only [decide_eq_true_eq, decide_eq_false_iff_not] <;>
          omega
      have spelled : Decimal.ofInt drops = ⟨value.negative, value.mantissa, 0 + places⟩ := by
        simp only [Decimal.ofInt]
        rw [signed, magnitude]
        exact normal_scaled last (by omega)
      have shifted : clamp (0 + (places : Int) + -6) = value.exponent := by
        rw [clamp_of_small (by omega)]
        omega
      rw [spelled]
      simp only [Decimal.shift]
      have nonzero : (⟨value.negative, value.mantissa, 0 + places⟩ : Decimal).isZero = false :=
        isZero
      rw [nonzero]
      simp only [Bool.false_eq_true, if_false, shifted]

theorem toDrops?_shift_ofInt {drops : Int} (bound : drops.natAbs < 10000000000000000000) :
    toDrops? ((Decimal.ofInt drops).shift (-Limits.nativeScale)) = some drops := by
  by_cases none : drops = 0
  · rw [none]
    rfl
  · obtain ⟨stripped, places, last, spelled⟩ := exists_stripped (by omega : 0 < drops.natAbs)
    -- Twenty zeros at the end would exceed the bound.
    have narrow : places < 20 := by
      have few : weight 10 places ≤ drops.natAbs := by
        rw [spelled]
        exact Nat.le_mul_of_pos_left _ (by omega)
      have twenty : weight 10 20 = 100000000000000000000 := rfl
      refine Nat.lt_of_not_le fun wide => ?_
      have many := weight_mono (by decide : 0 < 10) wide
      omega
    have normal : Decimal.ofInt drops = ⟨decide (drops < 0), stripped, 0 + places⟩ := by
      simp only [Decimal.ofInt]
      rw [spelled]
      exact normal_scaled last (by omega)
    have nonzero : (⟨decide (drops < 0), stripped, 0 + places⟩ : Decimal).isZero = false := by
      simp only [Decimal.isZero]
      rw [beq_eq_false_iff_ne]
      intro (zero : stripped = 0)
      omega
    have shifted : clamp (0 + (places : Int) + -6) = places - 6 := by
      rw [clamp_of_small (by omega)]
      omega
    have large : weight 2 127 = 170141183460469231731687303715884105728 := rfl
    rw [normal]
    simp only [toDrops?, toScaledInt?, Decimal.shift]
    rw [nonzero]
    simp only [Limits.nativeScale, Bool.false_eq_true, if_false, shifted]
    rw [if_neg (by omega)]
    have exponent : ((places : Int) - 6 + 6).toNat = places := by omega
    rw [exponent, ← spelled, if_pos (by omega)]
    simp only [decide_eq_true_eq, Option.some.injEq]
    omega

theorem mantissa_le_of_checkNative {value : Decimal} (normal : value.IsNormal)
    (checked : checkNative value = .ok ()) : value.mantissa ≤ maximumMantissa := by
  obtain ⟨drops, found, bound⟩ := exists_drops normal checked
  obtain ⟨places, _, _, magnitude, _⟩ := toDrops?_eq_some found
  have widest : 1000000000000000000 ≤ maximumMantissa := by decide
  have shorter : value.mantissa ≤ value.mantissa * weight 10 places :=
    Nat.le_mul_of_pos_right _ (weight_pos (by decide) places)
  omega

end Drops

section Issued

variable {value : Decimal} {unbounded : Bool}

theorem inExponentRange_iff {exponent : Int} :
    inExponentRange exponent = true ↔ -96 ≤ exponent ∧ exponent ≤ 80 := by
  simp only [inExponentRange, Bool.and_eq_true, decide_eq_true_eq]
  exact Iff.rfl

/-- A checked value of a bounded issued amount: its digits and the exponent it has once its mantissa
is brought to sixteen digits. -/
theorem issued_bounds (nonzero : value.isZero = false)
    (checked : checkIssued value false = .ok ()) :
    value.precision ≤ 16 ∧ normalisedExponent value = value.exponent + value.precision - 16 ∧
      inExponentRange (normalisedExponent value) = true := by
  simp only [checkIssued] at checked
  simp only [nonzero, Bool.false_eq_true, if_false, Bool.not_false, Bool.true_and] at checked
  split at checked
  · contradiction
  · rename_i short
    split at checked
    · rename_i inside
      refine ⟨Nat.le_of_not_lt fun long => short (decide_eq_true long), ?_, inside⟩
      obtain ⟨lower, upper⟩ := inExponentRange_iff.mp inside
      simp only [normalisedExponent] at *
      rw [eq_of_clamp]
      · simp only [Limits.issuedPrecision]
        omega
      · simp only [Decimal.minimumExponent]; omega
      · simp only [Decimal.maximumExponent]; omega
    · contradiction

theorem mantissa_le_of_checkIssued (checked : checkIssued value false = .ok ()) :
    value.mantissa ≤ maximumMantissa := by
  cases isZero : value.isZero with
  | true =>
      have zero : value.mantissa = 0 := eq_of_beq isZero
      rw [zero]
      exact Nat.zero_le _
  | false =>
      have short := decimalLength_le_iff.mp (issued_bounds isZero checked).1
      have wide : weight 10 16 ≤ maximumMantissa := by decide
      omega

theorem checkIssued_eq_ok (short : value.precision ≤ Limits.issuedPrecision)
    (inside : value.isZero = false → inExponentRange (normalisedExponent value) = true) :
    checkIssued value false = .ok () := by
  simp only [checkIssued]
  cases isZero : value.isZero with
  | true => rfl
  | false =>
      have notLong : ¬ Limits.issuedPrecision < value.precision := by omega
      simp only [Bool.false_eq_true, if_false, Bool.not_false, Bool.true_and, decide_eq_true_eq,
        notLong, inside isZero, if_true]

/-- Rounding a checked value to the digits of the wire leaves a checked value. -/
theorem checkIssued_rounded (bounded : value.mantissa ≤ maximumMantissa)
    (checked : checkIssued value unbounded = .ok ()) :
    checkIssued (value.roundSignificant Limits.issuedPrecision) false = .ok () := by
  have some : 0 < Limits.issuedPrecision := by decide
  apply checkIssued_eq_ok (precision_roundSignificant_le bounded some)
  intro nonzero
  rw [isZero_roundSignificant bounded some] at nonzero
  simp only [checkIssued] at checked
  simp only [nonzero, Bool.false_eq_true, if_false] at checked
  cases unbounded with
  | true =>
      simp only [Bool.not_true, Bool.false_and, Bool.false_eq_true, if_false, if_true] at checked
      split at checked
      · assumption
      · contradiction
  | false =>
      simp only [Bool.not_false, Bool.true_and, decide_eq_true_eq, Bool.false_eq_true,
        if_false] at checked
      split at checked
      · contradiction
      · rename_i short
        rw [roundSignificant_of_precision_le (by omega)]
        split at checked
        · assumption
        · contradiction

end Issued

theorem nativeAsset?_currency (asset : NativeAsset) :
    asset.currency.nativeAsset? = some asset := by
  cases asset <;> decide

theorem isNative_currency (asset : NativeAsset) : asset.currency.isNative = true := by
  rw [Currency.isNative, nativeAsset?_currency]
  rfl

theorem check_of_isNative {amount : Amount} (isNative : amount.isNative = true) :
    amount.check = checkNative amount.value :=
  if_pos isNative

theorem check_of_issued {amount : Amount} (isIssued : amount.isNative = false) :
    amount.check = checkIssued amount.value amount.unbounded :=
  if_neg (Bool.eq_false_iff.mp isIssued)

/-- The drops of a native amount, where they fit the word that answers them. -/
theorem drops?_eq_some {amount : Amount} {drops : Int} (isNative : amount.isNative = true)
    (found : toDrops? amount.value = some drops) (bound : drops.natAbs < 9223372036854775808) :
    amount.drops? = some drops := by
  have fits : Text.fitsSigned 64 drops = true := by
    have half : weight 2 (64 - 1) = 9223372036854775808 := rfl
    rw [Text.fitsSigned, half, Bool.and_eq_true, decide_eq_true_iff, decide_eq_true_iff]
    omega
  rw [drops?, if_pos isNative, found, Option.filter_some, if_pos fits]

/-- An amount that its kind's check accepts. A native amount has no issuer of its own. -/
structure Valid (amount : Amount) : Prop where
  normal : amount.value.IsNormal
  bounded : amount.value.mantissa ≤ maximumMantissa
  checked : amount.check = .ok ()
  native : amount.isNative = true → ∃ asset : NativeAsset,
    amount.currency = asset.currency ∧ amount.issuer = Account.zero ∧ amount.unbounded = false

/-- The amounts that constructors, readers and operations answer. -/
inductive Built : Amount → Prop where
  | native {asset : NativeAsset} {value : Decimal} {amount : Amount} (normal : value.IsNormal)
      (built : Amount.native asset value = .ok amount) : Built amount
  | drops {asset : NativeAsset} {drops : Int} {amount : Amount}
      (built : ofDrops asset drops = .ok amount) : Built amount
  | dropsText {text : String} {amount : Amount} (built : parseDrops text = .ok amount) :
      Built amount
  | issued {value : Decimal} {currency : Currency} {issuer : Account} {amount : Amount}
      (normal : value.IsNormal) (built : Amount.issued value currency issuer = .ok amount) :
      Built amount
  | unbounded {value : Decimal} {currency : Currency} {issuer : Account} {amount : Amount}
      (normal : value.IsNormal) (bounded : value.mantissa ≤ maximumMantissa)
      (built : issuedWith true value currency issuer = .ok amount) : Built amount
  | text {text : String} {amount : Amount} (built : parse text = .ok amount) : Built amount
  | json {json : Json} {amount : Amount} (built : ofJson json = .ok amount) : Built amount
  | wire {input rest : Bytes} {amount : Amount} (built : read.run input = .done amount rest) :
      Built amount
  | sum {left right amount : Amount} (leftBuilt : Built left) (rightBuilt : Built right)
      (built : left.add right = .ok amount) : Built amount
  | difference {left right amount : Amount} (leftBuilt : Built left) (rightBuilt : Built right)
      (built : left.subtract right = .ok amount) : Built amount
  | product {left right amount : Amount} (leftBuilt : Built left) (rightBuilt : Built right)
      (built : left.multiply right = .ok amount) : Built amount
  | ratio {left right amount : Amount} (leftBuilt : Built left) (rightBuilt : Built right)
      (built : left.divide right = .ok amount) : Built amount
  | opposite {operand amount : Amount} (operandBuilt : Built operand)
      (built : operand.negate = .ok amount) : Built amount
  | magnitude {operand amount : Amount} (operandBuilt : Built operand)
      (built : operand.abs = .ok amount) : Built amount

section Constructors

variable {asset : NativeAsset} {value : Decimal} {currency : Currency} {issuer : Account}
  {amount : Amount} {unbounded : Bool}

theorem valid_native (normal : value.IsNormal)
    (built : Amount.native asset value = .ok amount) : amount.Valid := by
  simp only [Amount.native] at built
  cases checked : checkNative value with
  | error cause => rw [checked] at built; cases built
  | ok =>
      rw [checked] at built
      cases built
      have isNative : isNative ⟨value, asset.currency, Account.zero, false⟩ = true :=
        isNative_currency asset
      exact ⟨normal, mantissa_le_of_checkNative normal checked,
        (check_of_isNative isNative).trans checked, fun _ => ⟨asset, rfl, rfl, rfl⟩⟩

theorem issuedWith_eq_ok (built : issuedWith unbounded value currency issuer = .ok amount) :
    currency.isNative = false ∧ checkIssued value unbounded = .ok () ∧
      amount = ⟨value, currency, issuer, unbounded⟩ := by
  simp only [issuedWith] at built
  cases isNative : currency.isNative with
  | true => rw [isNative] at built; cases built
  | false =>
      cases checked : checkIssued value unbounded with
      | error cause => rw [isNative, checked] at built; cases built
      | ok =>
          rw [isNative, checked] at built
          cases built
          exact ⟨rfl, rfl, rfl⟩

theorem valid_issuedWith (normal : value.IsNormal) (bounded : value.mantissa ≤ maximumMantissa)
    (built : issuedWith unbounded value currency issuer = .ok amount) : amount.Valid := by
  obtain ⟨isIssued, checked, rfl⟩ := issuedWith_eq_ok built
  have notNative : isNative ⟨value, currency, issuer, unbounded⟩ = false := isIssued
  exact ⟨normal, bounded, (check_of_issued notNative).trans checked,
    fun isNative => absurd isNative (Bool.eq_false_iff.mp notNative)⟩

theorem valid_issued (normal : value.IsNormal)
    (built : Amount.issued value currency issuer = .ok amount) : amount.Valid :=
  valid_issuedWith normal (mantissa_le_of_checkIssued (issuedWith_eq_ok built).2.1) built

theorem valid_ofDrops {drops : Int} (built : ofDrops asset drops = .ok amount) : amount.Valid :=
  valid_native ((isNormal_ofInt drops).shift _) built

theorem valid_parseDrops {text : String} (built : parseDrops text = .ok amount) :
    amount.Valid := by
  simp only [parseDrops] at built
  split at built
  · exact valid_ofDrops built
  · contradiction

theorem isNormal_roundFor (operand : Amount) (normal : value.IsNormal) :
    (operand.roundFor value).IsNormal := by
  rw [roundFor]
  split
  · exact normal.roundScale _
  · exact normal.roundSignificant _

theorem valid_withValue {operand : Amount} (operandValid : operand.Valid) (normal : value.IsNormal)
    (built : operand.withValue value = .ok amount) : amount.Valid := by
  have rounded := isNormal_roundFor operand normal
  unfold withValue at built
  simp only at built
  cases checked : check { operand with value := operand.roundFor value, unbounded := false } with
  | error cause => rw [checked] at built; cases built
  | ok =>
      rw [checked] at built
      cases built
      refine ⟨rounded, ?_, checked, fun isNative => ?_⟩
      · simp only [check] at checked
        split at checked
        · exact mantissa_le_of_checkNative rounded checked
        · exact mantissa_le_of_checkIssued checked
      · obtain ⟨asset, sameCurrency, sameIssuer, _⟩ := operandValid.native isNative
        exact ⟨asset, sameCurrency, sameIssuer, rfl⟩

theorem valid_parse {text : String} (built : parse text = .ok amount) : amount.Valid := by
  simp only [parse] at built
  split at built
  · exact valid_parseDrops built
  · obtain ⟨currency, _, built⟩ := bind_eq_ok.mp built
    split at built
    · obtain ⟨value, parsed, built⟩ := bind_eq_ok.mp built
      exact valid_native (isNormal_parse parsed) built
    · contradiction
  · obtain ⟨value, parsed, built⟩ := bind_eq_ok.mp built
    obtain ⟨currency, _, built⟩ := bind_eq_ok.mp built
    obtain ⟨issuer, _, built⟩ := bind_eq_ok.mp built
    exact valid_issued (isNormal_parse parsed) built
  · contradiction

theorem valid_ofJson {json : Json} (built : ofJson json = .ok amount) : amount.Valid := by
  simp only [ofJson] at built
  split at built
  · exact valid_parseDrops built
  · split at built
    · exact valid_ofDrops built
    · contradiction
  · obtain ⟨valueText, _, built⟩ := bind_eq_ok.mp built
    obtain ⟨value, parsed, built⟩ := bind_eq_ok.mp built
    obtain ⟨currencyText, _, built⟩ := bind_eq_ok.mp built
    obtain ⟨currency, _, built⟩ := bind_eq_ok.mp built
    split at built
    · exact valid_native (isNormal_parse parsed) built
    · obtain ⟨issuerText, _, built⟩ := bind_eq_ok.mp built
      obtain ⟨issuer, _, built⟩ := bind_eq_ok.mp built
      exact valid_issued (isNormal_parse parsed) built
  · contradiction

theorem valid_ofNativeWord {word : Nat} (built : ofNativeWord word = .ok amount) :
    amount.Valid := by
  unfold ofNativeWord at built
  simp only at built
  split at built
  · contradiction
  · exact valid_ofDrops (mapError_eq_ok.mp built)

theorem valid_ofIssuedWord {word : Nat} (built : ofIssuedWord word currency issuer = .ok amount) :
    amount.Valid := by
  unfold ofIssuedWord at built
  simp only at built
  split at built
  · split at built
    · exact valid_issued isNormal_zero (mapError_eq_ok.mp built)
    · contradiction
  · split at built
    · contradiction
    · split at built
      · contradiction
      · exact valid_issued (isNormal_normal _ _ _) (mapError_eq_ok.mp built)

end Constructors

/-- The bytes that an amount was read from, and the word in them. -/
theorem read_eq_done {input rest : Bytes} {amount : Amount}
    (taken : read.run input = .done amount rest) :
    ∃ word : Octets 8,
      (hasBit (Bytes.toNat word.toList) Limits.issuedBit = false ∧ input = word.toList ++ rest ∧
        ofNativeWord (Bytes.toNat word.toList) = .ok amount) ∨
      (hasBit (Bytes.toNat word.toList) Limits.issuedBit = true ∧
        ∃ currency issuer : Octets 20,
          input = word.toList ++ (currency.toList ++ (issuer.toList ++ rest)) ∧
          ofIssuedWord (Bytes.toNat word.toList) ⟨currency⟩ ⟨issuer⟩ = .ok amount) := by
  simp only [read] at taken
  obtain ⟨_, middle, wordTaken, taken⟩ := Reader.run_bind_eq_done taken
  obtain ⟨word, rfl, wordBytes⟩ :=
    Reader.run_natural_eq_done (Reader.run_mapCause_eq_done wordTaken)
  refine ⟨word, ?_⟩
  cases isIssued : hasBit (Bytes.toNat word.toList) Limits.issuedBit with
  | false =>
      simp only [isIssued, Bool.false_eq_true, if_false] at taken
      obtain ⟨built, rfl⟩ := Reader.run_ofExcept_eq_done taken
      exact Or.inl ⟨rfl, wordBytes, built⟩
  | true =>
      simp only [isIssued, if_true] at taken
      obtain ⟨currency, _, currencyTaken, taken⟩ := Reader.run_bind_eq_done taken
      obtain ⟨issuer, _, issuerTaken, taken⟩ := Reader.run_bind_eq_done taken
      obtain ⟨built, rfl⟩ := Reader.run_ofExcept_eq_done taken
      refine Or.inr ⟨rfl, currency, issuer, ?_, built⟩
      rw [wordBytes, Reader.run_octets_eq_done (Reader.run_mapCause_eq_done currencyTaken),
        Reader.run_octets_eq_done (Reader.run_mapCause_eq_done issuerTaken)]

theorem valid_read {input rest : Bytes} {amount : Amount}
    (taken : read.run input = .done amount rest) : amount.Valid := by
  obtain ⟨word, ⟨_, _, built⟩ | ⟨_, currency, issuer, _, built⟩⟩ := read_eq_done taken
  · exact valid_ofNativeWord built
  · exact valid_ofIssuedWord built

theorem Built.valid {amount : Amount} (built : Built amount) : amount.Valid := by
  induction built with
  | native normal built => exact valid_native normal built
  | drops built => exact valid_ofDrops built
  | dropsText built => exact valid_parseDrops built
  | issued normal built => exact valid_issued normal built
  | unbounded normal bounded built => exact valid_issuedWith normal bounded built
  | text built => exact valid_parse built
  | json built => exact valid_ofJson built
  | wire built => exact valid_read built
  | sum _ _ built leftValid rightValid =>
      obtain ⟨_, _, built⟩ := bind_eq_ok.mp built
      exact valid_withValue leftValid (leftValid.normal.add rightValid.normal) built
  | difference _ _ built leftValid rightValid =>
      obtain ⟨_, _, built⟩ := bind_eq_ok.mp built
      exact valid_withValue leftValid (leftValid.normal.add rightValid.normal.negate) built
  | product _ _ built leftValid _ =>
      exact valid_withValue leftValid (isNormal_mul _ _) built
  | ratio _ _ built leftValid _ =>
      obtain ⟨_, divided, built⟩ := bind_eq_ok.mp built
      exact valid_withValue leftValid (isNormal_div divided) built
  | opposite _ built operandValid =>
      exact valid_withValue operandValid operandValid.normal.negate built
  | magnitude _ built operandValid =>
      exact valid_withValue operandValid operandValid.normal.abs built

end LedgerWire.Amount
