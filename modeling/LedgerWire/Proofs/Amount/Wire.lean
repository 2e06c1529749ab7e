import LedgerWire.Proofs.Amount.Validity

namespace LedgerWire.Amount

open Decimal Positional Reader

/-!
The wire form of amounts is a bijection. Every valid amount is written, and read back with its value
at the precision of the wire; and an amount that was read is written as the bytes it was read from,
so that no amount has two wire forms.
-/

section Words

/-- The word of a native amount. -/
def packNative (positive secondary : Bool) (drops : Nat) : Nat :=
  bitIf positive Limits.positiveBit + bitIf secondary Limits.secondaryBit + drops

/-- The word of an issued amount. -/
def packIssued (positive : Bool) (biased mantissa : Nat) : Nat :=
  Limits.issuedBit + bitIf positive Limits.positiveBit + biased * Limits.exponentUnit + mantissa

theorem hasBit_eq {word weight : Nat} {set : Bool} (bit : word / weight % 2 = bitIf set 1) :
    hasBit word weight = set := by
  simp only [hasBit]
  rw [bit]
  cases set <;> rfl

variable {positive secondary : Bool} {drops biased mantissa word : Nat}

theorem packNative_fields (bound : drops < Limits.secondaryBit) :
    packNative positive secondary drops < weight 256 8 ∧
      hasBit (packNative positive secondary drops) Limits.issuedBit = false ∧
      hasBit (packNative positive secondary drops) Limits.positiveBit = positive ∧
      hasBit (packNative positive secondary drops) Limits.secondaryBit = secondary ∧
      packNative positive secondary drops % Limits.secondaryBit = drops := by
  have whole : weight 256 8 = 18446744073709551616 := rfl
  rw [whole]
  simp only [packNative] at *
  refine ⟨?_, hasBit_eq ?_, hasBit_eq ?_, hasBit_eq ?_, ?_⟩ <;>
    cases positive <;> cases secondary <;>
    simp only [bitIf, Limits.issuedBit, Limits.positiveBit, Limits.secondaryBit, if_true, if_false,
      Bool.false_eq_true] at bound ⊢ <;>
    omega

theorem packIssued_fields (narrow : biased < 256) (bound : mantissa < Limits.exponentUnit) :
    packIssued positive biased mantissa < weight 256 8 ∧
      hasBit (packIssued positive biased mantissa) Limits.issuedBit = true ∧
      hasBit (packIssued positive biased mantissa) Limits.positiveBit = positive ∧
      packIssued positive biased mantissa / Limits.exponentUnit % 256 = biased ∧
      packIssued positive biased mantissa % Limits.exponentUnit = mantissa := by
  have whole : weight 256 8 = 18446744073709551616 := rfl
  rw [whole]
  simp only [packIssued] at *
  refine ⟨?_, hasBit_eq ?_, hasBit_eq ?_, ?_, ?_⟩ <;> cases positive <;>
    simp only [bitIf, Limits.issuedBit, Limits.positiveBit, Limits.exponentUnit, if_true, if_false,
      Bool.false_eq_true] at bound ⊢ <;>
    omega

theorem packNative_of_word (bound : word < weight 256 8)
    (native : hasBit word Limits.issuedBit = false) :
    packNative (hasBit word Limits.positiveBit) (hasBit word Limits.secondaryBit)
      (word % Limits.secondaryBit) = word := by
  have whole : weight 256 8 = 18446744073709551616 := rfl
  rw [whole] at bound
  simp only [packNative]
  cases positive : hasBit word Limits.positiveBit <;>
    cases secondary : hasBit word Limits.secondaryBit <;>
    simp only [hasBit, bitIf, Limits.issuedBit, Limits.positiveBit, Limits.secondaryBit, if_true,
      if_false, Bool.false_eq_true, beq_iff_eq, beq_eq_false_iff_ne, ne_eq] at * <;>
    omega

theorem packIssued_of_word (bound : word < weight 256 8)
    (issued : hasBit word Limits.issuedBit = true) :
    packIssued (hasBit word Limits.positiveBit) (word / Limits.exponentUnit % 256)
      (word % Limits.exponentUnit) = word := by
  have whole : weight 256 8 = 18446744073709551616 := rfl
  rw [whole] at bound
  simp only [packIssued]
  cases positive : hasBit word Limits.positiveBit <;>
    simp only [hasBit, bitIf, Limits.issuedBit, Limits.positiveBit, Limits.exponentUnit, if_true,
      if_false, Bool.false_eq_true, beq_iff_eq, beq_eq_false_iff_ne, ne_eq] at * <;>
    omega

end Words

section Native

variable {amount : Amount}

/-- The drops of a valid native amount. -/
theorem exists_native (valid : amount.Valid) (isNative : amount.isNative = true) :
    ∃ (asset : NativeAsset) (drops : Int), drops.natAbs ≤ 1000000000000000000 ∧
      ofDrops asset drops = .ok amount := by
  obtain ⟨asset, currency, issuer, bounded⟩ := valid.native isNative
  have checked := (check_of_isNative isNative).symm.trans valid.checked
  obtain ⟨drops, found, bound⟩ := exists_drops valid.normal checked
  refine ⟨asset, drops, bound, ?_⟩
  simp only [ofDrops, Amount.native]
  rw [shift_ofInt_drops valid.normal found, checked, ← currency, ← issuer, ← bounded]
  rfl

theorem ofDrops_eq_ok {asset : NativeAsset} {drops : Int} (built : ofDrops asset drops = .ok amount) :
    amount = ⟨(Decimal.ofInt drops).shift (-Limits.nativeScale), asset.currency, Account.zero,
      false⟩ := by
  obtain ⟨_, _, made⟩ := bind_eq_ok.mp built
  cases made
  rfl

theorem nativeWord_of_drops {asset : NativeAsset} {drops : Int}
    (bound : drops.natAbs < Limits.secondaryBit) (built : ofDrops asset drops = .ok amount)
    (field : String) :
    amount.isNative = true ∧ amount.nativeWord field =
      .ok (packNative (0 ≤ drops) (asset = .secondary) drops.natAbs) := by
  have isNative : amount.isNative = true := by
    rw [ofDrops_eq_ok built]
    exact isNative_currency asset
  have asset? : amount.nativeAsset? = some asset := by
    rw [ofDrops_eq_ok built]
    exact nativeAsset?_currency asset
  have small : drops.natAbs < 2305843009213693952 := bound
  have found : toDrops? amount.value = some drops := by
    rw [ofDrops_eq_ok built]
    exact toDrops?_shift_ofInt (by omega)
  have spelled : amount.drops? = some drops := drops?_eq_some isNative found (by omega)
  have inside : ¬ Limits.dropsMask < drops.natAbs := by
    simp only [Limits.dropsMask]
    omega
  refine ⟨isNative, ?_⟩
  simp only [nativeWord, packNative]
  simp only [spelled, inside, if_false, asset?, Option.some.injEq]

theorem ofNativeWord_packNative {asset : NativeAsset} {drops : Int}
    (bound : drops.natAbs < Limits.secondaryBit) (built : ofDrops asset drops = .ok amount) :
    ofNativeWord (packNative (0 ≤ drops) (asset = .secondary) drops.natAbs) = .ok amount := by
  obtain ⟨_, _, positive, secondary, magnitude⟩ :=
    @packNative_fields (0 ≤ drops) (asset = .secondary) drops.natAbs bound
  have sign : (if decide (0 ≤ drops) = true then (drops.natAbs : Int) else -(drops.natAbs : Int)) =
      drops := by
    split <;> rename_i nonnegative <;> rw [decide_eq_true_iff] at nonnegative <;> omega
  have kind : (if decide (asset = .secondary) = true then NativeAsset.secondary else .primary) =
      asset := by
    cases asset <;> rfl
  have canonical : (!decide (0 ≤ drops) && drops.natAbs == 0) = false := by
    cases nonnegative : decide (0 ≤ drops) with
    | true => rfl
    | false =>
        rw [decide_eq_false_iff_not] at nonnegative
        exact beq_eq_false_iff_ne.mpr (by omega)
  simp only [ofNativeWord]
  simp only [positive, secondary, magnitude, canonical, kind, Bool.false_eq_true, if_false]
  rw [sign, built]
  rfl

/-- The drops in a word that was read as a native amount. -/
theorem ofNativeWord_eq_ok {word : Nat} (built : ofNativeWord word = .ok amount) :
    ∃ (asset : NativeAsset) (drops : Int), ofDrops asset drops = .ok amount ∧
      drops.natAbs = word % Limits.secondaryBit ∧
      decide (0 ≤ drops) = hasBit word Limits.positiveBit ∧
      decide (asset = .secondary) = hasBit word Limits.secondaryBit := by
  unfold ofNativeWord at built
  simp only at built
  split at built
  · contradiction
  · rename_i canonical
    refine ⟨_, _, mapError_eq_ok.mp built, ?_, ?_, ?_⟩
    · split <;> omega
    · cases positive : hasBit word Limits.positiveBit with
      | true =>
          rw [if_pos rfl]
          exact decide_eq_true (Int.natCast_nonneg _)
      | false =>
          rw [positive] at canonical
          simp only [Bool.not_false, Bool.true_and, beq_iff_eq] at canonical
          rw [if_neg Bool.false_ne_true]
          exact decide_eq_false (by omega)
    · split <;> rename_i secondary
      · rw [secondary]
        rfl
      · rw [Bool.eq_false_iff.mpr secondary]
        rfl

end Native

section Issued

/-- A value's sixteen-digit spelling. -/
structure Spelled (value : Decimal) (mantissa : Nat) (exponent : Int) : Prop where
  nonzero : value.isZero = false
  short : value.precision ≤ Limits.issuedPrecision
  lower : Limits.minimumMantissa ≤ mantissa
  upper : mantissa ≤ Limits.maximumMantissa
  inside : inExponentRange exponent = true
  scaled : value.mantissa * weight 10 (Limits.issuedPrecision - value.precision) = mantissa
  normalised : normalisedExponent value = exponent
  normal : Decimal.normal value.negative mantissa exponent = value

theorem Spelled.of_scaled {value : Decimal} {places : Nat} {exponent : Int}
    (last : value.mantissa % 10 ≠ 0) (length : value.precision + places = Limits.issuedPrecision)
    (inside : inExponentRange exponent = true) (placed : value.exponent = exponent + places) :
    Spelled value (value.mantissa * weight 10 places) exponent := by
  have nonzero : value.isZero = false := beq_eq_false_iff_ne.mpr fun zero => last (by rw [zero])
  have positive := mantissa_pos nonzero
  have sixteen : decimalLength (value.mantissa * weight 10 places) = 16 :=
    (decimalLength_scaled positive places).trans length
  have above : weight 10 15 ≤ value.mantissa * weight 10 places :=
    weight_le_of_lt_decimalLength (by omega)
  have below := decimalLength_le_iff.mp (Nat.le_of_eq sixteen)
  have lowest : weight 10 15 = Limits.minimumMantissa := rfl
  have beyond : weight 10 16 = Limits.maximumMantissa + 1 := rfl
  obtain ⟨low, high⟩ := inExponentRange_iff.mp inside
  have digits : Limits.issuedPrecision - value.precision = places := by omega
  have short : places ≤ 16 := by
    have issued : Limits.issuedPrecision = 16 := rfl
    omega
  refine ⟨nonzero, by omega, by omega, by omega, inside, by rw [digits], ?_, ?_⟩
  · simp only [normalisedExponent]
    rw [placed, clamp_of_small] <;> omega
  · rw [normal_scaled last (by omega), ← placed]

/-- A checked value that is not zero has a sixteen-digit spelling. -/
theorem exists_spelled {value : Decimal} (normal : value.IsNormal) (nonzero : value.isZero = false)
    (checked : checkIssued value false = .ok ()) :
    ∃ mantissa exponent, Spelled value mantissa exponent := by
  obtain ⟨short, normalised, inside⟩ := issued_bounds nonzero checked
  have issued : Limits.issuedPrecision = 16 := rfl
  have length : value.precision + (16 - value.precision) = Limits.issuedPrecision := by omega
  exact ⟨_, _, Spelled.of_scaled (normal.last nonzero) length inside (by omega)⟩

/-- The numbers of a word spell their normal form. -/
theorem spelled_normal {mantissa : Nat} {exponent : Int}
    (lower : Limits.minimumMantissa ≤ mantissa) (upper : mantissa ≤ Limits.maximumMantissa)
    (inside : inExponentRange exponent = true) (negative : Bool) :
    Spelled (Decimal.normal negative mantissa exponent) mantissa exponent ∧
      (Decimal.normal negative mantissa exponent).negative = negative := by
  have positive : 0 < mantissa := Nat.lt_of_lt_of_le (by decide) lower
  obtain ⟨stripped, places, last, spelled⟩ := exists_stripped positive
  have strippedPositive : 0 < stripped := Nat.pos_of_ne_zero fun zero => last (by rw [zero])
  have length : decimalLength stripped + places = Limits.issuedPrecision := by
    rw [← decimalLength_scaled strippedPositive, ← spelled]
    have beyond : mantissa < weight 10 16 := Nat.lt_succ_of_le upper
    have most := decimalLength_le_iff.mpr beyond
    have least : ¬ decimalLength mantissa ≤ 15 := fun few =>
      absurd (decimalLength_le_iff.mp few) (Nat.not_lt.mpr lower)
    exact Nat.le_antisymm most (Nat.lt_of_not_le least)
  have issued : Limits.issuedPrecision = 16 := rfl
  obtain ⟨low, high⟩ := inExponentRange_iff.mp inside
  rw [spelled, normal_scaled last (by omega)]
  exact ⟨Spelled.of_scaled last length inside rfl, rfl⟩

variable {amount : Amount} {mantissa : Nat} {exponent : Int}

/-- The biased exponent of a word fits its byte. -/
theorem biased_bounds (inside : inExponentRange exponent = true) :
    (exponent + Limits.exponentBias).toNat < 256 ∧
      ((exponent + Limits.exponentBias).toNat : Int) - Limits.exponentBias = exponent := by
  obtain ⟨low, high⟩ := inExponentRange_iff.mp inside
  simp only [Limits.exponentBias]
  omega

private theorem tooManyDigits_eq_false
    (bounded : amount.unbounded = false → amount.value.precision ≤ Limits.issuedPrecision) :
    (!amount.unbounded && decide (Limits.issuedPrecision < amount.value.precision)) = false := by
  cases isUnbounded : amount.unbounded with
  | true => rfl
  | false => exact decide_eq_false (Nat.not_lt.mpr (bounded isUnbounded))

theorem issuedWord_of_spelled (spelled : Spelled amount.wireValue mantissa exponent)
    (bounded : amount.unbounded = false → amount.value.precision ≤ Limits.issuedPrecision)
    (field : String) : amount.issuedWord field = .ok (packIssued (!amount.wireValue.negative)
      (exponent + Limits.exponentBias).toNat mantissa) := by
  have digits := tooManyDigits_eq_false bounded
  have small : ¬ UInt64.size ≤ mantissa := by
    have upper : mantissa ≤ 9999999999999999 := spelled.upper
    unfold UInt64.size
    omega
  simp only [issuedWord, packIssued]
  simp only [digits, spelled.nonzero, spelled.normalised, spelled.inside, spelled.scaled, small,
    Bool.false_eq_true, Bool.not_true, if_false]

theorem issuedWord_of_zero (isZero : amount.wireValue.isZero = true)
    (bounded : amount.unbounded = false → amount.value.precision ≤ Limits.issuedPrecision)
    (field : String) : amount.issuedWord field = .ok Limits.issuedBit := by
  have digits := tooManyDigits_eq_false bounded
  simp only [issuedWord]
  simp only [digits, isZero, Bool.false_eq_true, if_false, if_true]

variable {value : Decimal} {currency : Currency} {issuer : Account}

theorem issued_eq_ok (isIssued : currency.isNative = false)
    (checked : checkIssued value false = .ok ()) :
    issued value currency issuer = .ok ⟨value, currency, issuer, false⟩ := by
  simp only [issued, issuedWith]
  rw [isIssued, checked]
  rfl

theorem Spelled.checked (spelled : Spelled value mantissa exponent) :
    checkIssued value false = .ok () :=
  checkIssued_eq_ok spelled.short fun _ => spelled.normalised ▸ spelled.inside

theorem ofIssuedWord_of_spelled (spelled : Spelled value mantissa exponent)
    (isIssued : currency.isNative = false) :
    ofIssuedWord (packIssued (!value.negative) (exponent + Limits.exponentBias).toNat mantissa)
      currency issuer = .ok ⟨value, currency, issuer, false⟩ := by
  obtain ⟨narrow, unbiased⟩ := biased_bounds spelled.inside
  have lower := spelled.lower
  have upper := spelled.upper
  have bound : mantissa < Limits.exponentUnit := by
    have beyond : Limits.maximumMantissa < Limits.exponentUnit := by decide
    omega
  have some : ¬ mantissa = 0 := by
    have positive : 0 < Limits.minimumMantissa := by decide
    omega
  have sixteen : ¬ (mantissa < Limits.minimumMantissa ∨ Limits.maximumMantissa < mantissa) := by
    omega
  obtain ⟨_, _, sign, biased, digits⟩ := @packIssued_fields (!value.negative) _ _ narrow bound
  simp only [ofIssuedWord]
  simp only [digits, biased, sign, some, sixteen, unbiased, spelled.inside, spelled.normal,
    Bool.not_true, Bool.not_not, Bool.false_eq_true, if_false]
  rw [issued_eq_ok isIssued spelled.checked]
  rfl

theorem ofIssuedWord_of_zero (isIssued : currency.isNative = false) :
    ofIssuedWord Limits.issuedBit currency issuer =
      .ok ⟨Decimal.zero, currency, issuer, false⟩ := by
  have empty : Limits.issuedBit % Limits.exponentUnit = 0 := by decide
  simp only [ofIssuedWord]
  simp only [empty, if_true]
  rw [issued_eq_ok isIssued rfl]
  rfl

/-- What a word that was read as an issued amount spells. -/
theorem ofIssuedWord_eq_ok {word : Nat}
    (built : ofIssuedWord word currency issuer = .ok amount) :
    currency.isNative = false ∧ amount = ⟨amount.value, currency, issuer, false⟩ ∧
      (word = Limits.issuedBit ∧ amount.value = Decimal.zero ∨
        Spelled amount.value (word % Limits.exponentUnit)
            ((word / Limits.exponentUnit % 256 : Nat) - Limits.exponentBias) ∧
          amount.value.negative = !hasBit word Limits.positiveBit) := by
  unfold ofIssuedWord at built
  simp only at built
  split at built
  · split at built
    · rename_i canonical
      obtain ⟨isIssued, _, rfl⟩ := issuedWith_eq_ok (mapError_eq_ok.mp built)
      exact ⟨isIssued, rfl, Or.inl ⟨canonical, rfl⟩⟩
    · contradiction
  · split at built
    · contradiction
    · rename_i sixteen
      split at built
      · contradiction
      · rename_i inside
        rw [Bool.not_eq_true, Bool.not_eq_false'] at inside
        obtain ⟨isIssued, _, rfl⟩ := issuedWith_eq_ok (mapError_eq_ok.mp built)
        exact ⟨isIssued, rfl, Or.inr (spelled_normal (by omega) (by omega) inside _)⟩

end Issued

section Amounts

variable {amount : Amount}

/-- The amount that is read back: the value is the one that the wire holds. -/
def settled (amount : Amount) : Amount :=
  ⟨amount.wireValue, amount.currency, amount.issuer, false⟩

theorem wireValue_of_isNative (isNative : amount.isNative = true) :
    amount.wireValue = amount.value :=
  if_pos isNative

theorem wireValue_of_issued (isIssued : amount.isNative = false) :
    amount.wireValue = amount.value.roundSignificant Limits.issuedPrecision :=
  if_neg (Bool.eq_false_iff.mp isIssued)

theorem wireValue_eq_value (short : amount.value.precision ≤ Limits.issuedPrecision) :
    amount.wireValue = amount.value := by
  simp only [wireValue]
  rw [roundSignificant_of_precision_le short, ite_self]

/-- A bounded amount holds no more digits than the wire does, unless it is native. -/
theorem Valid.precision_le (valid : amount.Valid) (isIssued : amount.isNative = false)
    (bounded : amount.unbounded = false) : amount.value.precision ≤ Limits.issuedPrecision := by
  have checked := (check_of_issued isIssued).symm.trans valid.checked
  rw [bounded] at checked
  cases isZero : amount.value.isZero with
  | true =>
      rw [valid.normal.eq_zero isZero]
      exact Nat.le_trans (Nat.le_of_eq decimalLength_zero) (Nat.zero_le _)
  | false => exact (issued_bounds isZero checked).1

/-- The wire loses no digit of an amount, unless it is unbounded and has too many. -/
theorem Valid.wireValue_eq (valid : amount.Valid)
    (short : amount.unbounded = true → amount.value.precision ≤ Limits.issuedPrecision) :
    amount.wireValue = amount.value := by
  cases isNative : amount.isNative with
  | true => exact wireValue_of_isNative isNative
  | false =>
      apply wireValue_eq_value
      cases isUnbounded : amount.unbounded with
      | true => exact short isUnbounded
      | false => exact valid.precision_le isNative isUnbounded

/-- The word of a valid issued amount, and what is read back from it. -/
theorem exists_issuedWord (valid : amount.Valid) (isIssued : amount.isNative = false)
    (field : String) :
    ∃ word, word < weight 256 8 ∧ hasBit word Limits.issuedBit = true ∧
      amount.issuedWord field = .ok word ∧
      ofIssuedWord word amount.currency amount.issuer = .ok amount.settled := by
  have bounded := valid.precision_le isIssued
  have rounded := wireValue_of_issued isIssued
  have normal : amount.wireValue.IsNormal := by
    rw [rounded]
    exact valid.normal.roundSignificant _
  have checked : checkIssued amount.wireValue false = .ok () := by
    rw [rounded]
    exact checkIssued_rounded valid.bounded ((check_of_issued isIssued).symm.trans valid.checked)
  cases isZero : amount.wireValue.isZero with
  | true =>
      refine ⟨Limits.issuedBit, by decide, by decide, issuedWord_of_zero isZero bounded field, ?_⟩
      rw [ofIssuedWord_of_zero isIssued, settled, normal.eq_zero isZero]
  | false =>
      obtain ⟨mantissa, exponent, spelled⟩ := exists_spelled normal isZero checked
      have upper := spelled.upper
      have narrow : mantissa < Limits.exponentUnit := Nat.lt_of_le_of_lt upper (by decide)
      obtain ⟨bound, mark, _⟩ := @packIssued_fields (!amount.wireValue.negative) _ _
        (biased_bounds spelled.inside).1 narrow
      exact ⟨_, bound, mark, issuedWord_of_spelled spelled bounded field,
        ofIssuedWord_of_spelled spelled isIssued⟩

/-- Every valid amount is written, and read back as the wire holds it. -/
theorem reads_toBytesFor (valid : amount.Valid) (field : String) :
    ∃ bytes, amount.toBytesFor field = .ok bytes ∧
      bytes.length = (if amount.isNative then 8 else 48) ∧ Reads read bytes amount.settled := by
  simp only [toBytesFor]
  cases isNative : amount.isNative with
  | true =>
      obtain ⟨asset, drops, bound, built⟩ := exists_native valid isNative
      have narrow : drops.natAbs < Limits.secondaryBit := Nat.lt_of_le_of_lt bound (by decide)
      obtain ⟨small, mark, _⟩ :=
        @packNative_fields (0 ≤ drops) (asset = .secondary) drops.natAbs narrow
      have same : amount.settled = amount := by
        simp only [settled]
        rw [wireValue_of_isNative isNative, ofDrops_eq_ok built]
      rw [(nativeWord_of_drops narrow built field).2]
      refine ⟨_, rfl, Bytes.length_bigEndian _ _, ?_⟩
      refine (Reads.mapCause (Reads.natural _ small)).map ?_
      rw [mark, ofNativeWord_packNative narrow built, same]
      exact Reads.ofExcept amount
  | false =>
      obtain ⟨word, small, mark, written, readBack⟩ := exists_issuedWord valid isNative field
      rw [written]
      refine ⟨_, rfl, ?_, ?_⟩
      · rw [List.length_append, List.length_append, Bytes.length_bigEndian, Currency.toBytes,
          Account.toBytes, amount.currency.octets.length_toList, amount.issuer.octets.length_toList]
        rfl
      · simp only [List.append_assoc]
        refine (Reads.mapCause (Reads.natural _ small)).bind ?_
        rw [mark]
        refine (Reads.mapCause (Reads.octets _ _)).bind ((Reads.mapCause (Reads.octets _ _)).map ?_)
        rw [readBack]
        exact Reads.ofExcept amount.settled

/-- An amount that was read is written as the bytes it was read from. -/
theorem toBytesFor_of_read {input rest : Bytes} (taken : read.run input = .done amount rest)
    (field : String) : ∃ bytes, amount.toBytesFor field = .ok bytes ∧ input = bytes ++ rest := by
  obtain ⟨octets, ⟨mark, split, built⟩ | ⟨mark, currency, issuer, split, built⟩⟩ :=
    read_eq_done taken
  -- Amounts of either kind start with eight bytes, which spell a word.
  all_goals
    have bound : Bytes.toNat octets.toList < weight 256 8 := by
      have inside := Bytes.toNat_lt octets.toList
      rwa [octets.length_toList] at inside
    have spelledBytes : Bytes.bigEndian 8 (Bytes.toNat octets.toList) = octets.toList := by
      have whole := Bytes.bigEndian_toNat octets.toList
      rwa [octets.length_toList] at whole
  · obtain ⟨asset, drops, made, magnitude, sign, kind⟩ := ofNativeWord_eq_ok built
    have narrow : drops.natAbs < Limits.secondaryBit := by
      rw [magnitude]
      exact Nat.mod_lt _ (by decide)
    obtain ⟨isNative, written⟩ := nativeWord_of_drops narrow made field
    rw [sign, kind, magnitude, packNative_of_word bound mark] at written
    refine ⟨_, ?_, split⟩
    rw [toBytesFor, if_pos isNative, written]
    exact congrArg Except.ok spelledBytes
  · obtain ⟨isIssued, made, spelling⟩ := ofIssuedWord_eq_ok built
    have notNative : amount.isNative = false := by
      rw [made]
      exact isIssued
    have bounded : amount.unbounded = false := by rw [made]
    have sameValue : amount.wireValue = amount.value := by
      apply wireValue_eq_value
      exact (valid_read taken).precision_le notNative bounded
    have written : amount.issuedWord field = .ok (Bytes.toNat octets.toList) := by
      have short := (valid_read taken).precision_le notNative
      rcases spelling with ⟨word, isZero⟩ | ⟨spelled, sign⟩
      · rw [issuedWord_of_zero (by rw [sameValue, isZero]; rfl) short, word]
      · rw [← sameValue] at spelled sign
        rw [issuedWord_of_spelled spelled short, sign, Bool.not_not, Int.sub_add_cancel,
          Int.toNat_natCast, packIssued_of_word bound mark]
    refine ⟨octets.toList ++ currency.toList ++ issuer.toList, ?_, ?_⟩
    · rw [toBytesFor, if_neg (Bool.eq_false_iff.mp notNative), written, made]
      change Except.ok (Bytes.bigEndian 8 (Bytes.toNat octets.toList) ++ currency.toList ++
        issuer.toList) = _
      rw [spelledBytes]
    · rw [split, List.append_assoc, List.append_assoc]

theorem ofBytes_of_reads {bytes : Bytes} (reading : Reads read bytes amount) :
    ofBytes bytes = .ok amount := by
  have whole := reading []
  rw [List.append_nil] at whole
  simp only [ofBytes]
  rw [whole]

theorem read_of_ofBytes {bytes : Bytes} (decoded : ofBytes bytes = .ok amount) :
    read.run bytes = .done amount [] := by
  simp only [ofBytes] at decoded
  split at decoded
  · rename_i whole
    cases decoded
    exact whole
  · contradiction
  · contradiction

/-- Writing and reading amounts are inverse to each other. Only the digits of an unbounded amount
that the wire has no room for are lost. -/
theorem wire_bijection :
    (∀ amount, Built amount → ∃ bytes, amount.toBytes = .ok bytes ∧
        bytes.length = (if amount.isNative then 8 else 48) ∧
        ofBytes bytes = .ok ⟨amount.wireValue, amount.currency, amount.issuer, false⟩ ∧
        ((amount.unbounded = true → amount.value.precision ≤ Limits.issuedPrecision) →
          amount.wireValue = amount.value)) ∧
      ∀ bytes amount, ofBytes bytes = .ok amount → amount.toBytes = .ok bytes := by
  constructor
  · intro amount built
    obtain ⟨bytes, written, length, reading⟩ := reads_toBytesFor built.valid "Amount"
    refine ⟨bytes, written, length, ofBytes_of_reads reading, fun short => ?_⟩
    cases isNative : amount.isNative with
    | true => exact wireValue_of_isNative isNative
    | false =>
        apply wireValue_eq_value
        cases isUnbounded : amount.unbounded with
        | true => exact short isUnbounded
        | false => exact built.valid.precision_le isNative isUnbounded
  · intro bytes amount decoded
    obtain ⟨written, result, split⟩ := toBytesFor_of_read (read_of_ofBytes decoded) "Amount"
    rw [List.append_nil] at split
    rw [split]
    exact result

/-- An amount of seventeen digits in the currency `USD`. -/
def seventeenDigits : Amount :=
  ⟨⟨true, 12345678901234567, -3⟩, Currency.ofCode (Octets.ofNat 3 0x555344) 0, Account.one, true⟩

theorem wire_bijection_seventeen_digits :
    ∃ bytes, seventeenDigits.toBytes = .ok bytes ∧ bytes.length = 48 ∧
      ofBytes bytes = .ok { seventeenDigits with
        value := ⟨true, 1234567890123457, -2⟩, unbounded := false } ∧
      toBytes { seventeenDigits with value := ⟨true, 1234567890123457, -2⟩, unbounded := false } =
        .ok bytes := by
  have normal : seventeenDigits.value.IsNormal := Or.inr (by decide)
  have bounded : seventeenDigits.value.mantissa ≤ maximumMantissa := by decide
  have made : issuedWith true seventeenDigits.value seventeenDigits.currency
      seventeenDigits.issuer = .ok seventeenDigits := by
    decide +kernel
  obtain ⟨bytes, written, length, decoded, _⟩ :=
    wire_bijection.1 seventeenDigits (.unbounded normal bounded made)
  have rounded : seventeenDigits.wireValue = ⟨true, 1234567890123457, -2⟩ := by decide +kernel
  rw [rounded] at decoded
  exact ⟨bytes, written, length, decoded, wire_bijection.2 _ _ decoded⟩

end Amounts

end LedgerWire.Amount
