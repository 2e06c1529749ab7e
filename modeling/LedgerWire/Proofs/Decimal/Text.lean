import LedgerWire.Proofs.Decimal.Reading

namespace LedgerWire.Decimal

open Positional Text

/-!
The text forms of decimals read back. Plain notation lays the digits of the mantissa out around the
point in one of three ways, none of which writes a zero that the number does not need; either form
denotes the decimal that was printed, and so is read as it.
-/

section Printed

variable {decimal : Decimal}

theorem signSpelling (negative : Bool) : SignSpelling negative (if negative then ['-'] else []) := by
  cases negative
  · exact .none
  · exact .minus

theorem markless_of_sign {negative : Bool} {sign : List Char} (signed : SignSpelling negative sign) :
    ∀ character ∈ sign, isExponentMark character = false := by
  cases signed <;> simp [isExponentMark]

theorem digitSpelling_digitText (number : Nat) :
    DigitSpelling (Positional.digits 10 number) (digitText number) :=
  .spelled _ (digits_lt (by decide) number)

theorem digitSpelling_zeros (count : Nat) :
    DigitSpelling (List.replicate count 0) (List.replicate count '0') := by
  have zeros := DigitSpelling.spelled (List.replicate count 0) fun digit member => by
    rw [List.eq_of_mem_replicate member]
    decide
  rwa [List.map_replicate] at zeros

theorem length_mantissa (decimal : Decimal) :
    (Positional.digits 10 decimal.mantissa).length = decimal.precision :=
  length_digits decimal.mantissa

theorem isZero_of_last (last : decimal.mantissa % 10 ≠ 0) : decimal.isZero = false :=
  beq_eq_false_iff_ne.mpr fun zero => last (by rw [zero])

theorem exponent_bounds_of_moderate (short : decimal.precision ≤ 38)
    (moderate : decimal.leadingExponent.natAbs ≤ 1000) : decimal.exponent.natAbs ≤ 1038 := by
  have unclamped : clamp (decimal.exponent + ((decimal.precision : Int) - 1)) =
      decimal.exponent + ((decimal.precision : Int) - 1) := by
    apply eq_of_clamp <;>
      simp only [leadingExponent, minimumExponent, maximumExponent] at * <;> omega
  rw [leadingExponent, unclamped] at moderate
  omega

/-- The digits before and behind the point in plain notation. -/
inductive PlainLayout (decimal : Decimal) : List Nat → List Nat → Prop where
  | integer {zeros : Nat} (places : decimal.exponent = zeros) :
      PlainLayout decimal (Positional.digits 10 decimal.mantissa ++ List.replicate zeros 0) []
  | split {before behind : List Nat}
      (parts : Positional.digits 10 decimal.mantissa = before ++ behind) (some : before ≠ [])
      (others : behind ≠ []) (places : decimal.exponent = -behind.length) :
      PlainLayout decimal before behind
  | small {zeros : Nat} (places : decimal.exponent = -(zeros + decimal.precision : Nat)) :
      PlainLayout decimal [0] (List.replicate zeros 0 ++ Positional.digits 10 decimal.mantissa)

namespace PlainLayout

variable {whole fraction : List Nat} (layout : PlainLayout decimal whole fraction)

include layout

theorem number_eq : (⟨decimal.negative, whole, fraction, 0⟩ : Spelling).number = decimal.toRat := by
  rw [Spelling.number_eq_digits, toRat, magnitude]
  dsimp only
  congr 1
  cases layout with
  | @integer zeros places =>
      rw [List.append_nil, value_append, value_zeros, Nat.add_zero, List.length_replicate,
        value_digits (by decide), scaled_mul_ten_zpow, places]
      simp
  | split parts _ _ places =>
      rw [← parts, value_digits (by decide), places, Int.zero_sub]
  | @small zeros places =>
      rw [List.length_append, List.length_replicate, length_mantissa, places, Int.zero_sub]
      have number : value 10 ([0] ++ (List.replicate zeros 0 ++
          Positional.digits 10 decimal.mantissa)) = decimal.mantissa :=
        (value_zeros_append 10 1 _).trans
          ((value_zeros_append 10 zeros _).trans (value_digits (by decide) _))
      rw [number]

theorem length_le : (whole ++ fraction).length ≤ decimal.precision + decimal.exponent.natAbs + 1 := by
  cases layout with
  | integer places =>
      simp only [List.append_nil, List.length_append, List.length_replicate, length_mantissa]
      omega
  | split parts _ _ places =>
      rw [← parts, length_mantissa]
      omega
  | small places =>
      simp only [List.length_append, List.length_replicate, List.length_singleton, length_mantissa]
      omega

variable (last : decimal.mantissa % 10 ≠ 0)

include last

/-- No zero leads another digit before the point. -/
theorem leading (digit : Nat) (rest : List Nat) : whole ≠ 0 :: digit :: rest := by
  have leads := head?_digits (by decide : 2 ≤ 10) decimal.mantissa
  have some := digits_ne_nil (by decide : 2 ≤ 10) (by omega : 0 < decimal.mantissa)
  intro zero
  have head : whole.head? = Option.some 0 := by rw [zero]; rfl
  cases layout with
  | integer => exact leads (by rwa [List.head?_append_of_ne_nil _ some] at head)
  | split parts nonempty => exact leads (by rwa [parts, List.head?_append_of_ne_nil _ nonempty])
  | small => cases zero

/-- No zero ends what is behind the point. -/
theorem trailing : fraction.getLast? ≠ some 0 := by
  have split := digits_of_pos (by decide : 2 ≤ 10) (by omega : 0 < decimal.mantissa)
  have ends : (Positional.digits 10 decimal.mantissa).getLast? = some (decimal.mantissa % 10) := by
    rw [split, List.getLast?_concat]
  cases layout with
  | integer => simp
  | split parts _ others =>
      rw [parts, List.getLast?_append_of_ne_nil _ others] at ends
      simpa [ends] using last
  | small =>
      rw [List.getLast?_append, ends]
      simpa using last

end PlainLayout

/-- Plain notation is the sign and the numeral of one of the layouts. -/
theorem exists_plainLayout (last : decimal.mantissa % 10 ≠ 0) : ∃ whole fraction numeral,
    PlainLayout decimal whole fraction ∧ NumeralSpelling whole fraction numeral ∧
      decimal.plain.toList = (if decimal.negative then ['-'] else []) ++ numeral := by
  have nonempty := digits_ne_nil (by decide : 2 ≤ 10) (by omega : 0 < decimal.mantissa)
  have spelled := digitSpelling_digitText decimal.mantissa
  have length : (digitText decimal.mantissa).length = decimal.precision :=
    spelled.length_eq.trans decimal.length_mantissa
  have signText (unsigned : List Char) : (if decimal.negative then '-' :: unsigned else unsigned) =
      (if decimal.negative then ['-'] else []) ++ unsigned := by
    cases decimal.negative <;> rfl
  rw [plain, isZero_of_last last, if_neg Bool.false_ne_true, String.toList_ofList, signText, length]
  -- The point stands behind the digits, among them, or before them.
  by_cases integer : 0 ≤ decimal.exponent
  · rw [if_pos integer]
    exact ⟨_, _, _, .integer (Int.toNat_of_nonneg integer).symm,
      .whole (by simp [nonempty])
        (digitSpelling_append.mpr ⟨_, _, rfl, spelled, digitSpelling_zeros _⟩), rfl⟩
  · rw [if_neg integer]
    by_cases split : 0 < decimal.precision + decimal.exponent
    · have small := digits_lt (by decide : 2 ≤ 10) decimal.mantissa
      have digits := decimal.length_mantissa
      obtain ⟨count, places⟩ := Int.eq_ofNat_of_zero_le split.le
      rw [if_pos split, places, Int.toNat_natCast, digitText, ← List.map_take, ← List.map_drop]
      have some : (Positional.digits 10 decimal.mantissa).take count ≠ [] := by
        rw [ne_eq, List.take_eq_nil_iff, not_or]
        exact ⟨by omega, nonempty⟩
      have others : (Positional.digits 10 decimal.mantissa).drop count ≠ [] := by
        rw [ne_eq, List.drop_eq_nil_iff]
        omega
      refine ⟨_, _, _, .split (List.take_append_drop count _).symm some others ?_,
        .pointed (Or.inl some)
          (.spelled _ fun digit member => small digit (List.mem_of_mem_take member))
          (.spelled _ fun digit member => small digit (List.mem_of_mem_drop member)), rfl⟩
      rw [List.length_drop]
      omega
    · have layout : PlainLayout decimal [0]
          (List.replicate (-(decimal.precision + decimal.exponent)).toNat 0 ++
            Positional.digits 10 decimal.mantissa) := .small (by omega)
      rw [if_neg split]
      exact ⟨_, _, _, layout, .pointed (Or.inl (List.cons_ne_nil _ _)) (digitSpelling_zeros 1)
        (digitSpelling_append.mpr ⟨_, _, rfl, digitSpelling_zeros _, spelled⟩), rfl⟩

/-- Plain notation is made of decimal digits, a minus sign and a point. -/
theorem mem_plain {character : Char} (member : character ∈ decimal.plain.toList) :
    character = '-' ∨ character = '.' ∨ ∃ digit < 10, Hex.digit digit = character := by
  have ofDigits {number : Nat} (found : character ∈ digitText number) :
      ∃ digit < 10, Hex.digit digit = character := by
    obtain ⟨digit, inside, same⟩ := List.mem_map.mp found
    exact ⟨digit, digits_lt (by decide) number digit inside, same⟩
  have ofZeros {count : Nat} (found : character ∈ List.replicate count '0') :
      ∃ digit < 10, Hex.digit digit = character :=
    ⟨0, by decide, (List.eq_of_mem_replicate found).symm⟩
  have ofSign {unsigned : List Char}
      (found : character ∈ if decimal.negative then '-' :: unsigned else unsigned) :
      character = '-' ∨ character ∈ unsigned := by
    split at found
    · exact List.mem_cons.mp found
    · exact Or.inr found
  unfold plain at member
  split at member
  · exact Or.inr (Or.inr ⟨0, by decide, (List.eq_of_mem_singleton member).symm⟩)
  rw [String.toList_ofList] at member
  refine (ofSign member).imp_right fun unsigned => ?_
  split at unsigned
  · rcases List.mem_append.mp unsigned with digit | zero
    · exact Or.inr (ofDigits digit)
    · exact Or.inr (ofZeros zero)
  · split at unsigned
    · rcases List.mem_append.mp unsigned with before | pointed
      · exact Or.inr (ofDigits (List.mem_of_mem_take before))
      · refine (List.mem_cons.mp pointed).imp_right fun behind => ?_
        exact ofDigits (List.mem_of_mem_drop behind)
    · rcases List.mem_cons.mp unsigned with rfl | pointed
      · exact Or.inr ⟨0, by decide, rfl⟩
      · refine (List.mem_cons.mp pointed).imp_right fun behind => ?_
        exact (List.mem_append.mp behind).elim ofZeros ofDigits

theorem toList_scientific (last : decimal.mantissa % 10 ≠ 0) : decimal.scientific.toList =
    (if decimal.negative then ['-'] else []) ++
      (digitText decimal.mantissa ++ 'e' :: (toString decimal.exponent).toList) := by
  rw [scientific, isZero_of_last last, if_neg Bool.false_ne_true]
  cases decimal.negative <;> simp

end Printed

section RoundTrip

variable {decimal : Decimal} (isNormal : decimal.IsNormal)
  (short : decimal.precision ≤ Limits.decimalPrecision)
  (moderate : decimal.leadingExponent.natAbs ≤ Limits.decimalExponent)

/-- A numeral without an exponent, without a zero that leads another digit before the point and
without a zero that ends what is behind it. -/
structure Spelling.IsPlain (spelling : Spelling) (text : List Char) : Prop where
  spells : spelling.Spells text
  markless : ∀ character ∈ text, character ≠ 'e' ∧ character ≠ 'E'
  leading : ∀ digit rest, spelling.whole ≠ 0 :: digit :: rest
  trailing : spelling.fraction.getLast? ≠ some 0

theorem isPlain_of_numeral {negative : Bool} {sign numeral : List Char} {whole fraction : List Nat}
    (signed : SignSpelling negative sign) (spelled : NumeralSpelling whole fraction numeral)
    (leading : ∀ digit rest, whole ≠ 0 :: digit :: rest) (trailing : fraction.getLast? ≠ some 0) :
    Spelling.IsPlain ⟨negative, whole, fraction, 0⟩ (sign ++ numeral) := by
  have spells : Spelling.Spells ⟨negative, whole, fraction, 0⟩ (sign ++ (numeral ++ [])) :=
    .spelled signed spelled .absent
  rw [List.append_nil] at spells
  refine ⟨spells, fun character member => ?_, leading, trailing⟩
  rw [← not_or, ← isExponentMark_iff, Bool.not_eq_true]
  rcases List.mem_append.mp member with before | behind
  · exact markless_of_sign signed character before
  · exact spelled.markless character behind

include isNormal

/-- Plain notation denotes the decimal that was printed. -/
theorem plain_spelling : ∃ spelling : Spelling, spelling.IsPlain decimal.plain.toList ∧
    spelling.number = decimal.toRat ∧ spelling.exponent = 0 ∧
    (spelling.whole ++ spelling.fraction).length ≤ decimal.precision + decimal.exponent.natAbs + 1 := by
  rcases isNormal with rfl | last
  · let spelling : Spelling := ⟨false, [0], [], 0⟩
    have numeral : NumeralSpelling [0] [] ['0'] := .whole (by decide) (digitSpelling_zeros 1)
    have isPlain : spelling.IsPlain zero.plain.toList :=
      isPlain_of_numeral .none numeral (by simp) (by simp)
    refine ⟨spelling, isPlain, ?_, rfl, by decide⟩
    rw [Spelling.number_eq_digits, toRat_zero]
    simp [spelling, value]
  · obtain ⟨whole, fraction, numeral, layout, spelled, printed⟩ := exists_plainLayout last
    refine ⟨⟨decimal.negative, whole, fraction, 0⟩, ?_, layout.number_eq, rfl, layout.length_le⟩
    rw [printed]
    exact isPlain_of_numeral (signSpelling _) spelled (layout.leading last) (layout.trailing last)

include short moderate

/-- A decimal of a moderate size is read back from its plain notation. -/
theorem parse_plain : parse decimal.plain = .ok decimal := by
  obtain ⟨spelling, isPlain, denoted, none, length⟩ := plain_spelling isNormal
  have bound := exponent_bounds_of_moderate short moderate
  rw [Limits.decimalPrecision] at short
  exact parse_of_number isPlain.spells denoted isNormal short moderate (by omega)

/-- A decimal of a moderate size is read back from its scientific notation. -/
theorem parse_scientific : parse decimal.scientific = .ok decimal := by
  have bound := exponent_bounds_of_moderate short moderate
  rw [Limits.decimalPrecision] at short
  rcases isNormal with rfl | last
  · exact parse_plain isNormal_zero short moderate
  · let spelling : Spelling :=
      ⟨decimal.negative, Positional.digits 10 decimal.mantissa, [], decimal.exponent⟩
    have nonempty := digits_ne_nil (by decide : 2 ≤ 10) (by omega : 0 < decimal.mantissa)
    have literal : LiteralSpelling decimal.exponent (toString decimal.exponent).toList := by
      have fits : fitsSigned 32 decimal.exponent = true :=
        fitsSigned_iff.mpr (by constructor <;> omega)
      exact (signed?_eq_some.mp (signed?_toString fits)).1
    have spells : spelling.Spells decimal.scientific.toList := by
      rw [toList_scientific last]
      exact .spelled (signSpelling _) (.whole nonempty (digitSpelling_digitText _))
        (.marked (Or.inl rfl) literal)
    have denoted : spelling.number = decimal.toRat := by
      rw [Spelling.number_eq_digits, toRat, magnitude]
      simp [spelling, value_digits (by decide : 2 ≤ 10)]
    refine parse_of_number spells denoted (Or.inr last) short moderate ?_
    rw [List.append_nil, length_mantissa]
    change decimal.exponent.natAbs + _ ≤ _
    omega

end RoundTrip

/-- Either text form of a decimal of a moderate size is read as it, and plain notation has no
exponent and no zero that could be left out. -/
theorem text_forms_round_trip {decimal : Decimal} (isNormal : decimal.IsNormal)
    (short : decimal.precision ≤ 38) (moderate : decimal.leadingExponent.natAbs ≤ 1000) :
    parse decimal.plain = .ok decimal ∧ parse decimal.scientific = .ok decimal ∧
      ∃ spelling : Spelling, spelling.IsPlain decimal.plain.toList := by
  obtain ⟨spelling, isPlain, -⟩ := plain_spelling isNormal
  exact ⟨parse_plain isNormal short moderate, parse_scientific isNormal short moderate, spelling,
    isPlain⟩

/-- Zeros stand between the point and the digits. -/
theorem text_forms_round_trip_thousandths :
    IsNormal ⟨true, 15, -3⟩ ∧ precision ⟨true, 15, -3⟩ ≤ 38 ∧
      (leadingExponent ⟨true, 15, -3⟩).natAbs ≤ 1000 ∧
      parse "-0.015" = .ok ⟨true, 15, -3⟩ ∧ parse "-15e-3" = .ok ⟨true, 15, -3⟩ := by
  have isNormal : IsNormal ⟨true, 15, -3⟩ := Or.inr (show 15 % 10 ≠ 0 by decide)
  have short : precision ⟨true, 15, -3⟩ ≤ 38 := by decide +kernel
  have moderate : (leadingExponent ⟨true, 15, -3⟩).natAbs ≤ 1000 := by decide +kernel
  have plainText : plain ⟨true, 15, -3⟩ = "-0.015" := by decide +kernel
  have scientificText : scientific ⟨true, 15, -3⟩ = "-15e-3" := by decide +kernel
  obtain ⟨fromPlain, fromScientific, -⟩ := text_forms_round_trip isNormal short moderate
  rw [plainText] at fromPlain
  rw [scientificText] at fromScientific
  exact ⟨isNormal, short, moderate, fromPlain, fromScientific⟩

end LedgerWire.Decimal
