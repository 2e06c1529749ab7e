import LedgerWire.Proofs.Decimal.Grammar
import LedgerWire.Proofs.Success
import LedgerWire.Proofs.Text.Ascii

namespace LedgerWire.Decimal

open Positional Text

/-!
Decimal text is read exactly as its grammar says. The scan of digits holds the number read so far as
a mantissa and a count of trailing zeros, so that it ends with the significant digits, however many
zeros stand before, among and behind the digits and on whichever side of the point.
-/

section Scanning

/-- What the scan of digits holds of the number that it has read. -/
structure Scanned (number mantissa pending : Nat) : Prop where
  spelled : number = mantissa * weight 10 pending
  stripped : mantissa % 10 ≠ 0 ∨ mantissa = 0 ∧ pending = 0

variable {number mantissa pending : Nat}

theorem scanned_zero : Scanned 0 0 0 :=
  ⟨rfl, Or.inr ⟨rfl, rfl⟩⟩

theorem Scanned.isNormal (scanned : Scanned number mantissa pending) :
    IsNormal ⟨false, mantissa, pending⟩ := by
  rcases scanned.stripped with last | ⟨rfl, rfl⟩
  · exact Or.inr last
  · exact isNormal_zero

theorem Scanned.toRat_eq (scanned : Scanned number mantissa pending) :
    toRat ⟨false, mantissa, pending⟩ = number := by
  rw [scanned.spelled, Nat.cast_mul, cast_weight]
  rfl

/-- A number has one normal form, so that it is held in one way. -/
theorem Scanned.unique {other zeros : Nat} (first : Scanned number mantissa pending)
    (second : Scanned number other zeros) :
    mantissa = other ∧ pending = zeros := by
  have same := first.isNormal.eq_of_toRat_eq second.isNormal
    (first.toRat_eq.trans second.toRat_eq.symm)
  injection same with _ mantissas exponents
  exact ⟨mantissas, Int.ofNat.inj exponents⟩

/-- What one more digit does to the scan. -/
theorem Scanned.step {digit : Nat} (scanned : Scanned number mantissa pending) (small : digit < 10)
    (text : String) (rest : List Char) :
    ∃ longer zeros, Scanned (number * 10 + digit) longer zeros ∧ mantissa ≤ longer ∧
      (mantissa < weight 10 Limits.decimalPrecision →
        readDigits text mantissa pending (Hex.digit digit :: rest) =
          if longer < weight 10 Limits.decimalPrecision then readDigits text longer zeros rest
          else .error (.precision text .tooManyDigits)) := by
  have read := digitValue?_digit (by decide : 10 ≤ 16) small
  have spelled : number * 10 = mantissa * weight 10 (pending + 1) := by
    rw [scanned.spelled, weight_succ, Nat.mul_assoc]
  by_cases zero : digit = 0
  · subst zero
    by_cases empty : mantissa = 0
    · subst empty
      refine ⟨0, pending, ⟨?_, scanned.stripped⟩, Nat.le_refl _, fun fits => ?_⟩
      · rw [spelled, Nat.zero_mul, Nat.zero_mul]
      · simp [readDigits, read, fits]
    · refine ⟨mantissa, pending + 1, ⟨spelled, ?_⟩, Nat.le_refl _, fun fits => ?_⟩
      · exact Or.inl (scanned.stripped.resolve_right fun both => empty both.1)
      · simp [readDigits, read, empty, fits]
  · have grows := Nat.le_mul_of_pos_right mantissa (weight_pos (by decide : 0 < 10) (pending + 1))
    refine ⟨mantissa * weight 10 (pending + 1) + digit, 0, ⟨by simp [spelled], Or.inl ?_⟩, by omega,
      fun _ => by simp [readDigits, read]⟩
    rw [← spelled]
    omega

/-- What a run of digits does to the scan: it goes on until the mantissa has too many digits. -/
theorem Scanned.run {digits : List Nat} (small : ∀ digit ∈ digits, digit < 10) (text : String)
    (scanned : Scanned number mantissa pending) :
    ∃ longer zeros,
      Scanned (digits.foldl (fun number digit => number * 10 + digit) number) longer zeros ∧
        mantissa ≤ longer ∧
        (mantissa < weight 10 Limits.decimalPrecision →
          readDigits text mantissa pending (digits.map Hex.digit) =
            if longer < weight 10 Limits.decimalPrecision then .ok (longer, zeros)
            else .error (.precision text .tooManyDigits)) := by
  induction digits generalizing number mantissa pending with
  | nil => exact ⟨mantissa, pending, scanned, Nat.le_refl _, fun fits => (if_pos fits).symm⟩
  | cons digit others ih =>
      obtain ⟨longer, zeros, next, grows, first⟩ :=
        scanned.step (small digit List.mem_cons_self) text (others.map Hex.digit)
      obtain ⟨longest, allZeros, final, further, following⟩ :=
        ih (fun other member => small other (List.mem_cons_of_mem _ member)) next
      refine ⟨longest, allZeros, final, grows.trans further, fun fits => ?_⟩
      rw [List.map_cons, first fits]
      by_cases fitsNext : longer < weight 10 Limits.decimalPrecision
      · rw [if_pos fitsNext, following fitsNext]
      · rw [if_neg fitsNext, if_neg (by omega)]

/-- Only digits are read. -/
theorem spelled_of_readDigits {text : String} {characters : List Char} {scanned : Nat × Nat}
    (read : readDigits text mantissa pending characters = .ok scanned) :
    ∃ digits, DigitSpelling digits characters := by
  induction characters generalizing mantissa pending with
  | nil => exact ⟨[], digitSpelling_nil.mpr rfl⟩
  | cons character rest ih =>
      rw [readDigits] at read
      split at read
      · contradiction
      · rename_i zero
        obtain ⟨digits, spelled⟩ := ih read
        exact ⟨0 :: digits, digitSpelling_cons.mpr ⟨0, digits, rfl, zero, spelled⟩⟩
      · rename_i digit _ found
        dsimp only at read
        split at read
        · obtain ⟨digits, spelled⟩ := ih read
          exact ⟨digit :: digits, digitSpelling_cons.mpr ⟨digit, digits, rfl, found, spelled⟩⟩
        · contradiction

theorem readDigits_eq_ok {text : String} {characters : List Char} :
    readDigits text 0 0 characters = .ok (mantissa, pending) ↔
      ∃ digits, DigitSpelling digits characters ∧ Scanned (value 10 digits) mantissa pending ∧
        mantissa < weight 10 Limits.decimalPrecision := by
  constructor
  · intro read
    obtain ⟨digits, spelled⟩ := spelled_of_readDigits read
    refine ⟨digits, spelled, ?_⟩
    obtain ⟨small⟩ := spelled
    obtain ⟨longer, zeros, scanned, -, reading⟩ := scanned_zero.run small text
    rw [reading (by decide)] at read
    split at read
    · cases read
      exact ⟨scanned, ‹_›⟩
    · contradiction
  · rintro ⟨digits, ⟨small⟩, scanned, fits⟩
    obtain ⟨longer, zeros, final, -, reading⟩ := scanned_zero.run small text
    obtain ⟨rfl, rfl⟩ := final.unique scanned
    rw [reading (by decide), if_pos fits]

end Scanning

section Parts

variable {text : String} {negative : Bool} {whole fraction marked : List Char} {decimal : Decimal}
  {places mantissa pending : Nat} {exponent written : Int}

/-- The exponent that stands behind a mark; zero without a mark. -/
def written? (marked : List Char) : Option Int :=
  match marked with
  | [] => some 0
  | _ :: literal => signed? 32 literal

/-- The decimal of a scanned mantissa, while its exponents fit. -/
def assemble (text : String) (negative : Bool) (places mantissa pending : Nat) (written : Int) :
    Except ValueError Decimal :=
  let raised := written + pending
  let decimal := normal negative mantissa (raised - places)
  if inExponentRange places && inExponentRange raised && inExponentRange (raised - places) then
    if Limits.decimalExponent < decimal.leadingExponent.natAbs then
      .error (.precision text .decimalExponentRange)
    else .ok decimal
  else .error (.malformedAmount (.invalidDecimal text))

/-- Reads a text that was cut at its sign, its point and its exponent mark. -/
def readParts (text : String) (negative : Bool) (whole fraction marked : List Char) :
    Except ValueError Decimal :=
  if whole.isEmpty && fraction.isEmpty then .error (.malformedAmount (.invalidDecimal text))
  else readDigits text 0 0 (whole ++ fraction) >>= fun scanned =>
    match written? marked with
    | some written => assemble text negative fraction.length scanned.1 scanned.2 written
    | none => .error (.malformedAmount (.invalidDecimal text))

theorem parse_eq (text : String) : parse text = readParts text (cutSign text.toList).1
    (((cutSign text.toList).2.takeWhile (!isExponentMark ·)).takeWhile (· != '.'))
    ((((cutSign text.toList).2.takeWhile (!isExponentMark ·)).dropWhile (· != '.')).drop 1)
    ((cutSign text.toList).2.dropWhile (!isExponentMark ·)) := by
  unfold parse
  split
  rename_i negative body cut
  have sign : cutSign text.toList = (negative, body) := cut
  rw [sign, readParts]
  dsimp only
  split
  · rfl
  · refine congrArg (readDigits text 0 0 _ >>= ·) (funext fun scanned => ?_)
    cases body.dropWhile (!isExponentMark ·) with
    | nil => rfl
    | cons mark literal =>
        dsimp only [written?]
        cases signed? 32 literal <;> rfl

theorem readParts_eq_ok : readParts text negative whole fraction marked = .ok decimal ↔
    (whole ≠ [] ∨ fraction ≠ []) ∧
      ∃ mantissa pending written, readDigits text 0 0 (whole ++ fraction) = .ok (mantissa, pending) ∧
        written? marked = some written ∧
        assemble text negative fraction.length mantissa pending written = .ok decimal := by
  have none : (whole.isEmpty && fraction.isEmpty) = true ↔ ¬(whole ≠ [] ∨ fraction ≠ []) := by simp
  unfold readParts
  by_cases empty : (whole.isEmpty && fraction.isEmpty) = true
  · rw [if_pos empty]
    exact iff_of_false (by simp) fun accepted => none.mp empty accepted.1
  · rw [if_neg empty, bind_eq_ok]
    rw [none, not_not] at empty
    constructor
    · rintro ⟨⟨mantissa, pending⟩, scanned, read⟩
      dsimp only at read
      split at read
      · exact ⟨empty, mantissa, pending, _, scanned, ‹_›, read⟩
      · contradiction
    · rintro ⟨-, mantissa, pending, written, scanned, exponent, read⟩
      refine ⟨(mantissa, pending), scanned, ?_⟩
      rw [exponent]
      exact read

theorem inExponentRange_iff : inExponentRange exponent = true ↔ FitsWord exponent := by
  rw [inExponentRange, Bool.and_eq_true, decide_eq_true_iff, decide_eq_true_iff]
  rfl

theorem fitsSigned_iff : fitsSigned 32 exponent = true ↔ FitsWord exponent := by
  have width : weight 2 (32 - 1) = 2147483648 := by decide
  rw [fitsSigned, Bool.and_eq_true, decide_eq_true_iff, decide_eq_true_iff, width, FitsWord]
  omega

theorem written?_eq_some
    (marks : ∀ mark literal, marked = mark :: literal → isExponentMark mark = true) :
    written? marked = some exponent ↔ ExponentSpelling exponent marked ∧ FitsWord exponent := by
  cases marked with
  | nil =>
      constructor
      · intro none
        obtain rfl : 0 = exponent := Option.some.inj none
        exact ⟨.absent, by decide, by decide⟩
      · rintro ⟨⟨⟩, -⟩
        rfl
  | cons mark literal =>
      rw [written?, signed?_eq_some, fitsSigned_iff]
      refine and_congr_left fun _ => ⟨?_, ?_⟩
      · exact .marked (isExponentMark_iff.mp (marks mark literal rfl))
      · rintro ⟨⟩
        assumption

theorem assemble_eq_ok : assemble text negative places mantissa pending written = .ok decimal ↔
    (FitsWord places ∧ FitsWord (written + pending) ∧ FitsWord (written + pending - places)) ∧
      (normal negative mantissa (written + pending - places)).leadingExponent.natAbs ≤ 1000 ∧
      normal negative mantissa (written + pending - places) = decimal := by
  simp only [← inExponentRange_iff, ← Bool.and_eq_true]
  rw [← Bool.and_assoc]
  unfold assemble
  dsimp only
  split
  · rename_i fits
    split
    · rename_i wide
      exact iff_of_false (by simp) fun accepted => Nat.not_le.mpr wide accepted.2.1
    · rename_i narrow
      rw [Except.ok.injEq]
      exact ⟨fun same => ⟨fits, Nat.not_lt.mp narrow, same⟩, fun accepted => accepted.2.2⟩
  · rename_i unfit
    exact iff_of_false (by simp) fun accepted => unfit accepted.1

end Parts

namespace Spelling

variable {spelling : Spelling}

/-- The normal form of the number that a spelling denotes. -/
def decimal (spelling : Spelling) : Decimal :=
  normal spelling.negative (value 10 spelling.significant) spelling.lastExponent

theorem decimal_of_zero (none : spelling.significant = []) : spelling.decimal = zero := by
  rw [decimal, none]
  rfl

section Small

variable (small : ∀ digit ∈ spelling.whole ++ spelling.fraction, digit < 10)

include small

theorem scanned_significant :
    Scanned (value 10 (spelling.whole ++ spelling.fraction)) (value 10 spelling.significant)
      spelling.trailingZeros := by
  refine ⟨spelling.value_digits, ?_⟩
  by_cases none : spelling.significant = []
  · exact Or.inr ⟨by rw [none, value_nil], trailingZeros_of_zero none⟩
  · exact Or.inl (last_significant small none)

theorem decimal_of_significant (some : spelling.significant ≠ []) : spelling.decimal =
    ⟨spelling.negative, value 10 spelling.significant, spelling.lastExponent⟩ := by
  have last := last_significant small some
  rw [decimal, normal_of_pos (by omega), stripZeros_of_last last]

theorem toRat_decimal : spelling.decimal.toRat = spelling.number := by
  rw [number_eq]
  by_cases none : spelling.significant = []
  · rw [decimal_of_zero none, none, value_nil, Nat.cast_zero, zero_mul, toRat_zero, signed_zero]
  · rw [decimal_of_significant small none]
    rfl

/-- The leading digit of a number other than zero stands where its spelling has it. -/
theorem leadingExponent_decimal (some : spelling.significant ≠ []) :
    spelling.decimal.leadingExponent = clamp spelling.leadingExponent := by
  rw [decimal_of_significant small some, Decimal.leadingExponent, precision]
  dsimp only
  rw [decimalLength_significant small, lastExponent, leadingExponent, length_unpadded]
  congr 1
  omega

theorem leadingExponent_decimal_le : spelling.decimal.leadingExponent.natAbs ≤ 1000 ↔
    (spelling.significant ≠ [] → spelling.leadingExponent.natAbs ≤ 1000) := by
  by_cases none : spelling.significant = []
  · rw [decimal_of_zero none, Decimal.leadingExponent, precision_zero]
    exact iff_of_true (by decide) fun some => absurd none some
  · rw [leadingExponent_decimal small none, clamp, minimumExponent, maximumExponent]
    constructor
    · intro bound _
      omega
    · intro bound
      have inside := bound none
      omega

theorem precision_decimal : spelling.decimal.precision = spelling.significant.length := by
  by_cases none : spelling.significant = []
  · rw [decimal_of_zero none, precision_zero, none, List.length_nil]
  · rw [decimal_of_significant small none]
    exact decimalLength_significant small

/-- What is read of a spelling's significant digits. -/
theorem assembled_iff {text : String} {decimal : Decimal} :
    (FitsWord spelling.exponent ∧ value 10 spelling.significant < weight 10 Limits.decimalPrecision ∧
      assemble text spelling.negative spelling.fraction.length (value 10 spelling.significant)
        spelling.trailingZeros spelling.exponent = .ok decimal) ↔
      spelling.Admissible ∧ FitsWord spelling.fraction.length ∧ spelling.decimal = decimal := by
  rw [assemble_eq_ok, ← decimalLength_le_iff, decimalLength_significant small]
  change _ ∧ _ ∧ (_ ∧ _ ∧ FitsWord spelling.lastExponent) ∧
    spelling.decimal.leadingExponent.natAbs ≤ 1000 ∧ spelling.decimal = decimal ↔ _
  rw [leadingExponent_decimal_le small]
  constructor
  · rintro ⟨exponent, short, ⟨places, raised, lowered⟩, leading, made⟩
    exact ⟨⟨exponent, raised, lowered, short, leading⟩, places, made⟩
  · rintro ⟨⟨exponent, raised, lowered, short, leading⟩, places, made⟩
    exact ⟨exponent, short, ⟨places, raised, lowered⟩, leading, made⟩

end Small

end Spelling

section Reading

variable {text : String} {decimal : Decimal}

/-- A text is read when its grammar admits it, as its normal form. -/
theorem parse_eq_ok : parse text = .ok decimal ↔ ∃ spelling : Spelling,
    spelling.Spells text.toList ∧ spelling.Admissible ∧ FitsWord spelling.fraction.length ∧
      spelling.decimal = decimal := by
  have marks : ∀ mark literal, (cutSign text.toList).2.dropWhile (!isExponentMark ·) =
      mark :: literal → isExponentMark mark = true := by
    intro mark literal behind
    simpa using stops_of_dropWhile behind
  rw [parse_eq, readParts_eq_ok]
  constructor
  · rintro ⟨some, mantissa, pending, written, read, exponent, made⟩
    obtain ⟨digits, spelled, scanned, fits⟩ := readDigits_eq_ok.mp read
    obtain ⟨whole, fraction, rfl, front, back⟩ := digitSpelling_append.mp spelled
    obtain ⟨raised, word⟩ := (written?_eq_some marks).mp exponent
    let spelling : Spelling := ⟨(cutSign text.toList).1, whole, fraction, written⟩
    have spells : spelling.Spells text.toList :=
      Spelling.spells_iff.mpr ⟨rfl, numeralSpelling_iff.mpr
        ⟨some.imp (mt front.eq_nil_iff.mpr) (mt back.eq_nil_iff.mpr), front, back⟩, raised⟩
    obtain ⟨rfl, rfl⟩ := scanned.unique (Spelling.scanned_significant spells.digits_lt)
    rw [back.length_eq] at made
    exact ⟨spelling, spells, (Spelling.assembled_iff spells.digits_lt).mp ⟨word, fits, made⟩⟩
  · rintro ⟨spelling, spells, accepted⟩
    obtain ⟨word, fits, made⟩ :=
      (@Spelling.assembled_iff spelling spells.digits_lt text decimal).mpr accepted
    obtain ⟨negative, numeral, raised⟩ := Spelling.spells_iff.mp spells
    obtain ⟨some, front, back⟩ := numeralSpelling_iff.mp numeral
    refine ⟨some.imp (mt front.eq_nil_iff.mp) (mt back.eq_nil_iff.mp), _, _, _, readDigits_eq_ok.mpr
      ⟨_, digitSpelling_append.mpr ⟨_, _, rfl, front, back⟩,
        Spelling.scanned_significant spells.digits_lt, fits⟩,
      (written?_eq_some marks).mpr ⟨raised, word⟩, ?_⟩
    rwa [negative, back.length_eq]

/-- A decimal of a moderate size is read from every text that denotes it. -/
theorem parse_of_number {spelling : Spelling} (spells : spelling.Spells text.toList)
    (denoted : spelling.number = decimal.toRat) (isNormal : decimal.IsNormal)
    (short : decimal.precision ≤ 38) (moderate : decimal.leadingExponent.natAbs ≤ 1000)
    (bound : spelling.exponent.natAbs + (spelling.whole ++ spelling.fraction).length ≤ 2147483647) :
    parse text = .ok decimal := by
  have small := spells.digits_lt
  have made : spelling.decimal = decimal := (isNormal_normal _ _ _).eq_of_toRat_eq isNormal
    ((Spelling.toRat_decimal small).trans denoted)
  rw [← made] at short moderate
  rw [Spelling.precision_decimal small] at short
  rw [Spelling.leadingExponent_decimal_le small] at moderate
  have zeros : spelling.trailingZeros ≤ (spelling.whole ++ spelling.fraction).length := by
    have shorter : spelling.unpadded.length ≤ _ := List.length_dropWhile_le _ _
    have split := spelling.length_unpadded
    omega
  rw [List.length_append] at bound zeros
  refine parse_eq_ok.mpr ⟨spelling, spells, ⟨?_, ?_, ?_, short, moderate⟩, ?_, made⟩ <;>
    simp only [FitsWord, Spelling.lastExponent] <;> omega

/-- Text below two gigabytes is read exactly when it is in the grammar and its digits and exponents
are admitted, as the normal form of the number that it denotes. -/
theorem parse_follows_grammar (short : text.utf8ByteSize < 2147483648) :
    ((∃ decimal, parse text = .ok decimal) ↔
      ∃ spelling : Spelling, spelling.Spells text.toList ∧ spelling.Admissible) ∧
    ∀ decimal, parse text = .ok decimal → decimal.IsNormal ∧
      ∀ spelling : Spelling, spelling.Spells text.toList → decimal.toRat = spelling.number := by
  refine ⟨⟨?_, ?_⟩, fun decimal parsed => ⟨isNormal_parse parsed, fun spelling spells => ?_⟩⟩
  · rintro ⟨decimal, parsed⟩
    obtain ⟨spelling, spells, admissible, -⟩ := parse_eq_ok.mp parsed
    exact ⟨spelling, spells, admissible⟩
  · rintro ⟨spelling, spells, admissible⟩
    have places : FitsWord spelling.fraction.length := by
      have characters := spells.length_fraction_le.trans (length_toList_le text)
      constructor <;> omega
    exact ⟨_, parse_eq_ok.mpr ⟨spelling, spells, admissible, places, rfl⟩⟩
  · obtain ⟨read, readSpells, -, -, rfl⟩ := parse_eq_ok.mp parsed
    rw [spells.unique readSpells]
    exact Spelling.toRat_decimal readSpells.digits_lt

/-- Zeros that lead and trail, a fraction and an exponent. -/
theorem parse_follows_grammar_scientific :
    "-01.50e3".utf8ByteSize < 2147483648 ∧ parse "-01.50e3" = .ok ⟨true, 15, 2⟩ := by
  have short : "-01.50e3".utf8ByteSize < 2147483648 := by decide
  let spelling : Spelling := ⟨true, [0, 1], [5, 0], 3⟩
  have numeral : NumeralSpelling [0, 1] [5, 0] "01.50".toList :=
    .pointed (by decide) (.spelled [0, 1] (by decide)) (.spelled [5, 0] (by decide))
  have exponent : ExponentSpelling 3 "e3".toList :=
    .marked (Or.inl rfl) (.literal .none (by decide) (.spelled [3] (by decide)))
  have parts : "-01.50e3".toList = ['-'] ++ ("01.50".toList ++ "e3".toList) := by decide
  have spells : spelling.Spells "-01.50e3".toList := parts ▸ .spelled .minus numeral exponent
  have admissible : spelling.Admissible :=
    ⟨by decide, by decide, by decide, by decide, by decide⟩
  obtain ⟨accepted, exact⟩ := parse_follows_grammar short
  obtain ⟨decimal, parsed⟩ := accepted.mpr ⟨spelling, spells, admissible⟩
  obtain ⟨isNormal, number⟩ := exact decimal parsed
  have same : decimal = ⟨true, 15, 2⟩ := by
    apply isNormal.eq_of_toRat_eq (Or.inr (show 15 % 10 ≠ 0 by decide))
    rw [number spelling spells, Spelling.number]
    norm_num [spelling, value, toRat, magnitude, signed]
  exact ⟨short, same ▸ parsed⟩

end Reading

end LedgerWire.Decimal
