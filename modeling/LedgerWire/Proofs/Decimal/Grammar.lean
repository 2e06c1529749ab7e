import LedgerWire.Proofs.Decimal.Number
import LedgerWire.Proofs.Text.Literal
import Mathlib.Data.List.DropRight

namespace LedgerWire.Decimal

open Positional Text

/-!
The grammar of decimal text, and the number that a text of the grammar denotes. A text has at most
one spelling, and its number is that of its significant digits, those from the first to the last that
is not zero, at the place of the last one.
-/

/-- Digits with at most one point, by those before it and those behind it; one digit at least. -/
inductive NumeralSpelling : List Nat → List Nat → List Char → Prop where
  | whole {whole : List Nat} {text : List Char} (some : whole ≠ [])
      (spelled : DigitSpelling whole text) : NumeralSpelling whole [] text
  | pointed {whole fraction : List Nat} {before behind : List Char}
      (some : whole ≠ [] ∨ fraction ≠ []) (front : DigitSpelling whole before)
      (back : DigitSpelling fraction behind) :
      NumeralSpelling whole fraction (before ++ '.' :: behind)

/-- An exponent behind its mark, or none. -/
inductive ExponentSpelling : Int → List Char → Prop where
  | absent : ExponentSpelling 0 []
  | marked {mark : Char} {exponent : Int} {literal : List Char} (marks : mark = 'e' ∨ mark = 'E')
      (spelled : LiteralSpelling exponent literal) : ExponentSpelling exponent (mark :: literal)

/-- The parts of decimal text. -/
structure Spelling where
  negative : Bool
  whole : List Nat
  fraction : List Nat
  exponent : Int

namespace Spelling

/-- The text that a spelling is of: an optional sign, a numeral and an optional exponent. -/
inductive Spells (spelling : Spelling) : List Char → Prop where
  | spelled {sign numeral marked : List Char} (signed : SignSpelling spelling.negative sign)
      (digits : NumeralSpelling spelling.whole spelling.fraction numeral)
      (raised : ExponentSpelling spelling.exponent marked) :
      spelling.Spells (sign ++ (numeral ++ marked))

/-- The number that a spelling denotes. -/
def number (spelling : Spelling) : ℚ :=
  signed spelling.negative
    ((value 10 spelling.whole + value 10 spelling.fraction / 10 ^ spelling.fraction.length) *
      10 ^ spelling.exponent)

/-- The digits without the zeros that lead them. -/
def unpadded (spelling : Spelling) : List Nat :=
  (spelling.whole ++ spelling.fraction).dropWhile (· == 0)

/-- The digits from the first to the last that is not zero. -/
def significant (spelling : Spelling) : List Nat :=
  spelling.unpadded.rdropWhile (· == 0)

/-- How many zeros follow the last digit that is not zero; none when all digits are zero. -/
def trailingZeros (spelling : Spelling) : Nat :=
  (spelling.unpadded.rtakeWhile (· == 0)).length

/-- The exponent of the last significant digit. -/
def lastExponent (spelling : Spelling) : Int :=
  spelling.exponent + spelling.trailingZeros - spelling.fraction.length

/-- The exponent of the first significant digit. -/
def leadingExponent (spelling : Spelling) : Int :=
  spelling.exponent - spelling.fraction.length + spelling.unpadded.length - 1

end Spelling

/-- An exponent that fits a signed word of 32 bits. -/
def FitsWord (exponent : Int) : Prop :=
  -2147483648 ≤ exponent ∧ exponent ≤ 2147483647

instance (exponent : Int) : Decidable (FitsWord exponent) :=
  inferInstanceAs (Decidable (_ ∧ _))

/-- What the parts of a text must satisfy for its number to be read. -/
structure Spelling.Admissible (spelling : Spelling) : Prop where
  exponent : FitsWord spelling.exponent
  -- The trailing zeros are added before the places of the fraction are taken off.
  raised : FitsWord (spelling.exponent + spelling.trailingZeros)
  lowered : FitsWord spelling.lastExponent
  short : spelling.significant.length ≤ 38
  leading : spelling.significant ≠ [] → spelling.leadingExponent.natAbs ≤ 1000

theorem stops_of_dropWhile {α : Type} {passes : α → Bool} {items rest : List α} {first : α}
    (behind : items.dropWhile passes = first :: rest) : passes first = false := by
  have stops := List.head?_dropWhile_not passes items
  rwa [behind] at stops

section Numerals

variable {whole fraction : List Nat} {text : List Char}

theorem digit_plain {digit : Nat} (small : digit < 10) :
    Hex.digit digit ≠ '.' ∧ isExponentMark (Hex.digit digit) = false := by
  have all : ∀ digit < 10, Hex.digit digit ≠ '.' ∧ isExponentMark (Hex.digit digit) = false := by
    decide
  exact all digit small

theorem plain_of_spelled {digits : List Nat} (spelled : DigitSpelling digits text) :
    ∀ character ∈ text, character ≠ '.' ∧ isExponentMark character = false := by
  obtain ⟨small⟩ := spelled
  intro character member
  obtain ⟨digit, found, rfl⟩ := List.mem_map.mp member
  exact digit_plain (small digit found)

theorem pointless_of_spelled {digits : List Nat} (spelled : DigitSpelling digits text) :
    ∀ character ∈ text, (character != '.') = true := fun character member =>
  bne_iff_ne.mpr (plain_of_spelled spelled character member).1

/-- A numeral is cut at its first point. -/
theorem numeralSpelling_iff : NumeralSpelling whole fraction text ↔
    (whole ≠ [] ∨ fraction ≠ []) ∧ DigitSpelling whole (text.takeWhile (· != '.')) ∧
      DigitSpelling fraction ((text.dropWhile (· != '.')).drop 1) := by
  constructor
  · rintro (⟨some, spelled⟩ | ⟨some, front, back⟩)
    · have pointless := pointless_of_spelled spelled
      rw [List.takeWhile_eq_self_iff.mpr pointless, List.dropWhile_eq_nil_iff.mpr pointless]
      exact ⟨Or.inl some, spelled, digitSpelling_nil.mpr rfl⟩
    · have pointless := pointless_of_spelled front
      rw [List.takeWhile_append_of_pos pointless, List.dropWhile_append_of_pos pointless]
      simpa using ⟨some, front, back⟩
  · rintro ⟨some, front, back⟩
    have parts : text.takeWhile (· != '.') ++ text.dropWhile (· != '.') = text :=
      List.takeWhile_append_dropWhile
    cases behind : text.dropWhile (· != '.') with
    | nil =>
        rw [behind] at back parts
        obtain rfl := digitSpelling_nil.mp back
        rw [List.append_nil] at parts
        rw [parts] at front
        exact .whole (some.resolve_right (absurd rfl)) front
    | cons point digits =>
        have isPoint : point = '.' := by simpa using stops_of_dropWhile behind
        rw [behind] at back parts
        rw [← parts, isPoint]
        exact .pointed some front back

theorem NumeralSpelling.markless (spelled : NumeralSpelling whole fraction text) :
    ∀ character ∈ text, isExponentMark character = false := by
  intro character member
  cases spelled with
  | whole _ digits => exact (plain_of_spelled digits character member).2
  | pointed _ front back =>
      rcases List.mem_append.mp member with before | after
      · exact (plain_of_spelled front character before).2
      · rcases List.mem_cons.mp after with rfl | behind
        · rfl
        · exact (plain_of_spelled back character behind).2

theorem NumeralSpelling.unsigned (spelled : NumeralSpelling whole fraction text)
    (others : List Char) : Unsigned (text ++ others) := by
  cases spelled with
  | whole some digits => exact digits.unsigned some others
  | pointed _ front back =>
      rw [List.append_assoc]
      by_cases none : whole = []
      · subst none
        obtain ⟨_⟩ := front
        exact ⟨by simp, by simp⟩
      · exact front.unsigned none _

end Numerals

section Exponents

variable {exponent : Int} {text : List Char}

theorem isExponentMark_iff {character : Char} :
    isExponentMark character = true ↔ character = 'e' ∨ character = 'E' := by
  simp [isExponentMark]

theorem ExponentSpelling.unique {other : Int} (first : ExponentSpelling exponent text)
    (second : ExponentSpelling other text) : exponent = other := by
  cases first with
  | absent => cases second; rfl
  | marked _ spelled =>
      cases second with
      | marked _ again => exact spelled.unique again

/-- An exponent is cut off at its mark. -/
theorem ExponentSpelling.cut {numeral : List Char} (spelled : ExponentSpelling exponent text)
    (markless : ∀ character ∈ numeral, isExponentMark character = false) :
    (numeral ++ text).takeWhile (!isExponentMark ·) = numeral ∧
      (numeral ++ text).dropWhile (!isExponentMark ·) = text := by
  have passed : ∀ character ∈ numeral, (!isExponentMark character) = true := by
    simpa using markless
  rw [List.takeWhile_append_of_pos passed, List.dropWhile_append_of_pos passed]
  cases spelled with
  | absent => simp
  | marked marks _ => simp [isExponentMark_iff.mpr marks]

end Exponents

section Spellings

variable {spelling : Spelling} {text : List Char}

/-- A text is cut at its sign and at its exponent mark. -/
theorem Spelling.spells_iff : spelling.Spells text ↔
    (cutSign text).1 = spelling.negative ∧
      NumeralSpelling spelling.whole spelling.fraction
        ((cutSign text).2.takeWhile (!isExponentMark ·)) ∧
      ExponentSpelling spelling.exponent ((cutSign text).2.dropWhile (!isExponentMark ·)) := by
  constructor
  · rintro ⟨signed, digits, raised⟩
    obtain ⟨before, behind⟩ := raised.cut digits.markless
    rw [cutSign_append signed (digits.unsigned _), before, behind]
    exact ⟨rfl, digits, raised⟩
  · rintro ⟨negative, digits, raised⟩
    obtain ⟨sign, signed, split⟩ := exists_sign text
    rw [negative] at signed
    have spells := Spells.spelled signed digits raised
    rwa [List.takeWhile_append_dropWhile, ← split] at spells

theorem Spelling.Spells.unique {other : Spelling} (first : spelling.Spells text)
    (second : other.Spells text) : spelling = other := by
  obtain ⟨negative, digits, raised⟩ := spells_iff.mp first
  obtain ⟨otherNegative, otherDigits, otherRaised⟩ := spells_iff.mp second
  obtain ⟨-, front, back⟩ := numeralSpelling_iff.mp digits
  obtain ⟨-, otherFront, otherBack⟩ := numeralSpelling_iff.mp otherDigits
  have exponent := raised.unique otherRaised
  have whole := front.unique otherFront
  have fraction := back.unique otherBack
  have sign := negative.symm.trans otherNegative
  cases spelling
  cases other
  congr

theorem Spelling.Spells.digits_lt (spells : spelling.Spells text) :
    ∀ digit ∈ spelling.whole ++ spelling.fraction, digit < 10 := by
  obtain ⟨-, digits, -⟩ := spells_iff.mp spells
  obtain ⟨-, front, back⟩ := numeralSpelling_iff.mp digits
  exact (digitSpelling_append.mpr ⟨_, _, rfl, front, back⟩).small

theorem Spelling.Spells.length_fraction_le (spells : spelling.Spells text) :
    spelling.fraction.length ≤ text.length := by
  obtain ⟨-, digits, -⟩ := spells
  rw [List.length_append, List.length_append]
  generalize spelling.fraction = fraction at digits
  cases digits with
  | whole => exact Nat.zero_le _
  | pointed _ _ back =>
      rw [List.length_append, List.length_cons, back.length_eq]
      omega

end Spellings

section SignificantDigits

variable {digits : List Nat}

theorem value_dropWhile_zero (digits : List Nat) :
    value 10 (digits.dropWhile (· == 0)) = value 10 digits := by
  induction digits with
  | nil => rfl
  | cons digit rest ih =>
      by_cases zero : digit = 0
      · subst zero
        rw [List.dropWhile_cons_of_pos rfl, ih]
        exact (value_zeros_append 10 1 rest).symm
      · rw [List.dropWhile_cons_of_neg (by simpa using zero)]

theorem head?_dropWhile_zero (digits : List Nat) : (digits.dropWhile (· == 0)).head? ≠ some 0 := by
  intro zero
  obtain ⟨rest, split⟩ := List.head?_eq_some_iff.mp zero
  have stops := stops_of_dropWhile split
  contradiction

theorem head?_rdropWhile_zero (leads : digits.head? ≠ some 0) :
    (digits.rdropWhile (· == 0)).head? ≠ some 0 := by
  intro zero
  obtain ⟨others, split⟩ := List.rdropWhile_prefix (· == 0) digits
  rw [← split, List.head?_append, zero] at leads
  exact leads rfl

theorem eq_nil_of_rdropWhile_zero (leads : digits.head? ≠ some 0)
    (none : digits.rdropWhile (· == 0) = []) : digits = [] := by
  have zeros := List.rdropWhile_eq_nil_iff.mp none
  cases digits with
  | nil => rfl
  | cons first rest =>
      have zero : first = 0 := by simpa using zeros first List.mem_cons_self
      exact absurd (congrArg some zero) leads

/-- Trailing zeros scale the digits before them. -/
theorem value_rdropWhile_zero (digits : List Nat) :
    value 10 digits = value 10 (digits.rdropWhile (· == 0)) *
      weight 10 (digits.rtakeWhile (· == 0)).length := by
  have zeros : digits.rtakeWhile (· == 0) =
      List.replicate (digits.rtakeWhile (· == 0)).length 0 := by
    rw [List.eq_replicate_iff]
    exact ⟨rfl, fun digit member => by simpa using List.mem_rtakeWhile_imp member⟩
  have none := value_zeros 10 (digits.rtakeWhile (· == 0)).length
  rw [← zeros] at none
  have split := value_append 10 (digits.rdropWhile (· == 0)) (digits.rtakeWhile (· == 0))
  rwa [List.rdropWhile_append_rtakeWhile, none, Nat.add_zero] at split

theorem value_rdropWhile_zero_mod (small : ∀ digit ∈ digits, digit < 10)
    (some : digits.rdropWhile (· == 0) ≠ []) :
    value 10 (digits.rdropWhile (· == 0)) % 10 ≠ 0 := by
  have last := List.rdropWhile_last_not (· == 0) digits some
  have bound := small _ ((List.rdropWhile_prefix _ _).subset (List.getLast_mem some))
  rw [← List.dropLast_append_getLast some, value_append_singleton]
  have nonzero : (digits.rdropWhile (· == 0)).getLast some ≠ 0 := by simpa using last
  omega

end SignificantDigits

namespace Spelling

variable {spelling : Spelling}

theorem length_unpadded (spelling : Spelling) :
    spelling.unpadded.length = spelling.significant.length + spelling.trailingZeros := by
  rw [significant, trailingZeros, ← List.length_append, List.rdropWhile_append_rtakeWhile]

theorem value_digits (spelling : Spelling) :
    value 10 (spelling.whole ++ spelling.fraction) =
      value 10 spelling.significant * weight 10 spelling.trailingZeros := by
  rw [← value_dropWhile_zero]
  exact value_rdropWhile_zero spelling.unpadded

theorem trailingZeros_of_zero (none : spelling.significant = []) : spelling.trailingZeros = 0 := by
  have empty := eq_nil_of_rdropWhile_zero (head?_dropWhile_zero _) none
  rw [trailingZeros, unpadded, empty]
  rfl

theorem number_eq_digits (spelling : Spelling) : spelling.number = signed spelling.negative
    (value 10 (spelling.whole ++ spelling.fraction) *
      10 ^ (spelling.exponent - spelling.fraction.length)) := by
  have behind : (10 : ℚ) ^ (spelling.exponent - spelling.fraction.length) =
      10 ^ spelling.exponent / 10 ^ spelling.fraction.length := by
    rw [zpow_sub₀ (by norm_num), zpow_natCast]
  rw [number, value_append, Nat.cast_add, Nat.cast_mul, cast_weight, behind, zpow_natCast]
  congr 1
  field_simp

/-- The number is that of the significant digits, at the place of the last one. -/
theorem number_eq (spelling : Spelling) : spelling.number =
    signed spelling.negative (value 10 spelling.significant * 10 ^ spelling.lastExponent) := by
  rw [number_eq_digits, value_digits, scaled_mul_ten_zpow, lastExponent, sub_add_eq_add_sub]

section Small

variable (small : ∀ digit ∈ spelling.whole ++ spelling.fraction, digit < 10)

include small

theorem unpadded_lt : ∀ digit ∈ spelling.unpadded, digit < 10 := fun digit member =>
  small digit ((List.dropWhile_suffix _).subset member)

theorem last_significant (some : spelling.significant ≠ []) :
    value 10 spelling.significant % 10 ≠ 0 :=
  value_rdropWhile_zero_mod (unpadded_lt small) some

theorem decimalLength_significant :
    decimalLength (value 10 spelling.significant) = spelling.significant.length := by
  rw [← length_digits, digits_value (by decide)]
  · intro digit member
    exact unpadded_lt small digit ((List.rdropWhile_prefix _ _).subset member)
  · exact head?_rdropWhile_zero (head?_dropWhile_zero _)

end Small

end Spelling

end LedgerWire.Decimal
