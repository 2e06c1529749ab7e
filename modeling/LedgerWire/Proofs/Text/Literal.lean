import LedgerWire.Proofs.Text.Integer

namespace LedgerWire.Text

open Positional

/-!
The grammar of integer literals: an optional sign, then one or more decimal digits. A literal is
read exactly when the grammar spells it and its number fits, and then as that number.
-/

/-- An optional sign, and whether it is a minus. -/
inductive SignSpelling : Bool → List Char → Prop where
  | none : SignSpelling false []
  | plus : SignSpelling false ['+']
  | minus : SignSpelling true ['-']

/-- Decimal digits, by their values. -/
inductive DigitSpelling : List Nat → List Char → Prop where
  | spelled (digits : List Nat) (small : ∀ digit ∈ digits, digit < 10) :
      DigitSpelling digits (digits.map Hex.digit)

/-- An integer literal, by its number. -/
inductive LiteralSpelling : Int → List Char → Prop where
  | literal {negative : Bool} {sign text : List Char} {digits : List Nat}
      (signed : SignSpelling negative sign) (some : digits ≠ [])
      (spelled : DigitSpelling digits text) :
      LiteralSpelling (if negative then -(value 10 digits : Int) else value 10 digits) (sign ++ text)

section Signs

variable {negative : Bool} {sign body : List Char}

/-- No sign begins the text. -/
def Unsigned (text : List Char) : Prop :=
  text.head? ≠ some '-' ∧ text.head? ≠ some '+'

/-- Whether a minus begins the text, and what is behind its sign. -/
def cutSign (text : List Char) : Bool × List Char :=
  match text with
  | '-' :: rest => (true, rest)
  | '+' :: rest => (false, rest)
  | other => (false, other)

theorem cutSign_append (signed : SignSpelling negative sign) (unsigned : Unsigned body) :
    cutSign (sign ++ body) = (negative, body) := by
  cases signed with
  | minus => rfl
  | plus => rfl
  | none =>
      rw [List.nil_append]
      unfold cutSign
      split
      · exact absurd rfl unsigned.1
      · exact absurd rfl unsigned.2
      · rfl

theorem exists_sign (text : List Char) :
    ∃ sign, SignSpelling (cutSign text).1 sign ∧ text = sign ++ (cutSign text).2 := by
  unfold cutSign
  split
  · exact ⟨['-'], .minus, rfl⟩
  · exact ⟨['+'], .plus, rfl⟩
  · exact ⟨[], .none, rfl⟩

end Signs

section Digits

variable {text rest : List Char} {character : Char} {digits : List Nat} {digit : Nat}

theorem digitValue?_eq_some : digitValue? 10 character = some digit ↔
    digit < 10 ∧ character = Hex.digit digit := by
  constructor
  · intro read
    obtain ⟨found, bound⟩ := Option.filter_eq_some_iff.mp read
    have small : digit < 10 := of_decide_eq_true bound
    refine ⟨small, ?_⟩
    split at found
    · rename_i decimal
      have least : 48 ≤ character.toNat := decimal.1
      have distance : character.toNat - 48 = digit := Option.some.inj found
      rw [Hex.digit, if_pos small, ← distance]
      change character = Char.ofNat (48 + (character.toNat - 48))
      rw [Nat.add_sub_cancel' least, Char.ofNat_toNat]
    · split at found
      · have letter := Option.some.inj found
        omega
      · split at found
        · have letter := Option.some.inj found
          omega
        · contradiction
  · rintro ⟨small, rfl⟩
    exact digitValue?_digit (by decide) small

theorem digitSpelling_nil : DigitSpelling digits [] ↔ digits = [] := by
  constructor
  · intro spelled
    generalize none : ([] : List Char) = text at spelled
    obtain ⟨_⟩ := spelled
    exact List.map_eq_nil_iff.mp none.symm
  · rintro rfl
    exact .spelled [] (by simp)

theorem digitSpelling_cons : DigitSpelling digits (character :: rest) ↔
    ∃ digit others, digits = digit :: others ∧ digitValue? 10 character = some digit ∧
      DigitSpelling others rest := by
  constructor
  · intro spelled
    generalize split : character :: rest = text at spelled
    obtain ⟨small⟩ := spelled
    cases digits with
    | nil => cases split
    | cons digit others =>
        obtain ⟨rfl, rfl⟩ := List.cons.inj split
        exact ⟨digit, others, rfl, digitValue?_eq_some.mpr ⟨small digit List.mem_cons_self, rfl⟩,
          .spelled others fun other member => small other (List.mem_cons_of_mem _ member)⟩
  · rintro ⟨digit, others, rfl, read, ⟨small⟩⟩
    obtain ⟨bound, rfl⟩ := digitValue?_eq_some.mp read
    refine .spelled (digit :: others) fun other member => ?_
    rcases List.mem_cons.mp member with rfl | later
    · exact bound
    · exact small other later

theorem DigitSpelling.small (spelled : DigitSpelling digits text) :
    ∀ digit ∈ digits, digit < 10 := by
  obtain ⟨small⟩ := spelled
  exact small

theorem DigitSpelling.eq_nil_iff (spelled : DigitSpelling digits text) :
    text = [] ↔ digits = [] := by
  obtain ⟨_⟩ := spelled
  exact List.map_eq_nil_iff

theorem DigitSpelling.length_eq (spelled : DigitSpelling digits text) :
    text.length = digits.length := by
  obtain ⟨_⟩ := spelled
  exact List.length_map Hex.digit

/-- No sign begins digits, whatever follows them. -/
theorem DigitSpelling.unsigned (spelled : DigitSpelling digits text) (some : digits ≠ [])
    (others : List Char) : Unsigned (text ++ others) := by
  obtain ⟨small⟩ := spelled
  obtain ⟨digit, rest, rfl⟩ := List.exists_cons_of_ne_nil some
  obtain ⟨notPlus, notMinus⟩ :=
    digit_ne_sign (Nat.lt_of_lt_of_le (small digit List.mem_cons_self) (by decide : 10 ≤ 16))
  exact ⟨by simpa using notMinus, by simpa using notPlus⟩

/-- Characters spell one list of digits. -/
theorem DigitSpelling.unique {others : List Nat} (first : DigitSpelling digits text)
    (second : DigitSpelling others text) : digits = others := by
  induction text generalizing digits others with
  | nil => rw [digitSpelling_nil.mp first, digitSpelling_nil.mp second]
  | cons character rest ih =>
      obtain ⟨digit, front, rfl, read, following⟩ := digitSpelling_cons.mp first
      obtain ⟨other, back, rfl, again, remaining⟩ := digitSpelling_cons.mp second
      rw [Option.some.inj (read.symm.trans again), ih following remaining]

theorem digitSpelling_append {others : List Char} : DigitSpelling digits (text ++ others) ↔
    ∃ front back, digits = front ++ back ∧ DigitSpelling front text ∧
      DigitSpelling back others := by
  constructor
  · intro spelled
    generalize joined : text ++ others = whole at spelled
    obtain ⟨small⟩ := spelled
    obtain ⟨front, back, rfl, rfl, rfl⟩ := List.map_eq_append_iff.mp joined.symm
    exact ⟨front, back, rfl,
      .spelled front fun digit member => small digit (List.mem_append_left _ member),
      .spelled back fun digit member => small digit (List.mem_append_right _ member)⟩
  · rintro ⟨front, back, rfl, ⟨frontSmall⟩, ⟨backSmall⟩⟩
    rw [← List.map_append]
    refine .spelled (front ++ back) fun digit member => ?_
    exact (List.mem_append.mp member).elim (frontSmall digit) (backSmall digit)

end Digits

section Numerals

variable {text : List Char} {number : Nat}

/-- What reading one more digit does. -/
def appendDigit (number? : Option Nat) (character : Char) : Option Nat := do
  let number ← number?
  let digit ← digitValue? 10 character
  pure (number * 10 + digit)

theorem foldl_appendDigit_none (text : List Char) : text.foldl appendDigit none = none := by
  induction text with
  | nil => rfl
  | cons _ _ ih => exact ih

theorem foldl_appendDigit (start : Nat) : text.foldl appendDigit (some start) = some number ↔
    ∃ digits, DigitSpelling digits text ∧
      digits.foldl (fun number digit => number * 10 + digit) start = number := by
  induction text generalizing start with
  | nil => simp [digitSpelling_nil]
  | cons character rest ih =>
      rw [List.foldl_cons]
      cases read : digitValue? 10 character with
      | none =>
          have stopped : appendDigit (some start) character = none := by simp [appendDigit, read]
          rw [stopped, foldl_appendDigit_none]
          refine iff_of_false (by simp) fun ⟨digits, spelled, _⟩ => ?_
          obtain ⟨digit, _, _, found, _⟩ := digitSpelling_cons.mp spelled
          rw [read] at found
          cases found
      | some digit =>
          have next : appendDigit (some start) character = some (start * 10 + digit) := by
            simp [appendDigit, read]
          rw [next, ih]
          constructor
          · rintro ⟨others, spelled, reached⟩
            exact ⟨digit :: others, digitSpelling_cons.mpr ⟨digit, others, rfl, read, spelled⟩,
              reached⟩
          · rintro ⟨digits, spelled, reached⟩
            obtain ⟨first, others, rfl, found, following⟩ := digitSpelling_cons.mp spelled
            obtain rfl := Option.some.inj (read.symm.trans found)
            exact ⟨others, following, reached⟩

theorem numeral?_eq_some : numeral? 10 text = some number ↔
    ∃ digits, digits ≠ [] ∧ DigitSpelling digits text ∧ value 10 digits = number := by
  have folded : numeral? 10 text = if text.isEmpty then none else text.foldl appendDigit (some 0) :=
    rfl
  rw [folded]
  by_cases none : text = []
  · subst none
    simpa using fun digits some spelled => absurd (spelled.eq_nil_iff.mp rfl) some
  · rw [if_neg (by simpa using none), foldl_appendDigit]
    constructor
    · rintro ⟨digits, spelled, reached⟩
      exact ⟨digits, mt spelled.eq_nil_iff.mpr none, spelled, reached⟩
    · rintro ⟨digits, _, spelled, reached⟩
      exact ⟨digits, spelled, reached⟩

end Numerals

section Literals

variable {bits : Nat} {text : List Char} {number other : Int}

theorem literalSpelling_iff : LiteralSpelling number text ↔
    ∃ digits, digits ≠ [] ∧ DigitSpelling digits (cutSign text).2 ∧
      (if (cutSign text).1 then -(value 10 digits : Int) else value 10 digits) = number := by
  constructor
  · rintro ⟨signed, some, spelled⟩
    have unsigned := spelled.unsigned some []
    rw [List.append_nil] at unsigned
    rw [cutSign_append signed unsigned]
    exact ⟨_, some, spelled, rfl⟩
  · rintro ⟨digits, some, spelled, rfl⟩
    obtain ⟨sign, signed, split⟩ := exists_sign text
    have literal := LiteralSpelling.literal signed some spelled
    rwa [← split] at literal

/-- Characters spell one integer. -/
theorem LiteralSpelling.unique (first : LiteralSpelling number text)
    (second : LiteralSpelling other text) : number = other := by
  obtain ⟨digits, _, spelled, rfl⟩ := literalSpelling_iff.mp first
  obtain ⟨others, _, again, rfl⟩ := literalSpelling_iff.mp second
  rw [spelled.unique again]

theorem signed?_cutSign : signed? bits text =
    ((numeral? 10 (cutSign text).2).map fun number : Nat =>
      if (cutSign text).1 then -(number : Int) else number).filter (fitsSigned bits) := by
  unfold signed?
  split
  · rename_i rest
    change _ = ((numeral? 10 rest).map fun number : Nat => -(number : Int)).filter _
    cases numeral? 10 rest <;> rfl
  · rfl
  · have plain : cutSign text = (false, text) := by simp [cutSign]
    rw [plain]
    rfl

/-- A literal is read exactly when it is one and its number fits. -/
theorem signed?_eq_some : signed? bits text = some number ↔
    LiteralSpelling number text ∧ fitsSigned bits number = true := by
  rw [signed?_cutSign, Option.filter_eq_some_iff, Option.map_eq_some_iff, literalSpelling_iff]
  simp only [numeral?_eq_some]
  refine and_congr_left fun _ => ⟨?_, ?_⟩
  · rintro ⟨_, ⟨digits, some, spelled, rfl⟩, rfl⟩
    exact ⟨digits, some, spelled, rfl⟩
  · rintro ⟨digits, some, spelled, rfl⟩
    exact ⟨_, ⟨digits, some, spelled, rfl⟩, rfl⟩

end Literals

end LedgerWire.Text
