import LedgerWire.Proofs.Bytes
import LedgerWire.Proofs.Positional
import LedgerWire.Text.Hex
import LedgerWire.Text.Integer

namespace LedgerWire.Text

open Positional

/-!
Integer literals read back: a numeral denotes the value of its digits, so that a printed integer and
the sixteen hexadecimal digits of a word are read as the numbers that they were printed from.
-/

section Numerals

variable {base limit : Nat} {digits : List Nat}

theorem digitValue?_digit (narrow : base ≤ 16) {value : Nat} (small : value < base) :
    digitValue? base (Hex.digit value) = some value := by
  have all : ∀ base ≤ 16, ∀ value < base, digitValue? base (Hex.digit value) = some value := by
    decide
  exact all base narrow value small

theorem digit_ne_sign {value : Nat} (small : value < 16) :
    Hex.digit value ≠ '+' ∧ Hex.digit value ≠ '-' := by
  have all : ∀ value < 16, Hex.digit value ≠ '+' ∧ Hex.digit value ≠ '-' := by decide
  exact all value small

theorem numeral?_digits (narrow : base ≤ 16) (nonempty : digits ≠ [])
    (small : ∀ digit ∈ digits, digit < base) :
    numeral? base (digits.map Hex.digit) = some (value base digits) := by
  -- The fold is stated from any number on, which each step replaces by a longer one.
  have fold (start : Nat) : (digits.map Hex.digit).foldl (fun number? character => do
        let number ← number?
        let digit ← digitValue? base character
        pure (number * base + digit)) (some start) =
      some (digits.foldl (fun number digit => number * base + digit) start) := by
    clear nonempty
    induction digits generalizing start with
    | nil => rfl
    | cons digit rest ih =>
        have first := digitValue?_digit narrow (small digit List.mem_cons_self)
        simp only [List.map_cons, List.foldl_cons, first]
        exact ih (fun other member => small other (List.mem_cons_of_mem _ member)) _
  have some : (digits.map Hex.digit).isEmpty = false := by simpa using nonempty
  rw [numeral?, some, if_neg Bool.false_ne_true, fold]
  rfl

/-- An unsigned literal without a plus sign. -/
theorem unsigned?_digits (narrow : base ≤ 16) (nonempty : digits ≠ [])
    (small : ∀ digit ∈ digits, digit < base) (bound : value base digits < limit) :
    unsigned? base limit (digits.map Hex.digit) = some (value base digits) := by
  have numeral := numeral?_digits narrow nonempty small
  cases digits with
  | nil => exact absurd rfl nonempty
  | cons first rest =>
      have unsigned := (digit_ne_sign (Nat.lt_of_lt_of_le (small first List.mem_cons_self) narrow)).1
      rw [List.map_cons] at numeral ⊢
      rw [unsigned?, numeral, Option.filter_some, if_pos (decide_eq_true bound)]
      intro others same
      exact unsigned (List.cons.inj same).1

end Numerals

section Words

theorem value_bytes (bytes : Bytes) :
    value 16 (bytes.flatMap fun byte => [byte.toNat / 16, byte.toNat % 16]) = Bytes.toNat bytes := by
  induction bytes using List.reverseRecOn with
  | nil => rfl
  | append_singleton leading byte ih =>
      have split : leading.flatMap (fun byte => [byte.toNat / 16, byte.toNat % 16]) ++
          [byte.toNat / 16, byte.toNat % 16] =
            (leading.flatMap (fun byte => [byte.toNat / 16, byte.toNat % 16]) ++
              [byte.toNat / 16]) ++ [byte.toNat % 16] := by simp
      rw [List.flatMap_append, List.flatMap_singleton, split, value_append_singleton,
        value_append_singleton, ih, Bytes.toNat_append_singleton]
      omega

theorem toList_hexWord (number : Nat) :
    (hexWord number).toList =
      ((Bytes.bigEndian 8 number).flatMap fun byte => [byte.toNat / 16, byte.toNat % 16]).map
        Hex.digit := by
  rw [hexWord, Hex.encode, String.toList_ofList, List.map_flatMap]
  rfl

/-- The digits of a word are read as the word. -/
theorem unsigned?_hexWord {number : Nat} (bound : number < UInt64.size) :
    unsigned? 16 UInt64.size (hexWord number).toList = some number := by
  have word : Bytes.toNat (Bytes.bigEndian 8 number) = number := Bytes.toNat_bigEndian bound
  rw [← value_bytes] at word
  have small : ∀ digit ∈ (Bytes.bigEndian 8 number).flatMap fun byte =>
      [byte.toNat / 16, byte.toNat % 16], digit < 16 := by
    intro digit member
    obtain ⟨byte, _, half⟩ := List.mem_flatMap.mp member
    have width := byte.toNat_lt
    simp only [List.mem_cons, List.not_mem_nil, or_false] at half
    omega
  rw [toList_hexWord, unsigned?_digits (by decide) (by simp [Bytes.bigEndian]) small, word]
  rw [word]
  exact bound

end Words

section Decimals

/-- The library's decimal digits of a positive number. -/
theorem toDigits_eq {number : Nat} (positive : 0 < number) :
    Nat.toDigits 10 number = (Positional.digits 10 number).map Hex.digit := by
  have characters : ∀ value < 10, Nat.digitChar value = Hex.digit value := by decide
  induction number using Nat.strongRecOn with
  | ind number ih =>
      rw [Nat.toDigits_eq_if (by decide), digits_of_pos (by decide) positive]
      split
      · rename_i single
        rw [Nat.div_eq_of_lt single, digits_zero, Nat.mod_eq_of_lt single, characters number single]
        rfl
      · rw [ih (number / 10) (by omega) (by omega), characters _ (Nat.mod_lt _ (by decide))]
        simp

theorem numeral?_toDigits (number : Nat) : numeral? 10 (Nat.toDigits 10 number) = some number := by
  by_cases positive : 0 < number
  · rw [toDigits_eq positive, numeral?_digits (by decide) (digits_ne_nil (by decide) positive)
      (digits_lt (by decide) number), value_digits (by decide)]
  · have zero : number = 0 := by omega
    rw [zero]
    rfl

theorem toDigits_head (number : Nat) :
    ∃ first rest, Nat.toDigits 10 number = first :: rest ∧ first ≠ '+' ∧ first ≠ '-' := by
  by_cases positive : 0 < number
  · obtain ⟨first, rest, split⟩ :=
      List.exists_cons_of_ne_nil (digits_ne_nil (by decide : 2 ≤ 10) positive)
    have small : first < 10 := digits_lt (by decide) number first (split ▸ List.mem_cons_self)
    rw [toDigits_eq positive, split]
    exact ⟨_, _, rfl, digit_ne_sign (by omega)⟩
  · have zero : number = 0 := by omega
    rw [zero]
    exact ⟨'0', [], rfl, by decide, by decide⟩

/-- A printed integer is read as itself. -/
theorem signed?_toString {bits : Nat} {number : Int} (fits : fitsSigned bits number = true) :
    signed? bits (toString number).toList = some number := by
  rw [Int.toString_eq_repr, Int.repr_eq_if]
  by_cases nonnegative : 0 ≤ number
  · obtain ⟨first, rest, split, notPlus, notMinus⟩ := toDigits_head number.toNat
    have numeral := numeral?_toDigits number.toNat
    rw [if_pos nonnegative, Nat.toList_repr]
    rw [split] at numeral ⊢
    simp [signed?, numeral, fits, notPlus, notMinus, Int.max_eq_left nonnegative]
  · have numeral := numeral?_toDigits (-number).toNat
    have opposite : -max (-number) 0 = number := by omega
    rw [if_neg nonnegative, String.toList_append, Nat.toList_repr]
    change signed? bits ('-' :: Nat.toDigits 10 (-number).toNat) = some number
    simp [signed?, numeral, fits, opposite]

end Decimals

end LedgerWire.Text
