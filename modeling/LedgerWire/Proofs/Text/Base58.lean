import LedgerWire.Proofs.Positional
import LedgerWire.Text.Base58

namespace LedgerWire.Text.Base58

open Positional

/-!
Base-58 text read back. The leading zeros are carried over one for one, and the digits behind them
are the only ones of their value that no zero leads, so that rebasing there and back restores them.
A text is therefore decoded to the bytes that it encodes, and to no others.
-/

theorem leadingZeros_append (count : Nat) {digits : List Nat} (leads : digits.head? ≠ some 0) :
    leadingZeros (List.replicate count 0 ++ digits) = count := by
  induction count with
  | zero =>
      cases digits with
      | nil => rfl
      | cons first rest =>
          have nonzero : first ≠ 0 := by simpa using leads
          simp [leadingZeros, nonzero]
  | succ count ih =>
      simpa [leadingZeros, List.replicate_succ] using ih

/-- The zeros that lead a list of digits, and the digits behind them. -/
theorem exists_leading (digits : List Nat) :
    ∃ count rest, digits = List.replicate count 0 ++ rest ∧ rest.head? ≠ some 0 := by
  induction digits with
  | nil => exact ⟨0, [], rfl, nofun⟩
  | cons first rest ih =>
      by_cases zero : first = 0
      · obtain ⟨count, others, split, leads⟩ := ih
        refine ⟨count + 1, others, ?_, leads⟩
        rw [zero, split, List.replicate_succ, List.cons_append]
      · exact ⟨0, first :: rest, rfl, by simpa using zero⟩

theorem rebase_zeros (source target count : Nat) {digits : List Nat}
    (leads : digits.head? ≠ some 0) :
    rebase source target (List.replicate count 0 ++ digits) =
      List.replicate count 0 ++ Positional.digits target (value source digits) := by
  rw [rebase, leadingZeros_append count leads, value_zeros_append]

/-- Digits rewritten in another base and back. -/
theorem rebase_rebase {source target : Nat} (wideSource : 2 ≤ source) (wideTarget : 2 ≤ target)
    {digits : List Nat} (small : ∀ digit ∈ digits, digit < source) :
    rebase target source (rebase source target digits) = digits := by
  obtain ⟨count, rest, rfl, leads⟩ := exists_leading digits
  have smallRest : ∀ digit ∈ rest, digit < source := fun digit member =>
    small digit (List.mem_append_right _ member)
  rw [rebase_zeros source target count leads,
    rebase_zeros target source count (head?_digits wideTarget _), value_digits wideTarget,
    digits_value wideSource smallRest leads]

theorem rebase_lt {source target : Nat} (wide : 2 ≤ target) (digits : List Nat) :
    ∀ digit ∈ rebase source target digits, digit < target := by
  intro digit member
  rcases List.mem_append.mp member with zero | later
  · rw [List.eq_of_mem_replicate zero]
    omega
  · exact digits_lt wide _ digit later

theorem mapM_digitValue? {digits : List Nat} (small : ∀ digit ∈ digits, digit < 58) :
    (digits.map digit).mapM digitValue? = some digits := by
  have each : ∀ value < 58, digitValue? (digit value) = some value := by decide
  induction digits with
  | nil => rfl
  | cons first rest ih =>
      have others := ih fun digit member => small digit (List.mem_cons_of_mem _ member)
      simp [each first (small first List.mem_cons_self), others]

theorem decode?_encode (bytes : Bytes) : decode? (encode bytes) = some bytes := by
  have small : ∀ digit ∈ bytes.map UInt8.toNat, digit < 256 := by
    intro digit member
    obtain ⟨byte, _, rfl⟩ := List.mem_map.mp member
    exact byte.toNat_lt
  have restored := rebase_rebase (by decide : 2 ≤ 256) (by decide : 2 ≤ 58) small
  rw [decode?, encode, String.toList_ofList, mapM_digitValue? (rebase_lt (by decide) _),
    Option.map_some, restored, List.map_map]
  simp [Function.comp_def]

theorem digit_mem (value : Nat) : digit value ∈ alphabet := by
  rw [digit, List.getD_eq_getElem?_getD]
  cases found : alphabet[value]? with
  | none => decide
  | some character => exact List.mem_of_getElem? found

theorem mem_encode {bytes : Bytes} {character : Char} (member : character ∈ (encode bytes).toList) :
    character ∈ alphabet := by
  rw [encode, String.toList_ofList] at member
  obtain ⟨value, _, rfl⟩ := List.mem_map.mp member
  exact digit_mem value

theorem digit_of_digitValue? {character : Char} {value : Nat}
    (read : digitValue? character = some value) : value < 58 ∧ digit value = character := by
  obtain ⟨inside, same, _⟩ := List.findIdx?_eq_some_iff_getElem.mp read
  refine ⟨inside, ?_⟩
  rw [digit, List.getD_eq_getElem?_getD, List.getElem?_eq_getElem inside, Option.getD_some]
  exact eq_of_beq same

/-- Characters that are all digits are those of the values read from them. -/
theorem map_digit_of_mapM {characters : List Char} {digits : List Nat}
    (read : characters.mapM digitValue? = some digits) :
    (∀ digit ∈ digits, digit < 58) ∧ digits.map digit = characters := by
  induction characters generalizing digits with
  | nil =>
      cases read
      exact ⟨fun _ => nofun, rfl⟩
  | cons character rest ih =>
      cases first : digitValue? character with
      | none => simp [first] at read
      | some value =>
          cases others : rest.mapM digitValue? with
          | none => simp [first, others] at read
          | some values =>
              have whole : value :: values = digits := by simpa [first, others] using read
              subst digits
              obtain ⟨small, same⟩ := digit_of_digitValue? first
              obtain ⟨smallRest, sameRest⟩ := ih others
              exact ⟨List.forall_mem_cons.mpr ⟨small, smallRest⟩, by rw [List.map_cons, same, sameRest]⟩

theorem encode_of_decode? {text : String} {bytes : Bytes} (read : decode? text = some bytes) :
    encode bytes = text := by
  obtain ⟨digits, spelled, rfl⟩ := Option.map_eq_some_iff.mp read
  obtain ⟨small, same⟩ := map_digit_of_mapM spelled
  have kept : ((rebase 58 256 digits).map UInt8.ofNat).map UInt8.toNat = rebase 58 256 digits := by
    rw [List.map_map]
    refine (List.map_congr_left fun digit member => ?_).trans (List.map_id _)
    exact UInt8.toNat_ofNat_of_lt' (rebase_lt (by decide) digits digit member)
  rw [encode, kept, rebase_rebase (by decide) (by decide) small, same, String.ofList_toList]

/-- A text has one decoding at most, and each byte string one text. -/
theorem decode?_eq_some_iff {text : String} {bytes : Bytes} :
    decode? text = some bytes ↔ encode bytes = text := by
  constructor
  · exact encode_of_decode?
  · rintro rfl
    exact decode?_encode bytes

end LedgerWire.Text.Base58
