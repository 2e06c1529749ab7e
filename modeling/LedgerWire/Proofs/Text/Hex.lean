import LedgerWire.Text.Hex

namespace LedgerWire.Text.Hex

/-!
Hexadecimal text read back: the digits of every byte string are read as that byte string.
-/

/-- The code of a digit's character. -/
def digitByte (value : Nat) : UInt8 :=
  UInt8.ofNat (digit value).toNat

private theorem utf8EncodeChar_digit : ∀ value < 16,
    String.utf8EncodeChar (digit value) = [digitByte value] := by
  decide

private theorem nibble?_digitByte : ∀ value < 16,
    nibble? (digitByte value) = some (UInt8.ofNat value) := by
  decide

private theorem byte_halves (byte : UInt8) :
    UInt8.ofNat (byte.toNat / 16) * 16 + UInt8.ofNat (byte.toNat % 16) = byte := by
  have small := byte.toNat_lt
  apply UInt8.toNat_inj.mp
  simp only [UInt8.toNat_add, UInt8.toNat_mul, UInt8.toNat_ofNat', UInt8.toNat_ofNat]
  omega

private theorem ofText_encode (bytes : Bytes) :
    Bytes.ofText (encode bytes) =
      bytes.flatMap fun byte => [digitByte (byte.toNat / 16), digitByte (byte.toNat % 16)] := by
  simp only [Bytes.ofText, encode]
  rw [String.toList_ofList]
  induction bytes with
  | nil => rfl
  | cons byte rest ih =>
      have small := byte.toNat_lt
      have high := utf8EncodeChar_digit (byte.toNat / 16) (by omega)
      have low := utf8EncodeChar_digit (byte.toNat % 16) (by omega)
      simp only [List.flatMap_cons, ih, byteDigits, high, low, List.cons_append, List.nil_append]

theorem length_ofText_encode (bytes : Bytes) :
    (Bytes.ofText (encode bytes)).length = bytes.length * 2 := by
  rw [ofText_encode]
  induction bytes with
  | nil => rfl
  | cons byte rest ih =>
      simp only [List.flatMap_cons, List.length_append, ih, List.length_cons, List.length_nil]
      omega

private theorem decodePairs_digits (bytes : Bytes) (position : Nat) (done : Bytes) :
    decodePairs position done (bytes.flatMap fun byte =>
        [digitByte (byte.toNat / 16), digitByte (byte.toNat % 16)]) =
      .ok (done.reverse ++ bytes) := by
  induction bytes generalizing position done with
  | nil => simp only [List.flatMap_nil, decodePairs, List.append_nil]
  | cons byte rest ih =>
      have small := byte.toNat_lt
      have high := nibble?_digitByte (byte.toNat / 16) (by omega)
      have low := nibble?_digitByte (byte.toNat % 16) (by omega)
      simp only [List.flatMap_cons, List.cons_append, List.nil_append, decodePairs, high, low,
        byte_halves, ih, List.reverse_cons, List.append_assoc]

theorem decode_encode (bytes : Bytes) : decode (encode bytes) = .ok bytes := by
  have even : ¬ (Bytes.ofText (encode bytes)).length % 2 = 1 := by
    rw [length_ofText_encode]
    omega
  simp only [decode]
  simp only [even, if_false]
  rw [ofText_encode, decodePairs_digits]
  rfl

/-- The digits are the library's, in upper case. -/
theorem encode_eq (bytes : Bytes) :
    encode bytes = String.ofList (bytes.flatMap fun byte =>
      [(byte.toNat / 16).digitChar.toUpper, (byte.toNat % 16).digitChar.toUpper]) := by
  have digits : ∀ value < 16, digit value = value.digitChar.toUpper := by decide
  have same : byteDigits = fun byte =>
      [(byte.toNat / 16).digitChar.toUpper, (byte.toNat % 16).digitChar.toUpper] := by
    funext byte
    have small := byte.toNat_lt
    rw [byteDigits, digits (byte.toNat / 16) (by omega), digits (byte.toNat % 16) (by omega)]
  rw [encode, same]

theorem mem_encode {bytes : Bytes} {character : Char} (member : character ∈ (encode bytes).toList) :
    ∃ value < 16, digit value = character := by
  rw [encode, String.toList_ofList] at member
  obtain ⟨byte, _, found⟩ := List.mem_flatMap.mp member
  have small := byte.toNat_lt
  rw [byteDigits, List.mem_cons, List.mem_singleton] at found
  rcases found with rfl | rfl
  · exact ⟨byte.toNat / 16, by omega, rfl⟩
  · exact ⟨byte.toNat % 16, by omega, rfl⟩

end LedgerWire.Text.Hex
