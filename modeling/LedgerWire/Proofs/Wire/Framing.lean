import LedgerWire.Proofs.Wire.Reading
import LedgerWire.Proofs.Wire.Writing
import LedgerWire.Wire.Framing

namespace LedgerWire.Framing

open Reader

/-!
Framing read back. The prefix of every length up to the maximum is read as that length, and the
header of every pair of codes from 1 to 255 as that pair.
-/

private theorem toNat_ofNat_small (number : Nat) (bound : number < 256) :
    (UInt8.ofNat number).toNat = number := by
  rw [UInt8.toNat_ofNat', Nat.mod_eq_of_lt bound]

private theorem reads_oneByteLength {length : Nat} (small : length ≤ 192) :
    Reads readLength [UInt8.ofNat length] length := by
  have value := toNat_ofNat_small length (by omega)
  refine Reads.cons ?_
  simp only [value, small, if_true]
  exact Reads.pure length

private theorem reads_twoByteLength {excess : Nat} (small : excess < 12288) :
    Reads readLength [UInt8.ofNat (193 + excess / 256), UInt8.ofNat (excess % 256)]
      (193 + excess) := by
  have first := toNat_ofNat_small (193 + excess / 256) (by omega)
  have second := toNat_ofNat_small (excess % 256) (by omega)
  have notOne : ¬ 193 + excess / 256 ≤ 192 := by omega
  have two : 193 + excess / 256 ≤ 240 := by omega
  refine Reads.cons ?_
  simp only [first, notOne, two, if_false, if_true]
  refine Reads.cons (Reads.answer ?_)
  simp only [second, Limits.oneByteLength]
  omega

private theorem reads_threeByteLength {excess : Nat} (bound : 12481 + excess ≤ 918744) :
    Reads readLength [UInt8.ofNat (241 + excess / 65536), UInt8.ofNat (excess / 256 % 256),
      UInt8.ofNat (excess % 256)] (12481 + excess) := by
  have first := toNat_ofNat_small (241 + excess / 65536) (by omega)
  have second := toNat_ofNat_small (excess / 256 % 256) (by omega)
  have third := toNat_ofNat_small (excess % 256) (by omega)
  have notOne : ¬ 241 + excess / 65536 ≤ 192 := by omega
  have notTwo : ¬ 241 + excess / 65536 ≤ 240 := by omega
  have three : 241 + excess / 65536 ≤ 254 := by omega
  have whole : Limits.twoByteLength + 1 + (241 + excess / 65536 - 241) * 65536 +
      excess / 256 % 256 * 256 + excess % 256 = 12481 + excess := by
    simp only [Limits.twoByteLength]
    omega
  refine Reads.cons ?_
  simp only [first, notOne, notTwo, three, if_false, if_true]
  refine Reads.cons (Reads.cons ?_)
  simp only [second, third, whole, Limits.maximumLength, bound, if_true]
  exact Reads.pure _

theorem lengthBytes_one {length : Nat} (small : length ≤ 192) :
    lengthBytes length = [UInt8.ofNat length] :=
  if_pos small

theorem lengthBytes_two {excess : Nat} (small : excess < 12288) :
    lengthBytes (193 + excess) =
      [UInt8.ofNat (193 + excess / 256), UInt8.ofNat (excess % 256)] := by
  have notOne : ¬ 193 + excess ≤ 192 := by omega
  have two : 193 + excess ≤ 12480 := by omega
  refine (if_neg notOne).trans ((if_pos two).trans ?_)
  change [UInt8.ofNat (193 + (193 + excess - 193) / 256),
    UInt8.ofNat ((193 + excess - 193) % 256)] = _
  rw [Nat.add_sub_cancel_left]

theorem lengthBytes_three (excess : Nat) :
    lengthBytes (12481 + excess) = [UInt8.ofNat (241 + excess / 65536),
      UInt8.ofNat (excess / 256 % 256), UInt8.ofNat (excess % 256)] := by
  have notOne : ¬ 12481 + excess ≤ 192 := by omega
  have notTwo : ¬ 12481 + excess ≤ 12480 := by omega
  refine (if_neg notOne).trans ((if_neg notTwo).trans ?_)
  change [UInt8.ofNat (241 + (12481 + excess - 12481) / 65536),
    UInt8.ofNat ((12481 + excess - 12481) / 256 % 256),
    UInt8.ofNat ((12481 + excess - 12481) % 256)] = _
  rw [Nat.add_sub_cancel_left]

theorem reads_length {length : Nat} (bound : length ≤ Limits.maximumLength) :
    Reads readLength (lengthBytes length) length := by
  simp only [Limits.maximumLength] at bound
  by_cases one : length ≤ 192
  · rw [lengthBytes_one one]
    exact reads_oneByteLength one
  · by_cases two : length ≤ 12480
    · obtain ⟨excess, rfl⟩ := Nat.exists_eq_add_of_le (show 193 ≤ length by omega)
      rw [lengthBytes_two (by omega)]
      exact reads_twoByteLength (by omega)
    · obtain ⟨excess, rfl⟩ := Nat.exists_eq_add_of_le (show 12481 ≤ length by omega)
      rw [lengthBytes_three]
      exact reads_threeByteLength bound

theorem reads_lengthPrefixed {bytes : Bytes} (context : String)
    (bound : bytes.length ≤ Limits.maximumLength) :
    Reads (readLengthPrefixed context) (lengthBytes bytes.length ++ bytes) bytes :=
  (reads_length bound).bind (Reads.bytes context bytes)

section Prefixes

variable {field : String} {bytes written : Bytes}

theorem lengthPrefix_eq_ok {length : Nat} :
    lengthPrefix field length = .ok written ↔
      length ≤ Limits.maximumLength ∧ written = lengthBytes length := by
  rw [lengthPrefix]
  split
  · rename_i bound
    rw [Output.ok_inj, and_iff_right bound, eq_comm]
  · rename_i long
    exact ⟨fun same => absurd same Output.fail_ne_ok, fun within => absurd within.1 long⟩

theorem lengthPrefix_of_le {length : Nat} (bound : length ≤ Limits.maximumLength) :
    lengthPrefix field length = .ok (lengthBytes length) :=
  if_pos bound

theorem reads_of_lengthPrefixed (context : String)
    (succeeded : lengthPrefixed field bytes = .ok written) :
    Reads (readLengthPrefixed context) written bytes := by
  obtain ⟨front, back, prefixed, rest, rfl⟩ := Output.append_eq_ok.mp succeeded
  obtain ⟨bound, rfl⟩ := lengthPrefix_eq_ok.mp prefixed
  rw [← Output.ok_inj.mp rest]
  exact reads_lengthPrefixed context bound

theorem lengthPrefixed_of_le (bound : bytes.length ≤ Limits.maximumLength) :
    lengthPrefixed field bytes = .ok (lengthBytes bytes.length ++ bytes) := by
  rw [lengthPrefixed, lengthPrefix_of_le bound]
  rfl

end Prefixes

/-- A code that fits one byte and is not zero. -/
def IsCode (code : UInt16) : Prop :=
  0 < code ∧ code < 256

instance (code : UInt16) : Decidable (IsCode code) :=
  inferInstanceAs (Decidable (0 < code ∧ code < 256))

private theorem toNat_isCode {code : UInt16} (isCode : IsCode code) :
    0 < code.toNat ∧ code.toNat < 256 :=
  ⟨UInt16.lt_iff_toNat_lt.mp isCode.1, UInt16.lt_iff_toNat_lt.mp isCode.2⟩

private theorem toNat_lowByte {code : UInt16} (isCode : IsCode code) :
    code.toUInt8.toNat = code.toNat := by
  rw [UInt16.toNat_toUInt8, Nat.mod_eq_of_lt (toNat_isCode isCode).2]

private theorem toUInt16_lowByte {code : UInt16} (isCode : IsCode code) :
    code.toUInt8.toUInt16 = code := by
  apply UInt16.toNat_inj.mp
  rw [UInt8.toNat_toUInt16, toNat_lowByte isCode]

theorem reads_extended {code : UInt16} (context : String) (cause : FramingCause)
    (isCode : IsCode code) (large : ¬ code < 16) :
    Reads (readExtended context cause) [code.toUInt8] code := by
  have wide : ¬ code.toUInt8 < 16 := by
    rw [UInt8.lt_iff_toNat_lt, toNat_lowByte isCode]
    exact fun small => large (UInt16.lt_iff_toNat_lt.mpr small)
  refine Reads.cons ?_
  simp only [wide, if_false]
  exact Reads.answer (toUInt16_lowByte isCode)

/-- The half of a header's first byte that stands for a code. -/
def half (code : UInt16) : Nat :=
  if code < 16 then code.toNat else 0

/-- The byte of a code that does not fit half a byte. -/
def extension (code : UInt16) : Bytes :=
  if code < 16 then [] else [code.toUInt8]

theorem reads_code {nibble : UInt8} {code : UInt16} (context : String) (cause : FramingCause)
    (isCode : IsCode code) (same : nibble.toNat = half code) :
    Reads (readCode nibble context cause) (extension code) code := by
  simp only [half] at same
  simp only [readCode, extension]
  by_cases small : code < 16
  · rw [if_pos small] at same ⊢
    have nonzero : nibble ≠ 0 := by
      intro zero
      have positive := (toNat_isCode isCode).1
      rw [← same, zero] at positive
      exact absurd positive (by decide)
    rw [if_neg nonzero]
    refine Reads.answer (UInt16.toNat_inj.mp ?_)
    rw [UInt8.toNat_toUInt16, same]
  · rw [if_neg small] at same ⊢
    rw [if_pos (UInt8.toNat_inj.mp same)]
    exact reads_extended context cause isCode small

theorem header_split {typeCode fieldCode : UInt16} (isType : IsCode typeCode)
    (isField : IsCode fieldCode) {first : UInt8} {more : Bytes}
    (split : header typeCode fieldCode = first :: more) :
    (first / 16).toNat = half typeCode ∧ (first % 16).toNat = half fieldCode ∧
      more = extension typeCode ++ extension fieldCode := by
  have typeByte := toNat_lowByte isType
  have fieldByte := toNat_lowByte isField
  have typeBounds := toNat_isCode isType
  have fieldBounds := toNat_isCode isField
  have typeSmall : typeCode < 16 ↔ typeCode.toNat < 16 := UInt16.lt_iff_toNat_lt
  have fieldSmall : fieldCode < 16 ↔ fieldCode.toNat < 16 := UInt16.lt_iff_toNat_lt
  have quotient (byte : UInt8) : (byte / 16).toNat = byte.toNat / 16 := UInt8.toNat_div byte 16
  have remainder (byte : UInt8) : (byte % 16).toNat = byte.toNat % 16 := UInt8.toNat_mod byte 16
  have scaled (byte : UInt8) : (byte * 16).toNat = byte.toNat * 16 % 256 :=
    UInt8.toNat_mul byte 16
  have sum (left right : UInt8) : (left + right).toNat = (left.toNat + right.toNat) % 256 :=
    UInt8.toNat_add left right
  have zero : (0 : UInt8).toNat = 0 := rfl
  simp only [header] at split
  simp only [half, extension, quotient, remainder]
  by_cases smallType : typeCode < 16 <;> by_cases smallField : fieldCode < 16
  all_goals
    simp only [smallType, smallField, if_true, if_false, List.cons.injEq] at split ⊢
    rw [typeSmall] at smallType
    rw [fieldSmall] at smallField
    obtain ⟨rfl, rfl⟩ := split
    refine ⟨?_, ?_, rfl⟩ <;> simp only [sum, scaled, typeByte, fieldByte, zero] <;> omega

theorem header_ne_nil (typeCode fieldCode : UInt16) : header typeCode fieldCode ≠ [] := by
  simp only [header]
  split <;> split <;> exact List.cons_ne_nil _ _

theorem reads_headerFrom {typeCode fieldCode : UInt16} (isType : IsCode typeCode)
    (isField : IsCode fieldCode) {first : UInt8} {more : Bytes}
    (split : header typeCode fieldCode = first :: more) :
    Reads (readHeaderFrom first) more (typeCode, fieldCode) := by
  obtain ⟨high, low, rfl⟩ := header_split isType isField split
  exact (reads_code _ _ isType high).bind ((reads_code _ _ isField low).map (Reads.pure _))

theorem reads_header {typeCode fieldCode : UInt16} (isType : IsCode typeCode)
    (isField : IsCode fieldCode) :
    Reads readHeader (header typeCode fieldCode) (typeCode, fieldCode) := by
  obtain ⟨first, more, split⟩ := List.exists_cons_of_ne_nil (header_ne_nil typeCode fieldCode)
  rw [split]
  exact Reads.cons (reads_headerFrom isType isField split)

end LedgerWire.Framing
