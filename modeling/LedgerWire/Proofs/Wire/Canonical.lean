import LedgerWire.Proofs.Field.Registry
import LedgerWire.Proofs.Wire.Taking

namespace LedgerWire

open Reader

/-!
Framing is canonical: a length that was read took the very prefix that is written for it, and a
header that was read is the one that is written for its codes. So no length and no field has two
wire forms.
-/

namespace Framing

private theorem ofNat_eq_byte {number : Nat} (byte : UInt8) (same : number = byte.toNat) :
    UInt8.ofNat number = byte := by
  rw [same, UInt8.ofNat_toNat]

private theorem lengthBytes_of_two {first second : UInt8} (low : 192 < first.toNat)
    (high : first.toNat ≤ 240) :
    lengthBytes (193 + (first.toNat - 193) * 256 + second.toNat) = [first, second] := by
  have small := second.toNat_lt
  rw [Nat.add_assoc, lengthBytes_two (by omega), ofNat_eq_byte first (by omega),
    ofNat_eq_byte second (by omega)]

private theorem lengthBytes_of_three {first second third : UInt8} (low : 240 < first.toNat) :
    lengthBytes (12481 + (first.toNat - 241) * 65536 + second.toNat * 256 + third.toNat) =
      [first, second, third] := by
  have secondSmall := second.toNat_lt
  have thirdSmall := third.toNat_lt
  rw [Nat.add_assoc, Nat.add_assoc, lengthBytes_three, ofNat_eq_byte first (by omega),
    ofNat_eq_byte second (by omega), ofNat_eq_byte third (by omega)]

theorem yields_length :
    Yields readLength fun taken length =>
      taken = lengthBytes length ∧ length ≤ Limits.maximumLength := by
  refine (Yields.byte _).bind ?_
  rintro _ first rfl
  dsimp only
  split
  · rename_i one
    refine Yields.pure ⟨?_, Nat.le_trans one (by decide)⟩
    rw [lengthBytes_one one, UInt8.ofNat_toNat]
    rfl
  · rename_i notOne
    split
    · rename_i two
      refine (Yields.byte _).map ?_
      rintro _ second rfl
      have small := second.toNat_lt
      refine ⟨(lengthBytes_of_two (by omega) two).symm, ?_⟩
      simp only [Limits.oneByteLength, Limits.maximumLength]
      omega
    · rename_i notTwo
      split
      · refine (Yields.byte _).bind ?_
        rintro _ second rfl
        refine (Yields.byte _).bind ?_
        rintro _ third rfl
        split
        · rename_i bounded
          exact Yields.pure ⟨(lengthBytes_of_three (by omega)).symm, bounded⟩
        · exact Yields.fail _
      · exact Yields.fail _

theorem yields_lengthPrefixed (context : String) :
    Yields (readLengthPrefixed context) fun taken bytes =>
      taken = lengthBytes bytes.length ++ bytes ∧ bytes.length ≤ Limits.maximumLength := by
  refine yields_length.bind ?_
  rintro front length ⟨rfl, bound⟩
  refine (Yields.bytes length context).mono ?_
  rintro back bytes ⟨rfl, rfl⟩
  exact ⟨rfl, bound⟩

/-- A code is read from its half of the first byte, or from a byte of its own. -/
theorem yields_code {nibble : UInt8} (context : String) (cause : FramingCause)
    (small : nibble < 16) :
    Yields (readCode nibble context cause) fun taken code =>
      taken = extension code ∧ nibble.toNat = half code ∧ IsCode code := by
  have widen (byte : UInt8) : byte.toUInt16.toNat = byte.toNat := UInt8.toNat_toUInt16 byte
  rw [readCode]
  split
  · rename_i none
    refine (Yields.byte _).bind ?_
    rintro _ byte rfl
    split
    · exact Yields.fail _
    · rename_i large
      rw [UInt8.lt_iff_toNat_lt] at large
      have wide : ¬ byte.toUInt16 < 16 := by
        rw [UInt16.lt_iff_toNat_lt, widen]
        exact large
      refine Yields.pure ⟨?_, ?_, ?_, ?_⟩
      · rw [extension, if_neg wide, UInt8.toUInt8_toUInt16]
        rfl
      · rw [half, if_neg wide, none]
        rfl
      · rw [UInt16.lt_iff_toNat_lt, widen]
        exact Nat.lt_of_lt_of_le (by decide) (Nat.not_lt.mp large)
      · rw [UInt16.lt_iff_toNat_lt, widen]
        exact byte.toNat_lt
  · rename_i some
    have narrow : nibble.toUInt16 < 16 := by
      rw [UInt16.lt_iff_toNat_lt, widen]
      exact UInt8.lt_iff_toNat_lt.mp small
    refine Yields.pure ⟨?_, ?_, ?_, ?_⟩
    · rw [extension, if_pos narrow]
    · rw [half, if_pos narrow, widen]
    · rw [UInt16.lt_iff_toNat_lt, widen]
      exact Nat.pos_of_ne_zero fun zero => some (UInt8.toNat_inj.mp zero)
    · rw [UInt16.lt_iff_toNat_lt, widen]
      exact nibble.toNat_lt

theorem header_of_halves {typeCode fieldCode : UInt16} (isType : IsCode typeCode)
    (isField : IsCode fieldCode) {first : UInt8} (high : (first / 16).toNat = half typeCode)
    (low : (first % 16).toNat = half fieldCode) :
    header typeCode fieldCode = first :: (extension typeCode ++ extension fieldCode) := by
  obtain ⟨written, more, split⟩ := List.exists_cons_of_ne_nil (header_ne_nil typeCode fieldCode)
  obtain ⟨writtenHigh, writtenLow, rfl⟩ := header_split isType isField split
  have same : written = first := by
    rw [← high, UInt8.toNat_div, UInt8.toNat_div] at writtenHigh
    rw [← low, UInt8.toNat_mod, UInt8.toNat_mod] at writtenLow
    have sixteen : (16 : UInt8).toNat = 16 := rfl
    rw [sixteen] at writtenHigh writtenLow
    exact UInt8.toNat_inj.mp (by omega)
  rw [split, same]

theorem yields_headerFrom (first : UInt8) :
    Yields (readHeaderFrom first) fun taken codes =>
      header codes.1 codes.2 = first :: taken ∧ IsCode codes.1 ∧ IsCode codes.2 := by
  have small (byte : UInt8) : byte / 16 < 16 ∧ byte % 16 < 16 := by
    have bound := byte.toNat_lt
    rw [UInt8.lt_iff_toNat_lt, UInt8.lt_iff_toNat_lt, UInt8.toNat_div, UInt8.toNat_mod]
    have sixteen : (16 : UInt8).toNat = 16 := rfl
    rw [sixteen]
    omega
  refine (yields_code _ _ (small first).1).bind ?_
  rintro front typeCode ⟨rfl, high, isType⟩
  refine (yields_code _ _ (small first).2).map ?_
  rintro back fieldCode ⟨rfl, low, isField⟩
  exact ⟨header_of_halves isType isField high low, isType, isField⟩

theorem yields_header :
    Yields readHeader fun taken codes =>
      taken = header codes.1 codes.2 ∧ IsCode codes.1 ∧ IsCode codes.2 := by
  refine (Yields.byte _).bind ?_
  rintro _ first rfl
  refine (yields_headerFrom first).mono ?_
  rintro more codes ⟨whole, areCodes⟩
  exact ⟨whole.symm, areCodes⟩

end Framing

/-- A field that was read is registered, and its header is what was read. -/
theorem Field.yields_from (first : UInt8) :
    Yields (readFrom first) fun taken field =>
      field.header = first :: taken ∧ field.Registered ∧ field.isSerialized = true := by
  refine (Framing.yields_headerFrom first).bind ?_
  rintro front ⟨typeCode, fieldCode⟩ ⟨header, _, isField⟩
  dsimp only
  cases found : Field.coded? typeCode fieldCode with
  | some field =>
      have codes := List.find?_some found
      rw [Bool.and_eq_true, beq_iff_eq, beq_iff_eq] at codes
      obtain ⟨rfl, rfl⟩ := codes
      refine Yields.pure ⟨?_, List.mem_of_find?_eq_some found, isSerialized_iff.mpr isField⟩
      rw [List.append_nil]
      exact header
  | none =>
      dsimp only
      split <;> exact Yields.fail _

end LedgerWire
