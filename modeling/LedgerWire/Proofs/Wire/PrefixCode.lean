import LedgerWire.Proofs.Wire.Canonical

namespace LedgerWire

/-!
Prefix codes. A reader that takes exactly the words of a code, whatever follows them, leaves no room
for a second word of a value, nor for a word that another one starts with. Length prefixes and
field headers are such codes.
-/

namespace Reader

variable {α : Type} {reader : Reader α} {valid : α → Prop} {word : α → Bytes}

/-- A reader that takes words only, and every word whatever follows it, succeeds just on inputs with
a word at the front. -/
theorem Yields.run_eq_done_iff
    (sound : Yields reader fun taken value => taken = word value ∧ valid value)
    (complete : ∀ value, valid value → Reads reader (word value) value) {input rest : Bytes}
    {value : α} :
    reader.run input = .done value rest ↔ valid value ∧ input = word value ++ rest := by
  constructor
  · intro succeeded
    obtain ⟨_, rfl, rfl, isValid⟩ := sound input value rest succeeded
    exact ⟨isValid, rfl⟩
  · rintro ⟨isValid, rfl⟩
    exact complete value isValid rest

/-- The reader decodes the prefix code that has a word for each valid value. -/
structure DecodesPrefixCode (reader : Reader α) (valid : α → Prop) (word : α → Bytes) : Prop where
  /-- It succeeds just where a word stands at the front of its input; it answers the value of that
  word, and takes that word alone. -/
  run_eq_done_iff : ∀ input value rest,
    reader.run input = .done value rest ↔ valid value ∧ input = word value ++ rest
  /-- Each valid value has one encoding that is read to its end. -/
  one_encoding : ∀ value, valid value → ∃! encoding, reader.run encoding = .done value []
  /-- No word starts with the word of another value. -/
  prefix_free : ∀ value other, valid value → valid other → word value <+: word other →
    value = other

theorem DecodesPrefixCode.of_yields
    (sound : Yields reader fun taken value => taken = word value ∧ valid value)
    (complete : ∀ value, valid value → Reads reader (word value) value) :
    DecodesPrefixCode reader valid word := by
  refine ⟨fun _ _ _ => sound.run_eq_done_iff complete, ?_, ?_⟩
  · intro value isValid
    have whole (encoding : Bytes) :
        reader.run encoding = .done value [] ↔ encoding = word value := by
      rw [sound.run_eq_done_iff complete, List.append_nil, and_iff_right isValid]
    exact ⟨word value, (whole _).mpr rfl, fun _ => (whole _).mp⟩
  · rintro value other isValid isOther ⟨more, longer⟩
    -- The longer word is read as its own value, and as the value of the word that it starts with.
    rw [← List.append_nil (word other)] at longer
    exact ((complete value isValid).unique (complete other isOther) longer).1

end Reader

namespace Framing

open Reader

theorem readLength_decodes :
    DecodesPrefixCode readLength (· ≤ Limits.maximumLength) lengthBytes :=
  .of_yields yields_length fun _ => reads_length

theorem readHeader_decodes :
    DecodesPrefixCode readHeader (fun codes => IsCode codes.1 ∧ IsCode codes.2)
      fun codes => header codes.1 codes.2 :=
  .of_yields yields_header fun _ areCodes => reads_header areCodes.1 areCodes.2

/-- What is written for the lengths up to the maximum, and for the pairs of codes from 1 to 255, are
two prefix codes; the readers of lengths and of headers take exactly their words. -/
theorem framing_unambiguous (field : String) :
    (∀ length written, lengthPrefix field length = .ok written ↔
      length ≤ Limits.maximumLength ∧ written = lengthBytes length) ∧
    DecodesPrefixCode readLength (· ≤ Limits.maximumLength) lengthBytes ∧
    DecodesPrefixCode readHeader (fun codes => IsCode codes.1 ∧ IsCode codes.2)
      fun codes => header codes.1 codes.2 :=
  ⟨fun _ _ => lengthPrefix_eq_ok, readLength_decodes, readHeader_decodes⟩

/-- The last length with two bytes and the first with three, a header whose field code has a byte of
its own, and the same codes with such a byte for the type as well. -/
theorem framing_unambiguous_rangeEnds :
    readLength.run [0xF0, 0xFF, 0x07] = .done 12480 [0x07] ∧
      readLength.run [0xF1, 0x00, 0x00, 0x07] = .done 12481 [0x07] ∧
      (∀ encoding, readLength.run encoding = .done 12481 [] → encoding = [0xF1, 0x00, 0x00]) ∧
      readHeader.run [0x20, 0x1B, 0x07] = .done (2, 27) [0x07] ∧
      (∀ rest, readHeader.run [0x00, 0x02, 0x1B] ≠ .done (2, 27) rest) ∧
      ¬ header 2 27 <+: header 16 16 := by
  obtain ⟨_, lengths, headers⟩ := framing_unambiguous "Memo"
  have twoBytes := (lengths.run_eq_done_iff [0xF0, 0xFF, 0x07] 12480 [0x07]).mpr (by decide)
  have threeBytes :=
    (lengths.run_eq_done_iff [0xF1, 0x00, 0x00, 0x07] 12481 [0x07]).mpr (by decide)
  have alone := (lengths.run_eq_done_iff [0xF1, 0x00, 0x00] 12481 []).mpr (by decide)
  have extended := (headers.run_eq_done_iff [0x20, 0x1B, 0x07] (2, 27) [0x07]).mpr (by decide)
  refine ⟨twoBytes, threeBytes, ?_, extended, ?_, ?_⟩
  · intro encoding succeeded
    exact (lengths.one_encoding 12481 (by decide)).unique succeeded alone
  · intro rest succeeded
    have begins := ((headers.run_eq_done_iff _ _ _).mp succeeded).2
    exact absurd (List.cons.inj begins).1 (by decide)
  · intro begins
    have same := headers.prefix_free (2, 27) (16, 16) (by decide) (by decide) begins
    exact absurd same (by decide)

end Framing

end LedgerWire
