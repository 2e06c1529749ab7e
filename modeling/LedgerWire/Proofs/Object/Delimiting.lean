import LedgerWire.Proofs.Object.Wire
import LedgerWire.Proofs.Wire.Delimiting

namespace LedgerWire

open Reader

/-!
Nested objects and arrays delimit themselves. Every reader of a value is local: only a path set may
end with its input, and what encloses it then lacks its end marker. So objects and arrays are read
alike whatever follows them, and none of their cuts is read.
-/

theorem Framing.local_length : Local readLength := by
  refine (Local.byte _).bind fun first => ?_
  dsimp only
  split
  · exact Local.pure _
  · split
    · exact (Local.byte _).map
    · split
      · refine (Local.byte _).bind fun second => (Local.byte _).bind fun third => ?_
        split
        · exact Local.pure _
        · exact Local.fail _
      · exact Local.fail _

theorem Framing.local_lengthPrefixed (context : String) : Local (readLengthPrefixed context) :=
  Framing.local_length.bind fun count => Local.bytes count context

theorem Framing.local_code (half : UInt8) (context : String) (cause : FramingCause) :
    Local (readCode half context cause) := by
  rw [readCode]
  split
  · refine (Local.byte _).bind fun byte => ?_
    split
    · exact Local.fail _
    · exact Local.pure _
  · exact Local.pure _

theorem Framing.local_headerFrom (first : UInt8) : Local (readHeaderFrom first) :=
  (Framing.local_code _ _ _).bind fun _ => (Framing.local_code _ _ _).map

theorem Field.local_from (first : UInt8) : Local (readFrom first) := by
  refine (Framing.local_headerFrom first).bind fun ⟨typeCode, fieldCode⟩ => ?_
  dsimp only
  split
  · exact Local.pure _
  · split
    · exact Local.fail _
    · exact Local.fail _

theorem Hash.local_list (context : String) : Local (readList context) := by
  refine (Framing.local_lengthPrefixed context).bind fun bytes => ?_
  split
  · exact Local.ofExcept _
  · exact Local.fail _

theorem Account.local_read (context : String) : Local (read context) := by
  refine (Framing.local_lengthPrefixed context).bind fun bytes => ?_
  split
  · exact Local.pure _
  · exact Local.fail _

theorem Amount.local_read : Local read := by
  refine (Local.natural 8 _).mapCause.bind fun word => ?_
  split
  · exact (Local.octets 20 _).mapCause.bind fun currency =>
      (Local.octets 20 _).mapCause.bind fun issuer => Local.ofExcept _
  · exact Local.ofExcept _

theorem Hop.local_part {α : Type} (bits bit : UInt8) (context : String) (build : Octets 20 → α) :
    Local (readPart bits bit context build) := by
  rw [readPart]
  split
  · exact (Local.octets 20 context).map
  · exact Local.pure none

theorem Hop.local_from (bits : UInt8) : Local (readFrom bits) := by
  rw [readFrom]
  split
  · exact (Hop.local_part _ _ _ _).bind fun _ => (Hop.local_part _ _ _ _).bind fun _ =>
      (Hop.local_part _ _ _ _).map
  · exact Local.fail _

theorem PathSet.local_step (progress : Progress) (first : UInt8) :
    Local (readStep progress first) := by
  rw [readStep]
  split
  · exact Local.pure _
  · exact (Hop.local_from first).map

theorem PathSet.local_read : Local read :=
  (Local.fold PathSet.local_step).map

section Nested

variable {object : Reader Object} {array : Reader Elements} {readValue : Field → Reader Value}

theorem Value.local_with (objects : Local object) (arrays : Local array) (field : Field) :
    Local (readWith object array field) := by
  rw [readWith]
  split
  · exact (Local.byte _).map
  · exact (Local.byte _).map
  · exact (Local.uint16 _).map
  · exact (Local.uint16 _).map
  · exact (Local.uint16 _).map
  · exact (Local.uint32 _).map
  · exact (Local.uint64 _).map
  · exact (Local.octets 16 _).map
  · exact (Local.octets 20 _).map
  · exact (Local.octets 32 _).map
  · exact (Local.octets 20 _).map
  · exact (Framing.local_lengthPrefixed _).map
  · exact (Account.local_read _).map
  · exact (Hash.local_list _).map
  · exact Amount.local_read.map
  · exact PathSet.local_read.map
  · exact objects.map
  · exact arrays.map

theorem Object.local_field (values : ∀ field, Local (readValue field)) (object : Object)
    (first : UInt8) : Local (readField readValue object first) := by
  refine (Field.local_from first).bind fun field => ?_
  split
  · exact Local.fail _
  · split
    · exact Local.fail _
    · exact (values field).bind fun value => Local.ofExcept _

theorem Elements.local_element (objects : Local object) (elements : Elements) (first : UInt8) :
    Local (readElement object elements first) := by
  refine (Field.local_from first).bind fun wrapper => ?_
  split
  · exact Local.fail _
  · exact objects.bind fun inner => (Local.ofExcept _).map

/-- The readers of objects and arrays delimit what they take, at every level. -/
theorem delimits_levels (levels : Nat) :
    (∀ endMarker, Delimits (Object.readLevels levels (some endMarker))) ∧
      Delimits (Elements.readLevels levels) := by
  induction levels with
  | zero =>
      rw [Elements.readLevels]
      refine ⟨fun endMarker => ?_, Delimits.fail _⟩
      rw [Object.readLevels]
      exact Delimits.fail _
  | succ levels ih =>
      obtain ⟨objects, arrays⟩ := ih
      have nested := (objects objectEnd).toLocal
      rw [Elements.readLevels]
      constructor
      · intro endMarker
        rw [Object.readLevels]
        exact Delimits.fold fun object first =>
          Object.local_field (fun field => Local.delay (Value.local_with nested arrays.toLocal field))
            object first
      · have delayed : Local (Reader.delay fun _ => Object.readLevels levels (some objectEnd)) :=
          Local.delay nested
        exact (Delimits.fold fun elements first =>
          Elements.local_element delayed elements first).map

end Nested

/-- An object up to an end marker, or an array, is read between two positions of a buffer, and no
other byte has a say in it. -/
theorem nested_reading_delimits (buffer : Bytes) (start depth : Nat) (endMarker : UInt8) :
    (∀ object rest, (Object.read depth (some endMarker)).run (buffer.drop start) =
        .done object rest →
      ∃ stop, rest = buffer.drop stop ∧
        (Object.read depth (some endMarker)).TakesBetween buffer start stop object) ∧
    ∀ elements rest, (Elements.read depth).run (buffer.drop start) = .done elements rest →
      ∃ stop, rest = buffer.drop stop ∧
        (Elements.read depth).TakesBetween buffer start stop elements := by
  obtain ⟨objects, arrays⟩ := delimits_levels (levelsFrom depth)
  exact ⟨fun _ _ succeeded => (objects endMarker).takesBetween succeeded,
    fun _ _ succeeded => arrays.takesBetween succeeded⟩

/-- An array with a memo that holds a path, and a byte that follows. -/
def memoPaths : Bytes :=
  [0xEA, 0x01, 0x12, 0x01] ++ List.replicate 20 7 ++ [0x00, 0xE1, 0xF1] ++ [0x22]

/-- What a reader takes of a buffer that it reads and of which it leaves so much. -/
theorem exists_takesBetween {α : Type} {reader : Reader α} {buffer : Bytes} {start stop : Nat}
    (reads : (reader.decode (buffer.drop start)).isOk = true)
    (leaves : (reader.run (buffer.drop start)).rest = buffer.drop stop)
    (within : stop ≤ buffer.length)
    (takes : ∀ value rest, reader.run (buffer.drop start) = .done value rest →
      ∃ stop, rest = buffer.drop stop ∧ reader.TakesBetween buffer start stop value) :
    ∃ value, reader.TakesBetween buffer start stop value := by
  obtain ⟨value, decoded⟩ := exists_of_isOk reads
  obtain ⟨rest, done⟩ := Reader.decode_eq_ok.mp decoded
  obtain ⟨found, left, between⟩ := takes value rest done
  rw [done] at leaves
  have lengths := congrArg List.length (left.symm.trans leaves)
  rw [List.length_drop, List.length_drop] at lengths
  have same : found = stop := by
    have := between.within
    omega
  exact ⟨value, same ▸ between⟩

theorem nested_reading_delimits_memoPaths :
    (∃ object, (Object.read 2 (some objectEnd)).TakesBetween memoPaths 1 26 object) ∧
      ∃ elements, (Elements.read 1).TakesBetween memoPaths 0 27 elements :=
  ⟨exists_takesBetween (by decide +kernel) (by decide +kernel) (by decide)
      (nested_reading_delimits memoPaths 1 2 objectEnd).1,
    exists_takesBetween (by decide +kernel) (by decide +kernel) (by decide)
      (nested_reading_delimits memoPaths 0 1 objectEnd).2⟩

end LedgerWire
