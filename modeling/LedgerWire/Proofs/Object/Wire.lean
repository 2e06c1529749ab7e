import LedgerWire.Proofs.Object.Map
import LedgerWire.Proofs.Text.Hex
import LedgerWire.Proofs.Value.Wire

namespace LedgerWire

open Reader

/-!
Objects read back. The fields of an object are read one after another, each placed behind the ones
before it, until a byte that starts no header of theirs; the elements of an array likewise. By
induction over the levels, an object that was written is read as the wire keeps it.
-/

theorem Value.codec_of_object {fields : Object} {codec : Codec}
    (accepted : (Value.object fields).fits codec = true) : codec = .plain .object := by
  rcases codec with ⟨⟨⟩⟩ | _ | _ | _ | _ <;> first | rfl | contradiction

theorem Value.codec_of_array {elements : Elements} {codec : Codec}
    (accepted : (Value.array elements).fits codec = true) : codec = .plain .array := by
  rcases codec with ⟨⟨⟩⟩ | _ | _ | _ | _ <;> first | rfl | contradiction

theorem Field.type_of_codec {field : Field} {type : FieldType}
    (plain : field.codec = .plain type) : field.type = type := by
  simp only [codec] at plain
  split at plain
  · contradiction
  · split at plain
    · contradiction
    · split at plain
      · contradiction
      · split at plain
        · contradiction
        · exact Codec.plain.inj plain

section Entries

variable {filter : FieldFilter} {field : Field} {value : Value} {rest : Object} {bytes : Bytes}

/-- A written field is its header and its value, before the rest of the object. -/
theorem Object.write_cons_admitted (fits : value.fits field.codec = true)
    (admitted : filter.admits field = true) :
    Object.write filter ((field, value) :: rest) = .ok bytes ↔
      ∃ front back, value.writeRaw field = .ok front ∧ Object.write filter rest = .ok back ∧
        bytes = field.header ++ front ++ back := by
  rw [Object.write, Value.guarded, if_pos fits, if_pos admitted]
  constructor
  · intro written
    obtain ⟨_, back, entryWritten, restWritten, rfl⟩ := Output.append_eq_ok.mp written
    obtain ⟨header, front, headerWritten, valueWritten, rfl⟩ := Output.append_eq_ok.mp entryWritten
    rw [← Output.ok_inj.mp headerWritten]
    exact ⟨front, back, valueWritten, restWritten, rfl⟩
  · rintro ⟨front, back, valueWritten, restWritten, rfl⟩
    rw [valueWritten, restWritten, Output.ok_append_ok, Output.ok_append_ok]

theorem Object.write_cons_passed (value : Value) (rest : Object)
    (passed : filter.admits field = false) :
    Object.write filter ((field, value) :: rest) = Object.write filter rest := by
  rw [Object.write, passed, if_neg Bool.false_ne_true]
  rfl

theorem Object.write_cons_eq_ok (fits : value.fits field.codec = true)
    (serialized : field.isSerialized = true) :
    Object.write .all ((field, value) :: rest) = .ok bytes ↔
      ∃ front back, value.writeRaw field = .ok front ∧ Object.write .all rest = .ok back ∧
        bytes = field.header ++ front ++ back :=
  write_cons_admitted fits serialized

theorem Object.write_cons_unserialized (value : Value) (rest : Object)
    (unserialized : field.isSerialized = false) :
    Object.write .all ((field, value) :: rest) = Object.write .all rest :=
  write_cons_passed value rest unserialized

/-- What is written of two lists of fields is that of the first and then that of the second. -/
theorem Object.write_append {front back : Object}
    (written : Object.write filter (front ++ back) = .ok bytes) :
    ∃ before after, Object.write filter front = .ok before ∧
      Object.write filter back = .ok after ∧ bytes = before ++ after := by
  induction front generalizing bytes with
  | nil => exact ⟨[], bytes, rfl, written, rfl⟩
  | cons entry rest ih =>
      rw [List.cons_append, Object.write] at written
      obtain ⟨first, _, entryWritten, restWritten, rfl⟩ := Output.append_eq_ok.mp written
      obtain ⟨before, after, frontWritten, backWritten, rfl⟩ := ih restWritten
      refine ⟨first ++ before, after, ?_, backWritten, (List.append_assoc first before after).symm⟩
      rw [Object.write, entryWritten, frontWritten, Output.ok_append_ok]

end Entries

/-- A written element is the header of its wrapper, the wrapped object and the end marker. -/
theorem Elements.writeEach_wrapped_eq_ok {wrapper : Field} {inner : Object} {rest : Elements}
    {bytes : Bytes} :
    Elements.writeEach ([(wrapper, .object inner)] :: rest) = .ok bytes ↔
      ∃ front back, Object.write .all inner = .ok front ∧ Elements.writeEach rest = .ok back ∧
        bytes = wrapper.header ++ (front ++ [objectEnd]) ++ back := by
  rw [Elements.writeEach]
  constructor
  · intro written
    obtain ⟨_, back, elementWritten, restWritten, rfl⟩ := Output.append_eq_ok.mp written
    obtain ⟨_, _, opened, ended, rfl⟩ := Output.append_eq_ok.mp elementWritten
    obtain ⟨_, front, headerWritten, innerWritten, rfl⟩ := Output.append_eq_ok.mp opened
    rw [← Output.ok_inj.mp headerWritten, ← Output.ok_inj.mp ended, List.append_assoc wrapper.header]
    exact ⟨front, back, innerWritten, restWritten, rfl⟩
  · rintro ⟨front, back, innerWritten, restWritten, rfl⟩
    rw [innerWritten, restWritten, Output.ok_append_ok, Output.ok_append_ok, Output.ok_append_ok,
      List.append_assoc wrapper.header]

namespace Object

/-- What a step of an object's reader does once its field is known. -/
theorem reads_field {readValue : Field → Reader Value} {done : Object} {field : Field}
    {value : Value} {first : UInt8} {more front : Bytes} (registered : field.Registered)
    (serialized : field.isSerialized = true) (notMarker : field.isMarker = false)
    (split : field.header = first :: more) (fits : value.fits field.codec = true)
    (absent : ∀ entry ∈ done, entry.1.key ≠ field.key)
    (reading : Reads (readValue field) front value) :
    Reads (readField readValue done first) (more ++ front) (done.place field value) := by
  refine (Field.reads_header registered serialized split).bind ?_
  simp only [Field.isMarker] at notMarker
  rw [notMarker, contains_eq_false.mpr absent]
  refine reading.map ?_
  rw [set_of_fits fits]
  exact Reads.ofExcept _

end Object

/-- What a step of an array's reader does once the wrapped object is known. -/
theorem Elements.reads_element {readObject : Reader Object} {done : Elements} {wrapper : Field}
    {inner : Object} {first : UInt8} {more front : Bytes} (registered : wrapper.Registered)
    (notMarker : wrapper.isMarker = false) (split : wrapper.header = first :: more)
    (fits : (Value.object inner).fits wrapper.codec = true)
    (reading : Reads readObject front inner) :
    Reads (readElement readObject done first) (more ++ front)
      ([(wrapper, .object inner)] :: done) := by
  have isObject : wrapper.type = .object := Field.type_of_codec (Value.codec_of_object fits)
  have serialized := registered.isSerialized_of_object isObject
  have notEnd : wrapper.same Fields.objectEndMarker = false := (Bool.or_eq_false_iff.mp notMarker).1
  have wrapped : Object.wrap wrapper inner = .ok [(wrapper, .object inner)] :=
    Object.set_eq_ok.mpr ⟨fits, rfl⟩
  refine (Field.reads_header registered serialized split).bind ?_
  rw [if_neg (by rw [isObject, notEnd]; decide)]
  refine reading.map ?_
  rw [wrapped]
  exact Reads.pure _

section Reading

/-- The reader of a field's value in an object below which so many levels are left. -/
abbrev Value.readBelow (levels : Nat) (field : Field) : Reader Value :=
  Reader.delay fun _ =>
    Value.readWith (Object.readLevels levels (some objectEnd)) (Elements.readLevels levels) field

/-- The value is read back from its bytes where enough levels are left. -/
def Value.ReadsBack (value : Value) : Prop :=
  ∀ field levels bytes, value.Framed field → value.All Value.Framed → value.depth ≤ levels →
    value.writeRaw field = .ok bytes →
    Reads (Value.readBelow levels field) bytes value.condensed.pruned.settled

/-- The loop that reads an object reads these fields behind those that it has, whatever ends it. -/
def Object.ReadsBack (object : Object) : Prop :=
  ∀ atEnd (isEnd : UInt8 → Bool) levels (done : Object) bytes,
    (∀ byte, byte ≠ objectEnd → isEnd byte = false) → object.All Value.Framed →
    object.Ascending → (∀ earlier ∈ done, ∀ later ∈ object, earlier.1.key < later.1.key) →
    object.depth ≤ levels → Object.write .all object = .ok bytes →
    Folds atEnd isEnd (Object.readField (Value.readBelow levels)) done bytes
      (done ++ object.condensed.pruned.settled)

/-- The loop that reads an array reads these elements behind those that it has. -/
def Elements.ReadsBack (elements : Elements) : Prop :=
  ∀ atEnd levels (done : Elements) bytes, Elements.All Value.Framed elements →
    (∀ element ∈ elements, ∃ wrapper inner, element = [(wrapper, .object inner)]) →
    Elements.depth elements ≤ levels → Elements.writeEach elements = .ok bytes →
    Folds atEnd (· == arrayEnd)
      (Elements.readElement (Reader.delay fun _ => Object.readLevels levels (some objectEnd)))
      done bytes ((Elements.settled (Elements.pruned (Elements.condensed elements))).reverse ++ done)

/-- The fields of a nested object up to the end marker. -/
theorem Object.ReadsBack.nested {object : Object} (readsBack : object.ReadsBack) {levels : Nat}
    {bytes : Bytes} (framed : object.All Value.Framed) (ascending : object.Ascending)
    (deep : object.depth + 1 ≤ levels) (written : Object.write .all object = .ok bytes) :
    Reads (Object.readLevels levels (some objectEnd)) (bytes ++ [objectEnd])
      object.condensed.pruned.settled := by
  cases levels with
  | zero => exact absurd deep (Nat.not_succ_le_zero _)
  | succ levels =>
      rw [Object.readLevels]
      refine (readsBack _ _ levels [] bytes ?_ framed ascending nofun (Nat.le_of_succ_le_succ deep)
        written).reads (beq_self_eq_true _)
      intro byte different
      exact beq_eq_false_iff_ne.mpr fun same => different (Option.some.inj same).symm

theorem Value.readsBack_plain {value : Value} (notObject : ∀ fields, value ≠ .object fields)
    (notArray : ∀ elements, value ≠ .array elements) : value.ReadsBack := by
  intro field levels bytes framed _ _ written
  have kept : value.condensed.pruned = value.condensed := by
    cases value <;>
      first | rfl | exact absurd rfl (notObject _) | exact absurd rfl (notArray _)
  rw [kept]
  exact Reads.delay <| Value.reads_plain _ _ framed notObject notArray written

theorem Object.ReadsBack.value {fields : Object} (inner : fields.ReadsBack) :
    (Value.object fields).ReadsBack := by
  intro field levels bytes framed all deep written
  rw [Value.writeRaw] at written
  obtain ⟨front, _, fieldsWritten, ended, rfl⟩ := Output.append_eq_ok.mp written
  apply Reads.delay
  rw [← Output.ok_inj.mp ended, Value.readWith, Value.codec_of_object framed.fits]
  exact (inner.nested all (framed.ascending fields rfl) deep fieldsWritten).map (Reads.pure _)

theorem Elements.ReadsBack.value {elements : Elements} (inner : Elements.ReadsBack elements) :
    (Value.array elements).ReadsBack := by
  intro field levels bytes framed all deep written
  rw [Value.writeRaw] at written
  obtain ⟨front, _, elementsWritten, ended, rfl⟩ := Output.append_eq_ok.mp written
  apply Reads.delay
  rw [← Output.ok_inj.mp ended, Value.readWith, Value.codec_of_array framed.fits]
  cases levels with
  | zero => exact absurd deep (Nat.not_succ_le_zero _)
  | succ levels =>
      have folds := inner (some (.unexpectedEnd "array end marker")) levels [] front all
        (framed.wrapped elements rfl) (Nat.le_of_succ_le_succ deep) elementsWritten
      refine Reads.map ?_ (Reads.pure _)
      rw [Elements.readLevels]
      refine (folds.reads (beq_self_eq_true _)).map (Reads.answer ?_)
      rw [List.append_nil, List.reverse_reverse]

/-- The loop that reads an object places a field whose value is read. -/
theorem Object.folds_field {field : Field} {read : Value} {atEnd : Option DecodeError}
    {isEnd : UInt8 → Bool} {levels : Nat} {done : Object} {front : Bytes}
    (continues : ∀ byte, byte ≠ objectEnd → isEnd byte = false) (registered : field.Registered)
    (serialized : field.isSerialized = true) (notMarker : field.isMarker = false)
    (fits : read.fits field.codec = true) (absent : ∀ earlier ∈ done, earlier.1.key ≠ field.key)
    (reading : Reads (Value.readBelow levels field) front read) :
    Folds atEnd isEnd (Object.readField (Value.readBelow levels)) done (field.header ++ front)
      (done.place field read) := by
  obtain ⟨first, more, split, notEnd, _⟩ := registered.header_eq_cons serialized notMarker
  rw [split]
  exact Folds.single (continues first notEnd)
    (Object.reads_field registered serialized notMarker split fits absent reading)

/-- The loop that reads an object reads a written field behind those before it. -/
theorem Object.folds_entry {field : Field} {value : Value} {atEnd : Option DecodeError}
    {isEnd : UInt8 → Bool} {levels : Nat} {done : Object} {front : Bytes} (inner : value.ReadsBack)
    (continues : ∀ byte, byte ≠ objectEnd → isEnd byte = false) (framed : value.Framed field)
    (allInside : value.All Value.Framed) (serialized : field.isSerialized = true)
    (above : ∀ earlier ∈ done, earlier.1.key < field.key) (deep : value.depth ≤ levels)
    (written : value.writeRaw field = .ok front) :
    Folds atEnd isEnd (Object.readField (Value.readBelow levels)) done (field.header ++ front)
      (done ++ [(field, value.condensed.pruned.settled)]) := by
  have fits : value.condensed.pruned.settled.fits field.codec = true := by
    rw [Value.fits_settled, Value.fits_pruned, Value.fits_condensed]
    exact framed.fits
  have reading := inner field levels front framed allInside deep written
  have absent : ∀ earlier ∈ done, earlier.1.key ≠ field.key := fun earlier member =>
    Nat.ne_of_lt (above earlier member)
  rw [← Object.place_last above]
  exact Object.folds_field continues framed.registered serialized framed.notMarker fits absent
    reading

theorem Object.above_snoc {done rest : Object} {field : Field} {value : Value} (read : Value)
    (ascending : Object.Ascending ((field, value) :: rest))
    (above : ∀ earlier ∈ done, ∀ later ∈ (field, value) :: rest, earlier.1.key < later.1.key) :
    ∀ earlier ∈ done ++ [(field, read)], ∀ later ∈ rest, earlier.1.key < later.1.key := by
  intro earlier member later found
  rcases List.mem_append.mp member with old | new
  · exact above earlier old later (List.mem_cons_of_mem _ found)
  · cases List.mem_singleton.mp new
    exact (List.pairwise_cons.mp ascending).1 later found

/-- A field is passed over if it has no wire form; otherwise its step comes before those of the
fields behind it. -/
theorem Object.ReadsBack.cons {field : Field} {value : Value} {rest : Object}
    (inner : value.ReadsBack) (others : rest.ReadsBack) :
    Object.ReadsBack ((field, value) :: rest) := by
  intro atEnd isEnd levels done bytes continues all ascending above deep written
  obtain ⟨framed, allInside, allOthers⟩ := all
  have ordered := (List.pairwise_cons.mp ascending).2
  obtain ⟨deepValue, deepRest⟩ := Nat.max_le.mp deep
  rw [Object.condensed, Object.pruned]
  cases serialized : field.isSerialized with
  | false =>
      have aboveOthers : ∀ earlier ∈ done, ∀ later ∈ rest, earlier.1.key < later.1.key :=
        fun earlier member later found =>
          above earlier member later (List.mem_cons_of_mem _ found)
      rw [Object.write_cons_unserialized value rest serialized] at written
      rw [if_neg Bool.false_ne_true]
      exact others _ _ _ _ _ continues allOthers ordered aboveOthers deepRest written
  | true =>
      obtain ⟨front, back, valueWritten, restWritten, rfl⟩ :=
        (Object.write_cons_eq_ok framed.fits serialized).mp written
      have aboveHere : ∀ earlier ∈ done, earlier.1.key < field.key := fun earlier member =>
        above earlier member (field, value) List.mem_cons_self
      have step := @Object.folds_entry _ _ atEnd isEnd _ _ _ inner continues framed allInside
        serialized aboveHere deepValue valueWritten
      have following := others atEnd isEnd levels (done ++ [(field, value.condensed.pruned.settled)])
        back continues allOthers ordered (Object.above_snoc _ ascending above) deepRest restWritten
      rw [if_pos rfl, Object.settled]
      rw [List.append_assoc, List.singleton_append] at following
      exact step.trans following

/-- The loop that reads an array adds an element whose wrapped object is read. -/
theorem Elements.folds_wrapped {wrapper : Field} {inner : Object} {atEnd : Option DecodeError}
    {levels : Nat} {done : Elements} {front : Bytes} (registered : wrapper.Registered)
    (notMarker : wrapper.isMarker = false) (fits : (Value.object inner).fits wrapper.codec = true)
    (reading : Reads (Object.readLevels levels (some objectEnd)) front inner) :
    Folds atEnd (· == arrayEnd)
      (Elements.readElement (Reader.delay fun _ => Object.readLevels levels (some objectEnd)))
      done (wrapper.header ++ front) ([(wrapper, .object inner)] :: done) := by
  have serialized :=
    registered.isSerialized_of_object (Field.type_of_codec (Value.codec_of_object fits))
  obtain ⟨first, more, split, _, notEnd⟩ := registered.header_eq_cons serialized notMarker
  have continues : (first == arrayEnd) = false := beq_eq_false_iff_ne.mpr notEnd
  rw [split]
  exact Folds.single continues
    (Elements.reads_element registered notMarker split fits (Reads.delay reading))

/-- The loop that reads an array reads a written element behind those before it. -/
theorem Elements.folds_element {wrapper : Field} {inner : Object} {atEnd : Option DecodeError}
    {levels : Nat} {done : Elements} {front : Bytes} (fields : inner.ReadsBack)
    (framed : (Value.object inner).Framed wrapper) (allInside : inner.All Value.Framed)
    (deep : inner.depth + 1 ≤ levels) (written : Object.write .all inner = .ok front) :
    Folds atEnd (· == arrayEnd)
      (Elements.readElement (Reader.delay fun _ => Object.readLevels levels (some objectEnd)))
      done (wrapper.header ++ (front ++ [objectEnd]))
      ([(wrapper, .object inner.condensed.pruned.settled)] :: done) := by
  have fits : (Value.object inner.condensed.pruned.settled).fits wrapper.codec = true := by
    rw [Value.codec_of_object framed.fits]
    rfl
  exact Elements.folds_wrapped framed.registered framed.notMarker fits
    (fields.nested allInside (framed.ascending inner rfl) deep written)

theorem Elements.ReadsBack.cons {wrapper : Field} {inner : Object} {rest : Elements}
    (fields : inner.ReadsBack) (others : Elements.ReadsBack rest) :
    Elements.ReadsBack ([(wrapper, .object inner)] :: rest) := by
  intro atEnd levels done bytes all wraps deep written
  obtain ⟨⟨framed, allInside, _⟩, allOthers⟩ := all
  obtain ⟨deepElement, deepRest⟩ := Nat.max_le.mp deep
  obtain ⟨front, back, innerWritten, restWritten, rfl⟩ :=
    Elements.writeEach_wrapped_eq_ok.mp written
  have step := @Elements.folds_element _ _ atEnd _ done _ fields framed allInside
    (Nat.le_trans (Nat.le_max_left _ _) deepElement) innerWritten
  have following := others atEnd levels
    ([(wrapper, .object inner.condensed.pruned.settled)] :: done) back allOthers
    (fun element member => wraps element (List.mem_cons_of_mem _ member)) deepRest restWritten
  rw [Elements.condensed_wrapped, Elements.pruned_wrapped, Elements.settled, List.reverse_cons,
    List.append_assoc (List.reverse _)]
  exact step.trans following

theorem readsBack_levels : Levels Value.ReadsBack Object.ReadsBack Elements.ReadsBack where
  plain _ notObject notArray := Value.readsBack_plain notObject notArray
  object _ inner := inner.value
  array _ inner := inner.value
  empty := by
    intro atEnd isEnd levels done bytes _ _ _ _ _ written
    rw [Object.write, Output.ok_inj] at written
    subst written
    change Folds _ _ _ done [] (done ++ [])
    rw [List.append_nil]
    exact Folds.refl done
  entry _ _ _ inner others := Object.ReadsBack.cons inner others
  none := by
    intro atEnd levels done bytes _ _ _ written
    rw [Elements.writeEach, Output.ok_inj] at written
    subst written
    exact Folds.refl done
  wrapped _ _ _ fields _ others := Elements.ReadsBack.cons fields others
  malformed element rest malformed _ _ := by
    intro atEnd levels done bytes _ wraps
    exact absurd (wraps element List.mem_cons_self) malformed

/-- An object is decoded when the loop over its fields takes all of the bytes. -/
theorem Object.ofBytes_of_folds {bytes : Bytes} {object : Object}
    (folds : Folds none (fun byte => (none : Option UInt8) == some byte)
      (Object.readField (Value.readBelow Limits.maximumDepth)) [] bytes object) :
    Object.ofBytes bytes = .ok object :=
  folds.decode

/-- An object that is written is read as the wire keeps it, from exactly these bytes. -/
theorem Object.ofBytes_of_nesting {object : Object} (ascending : object.Ascending)
    (framed : object.All Value.Framed) (nesting : object.depth ≤ Limits.maximumDepth)
    {bytes : Bytes} (written : Object.write .all object = .ok bytes) :
    Object.ofBytes bytes = .ok object.condensed.pruned.settled :=
  Object.ofBytes_of_folds <| readsBack_levels.fields object none _ Limits.maximumDepth [] bytes
    (fun _ _ => rfl) framed ascending nofun nesting written

theorem Object.ofBytes_of_write {object : Object} (shaped : object.Shaped) {bytes : Bytes}
    (written : Object.write .all object = .ok bytes) :
    Object.ofBytes bytes = .ok object.pruned.settled := by
  have framed := shaped.entries.mono fun _ _ entry => entry.toFramed
  have hopped : object.All fun _ value => value.Hopped :=
    shaped.entries.mono fun _ _ entry paths isPathSet => (entry.named paths isPathSet).1
  have read := ofBytes_of_nesting shaped.ascending framed shaped.nesting written
  rwa [condensed_eq_self hopped] at read

end Reading

section RoundTrip

theorem written_levels :
    Levels
      (fun value => ∀ field, value.Encodable field → value.All Value.Encodable →
        ∃ bytes, value.writeRaw field = .ok bytes)
      (fun object => object.All Value.Encodable → ∃ bytes, Object.write .all object = .ok bytes)
      (fun elements => Elements.All Value.Encodable elements →
        (∀ element ∈ elements, ∃ wrapper inner, element = [(wrapper, .object inner)]) →
        ∃ bytes, Elements.writeEach elements = .ok bytes) where
  plain value notObject notArray field encodable _ :=
    Value.exists_writeRaw_plain encodable notObject notArray
  object fields inner field encodable all := by
    obtain ⟨bytes, written⟩ := inner all
    rw [Value.writeRaw, written]
    exact ⟨_, rfl⟩
  array elements inner field encodable all := by
    obtain ⟨bytes, written⟩ := inner all (encodable.wrapped elements rfl)
    rw [Value.writeRaw, written]
    exact ⟨_, rfl⟩
  empty _ := ⟨[], rfl⟩
  entry field value rest inner others all := by
    obtain ⟨encodable, allInside, allOthers⟩ := all
    obtain ⟨front, valueWritten⟩ := inner field encodable allInside
    obtain ⟨back, restWritten⟩ := others allOthers
    exact ⟨_, (Object.write_cons_eq_ok encodable.fits encodable.serialized).mpr
      ⟨front, back, valueWritten, restWritten, rfl⟩⟩
  none _ _ := ⟨[], rfl⟩
  wrapped wrapper inner rest fields _ others all wraps := by
    obtain ⟨⟨_, allInside, _⟩, allOthers⟩ := all
    obtain ⟨front, innerWritten⟩ := fields allInside
    obtain ⟨back, restWritten⟩ := others allOthers fun element member =>
      wraps element (List.mem_cons_of_mem _ member)
    exact ⟨_, Elements.writeEach_wrapped_eq_ok.mpr ⟨front, back, innerWritten, restWritten, rfl⟩⟩
  malformed element rest malformed _ _ _ wraps :=
    absurd (wraps element List.mem_cons_self) malformed

namespace Object

variable {object : Object}

theorem WireFormed.exists_write (formed : object.WireFormed) :
    ∃ bytes, Object.write .all object = .ok bytes :=
  written_levels.fields object formed.entries

theorem WireFormed.short (formed : object.WireFormed) :
    object.All fun _ value => value.Short :=
  formed.entries.mono fun _ _ encodable => encodable.toShort

theorem ofHex_encode (bytes : Bytes) : ofHex (Text.Hex.encode bytes) = ofBytes bytes := by
  rw [ofHex, Text.Hex.decode_encode]

/-- A well-formed object is written and read back as an equal one, in bytes and in hexadecimal. -/
theorem ofBytes_toBytes (object : Object) (formed : object.WireFormed) :
    ∃ bytes text decoded, object.toBytes = .ok bytes ∧ ofBytes bytes = .ok decoded ∧
      object.toHex = .ok text ∧ ofHex text = .ok decoded ∧ same decoded object = true := by
  obtain ⟨bytes, written⟩ := formed.exists_write
  have whole : object.pruned = object :=
    pruned_eq_self (formed.entries.mono fun _ _ encodable => encodable.serialized)
  have decoded := ofBytes_of_write formed.shaped written
  rw [whole] at decoded
  have bytesWritten : object.toBytes = .ok bytes := Output.toExcept_eq_ok.mpr written
  refine ⟨bytes, Text.Hex.encode bytes, object.settled, bytesWritten, decoded, ?_, ?_,
    same_settled formed.short⟩
  · rw [toHex, bytesWritten]
    rfl
  · rw [ofHex_encode]
    exact decoded

/-- An entry of a multi-signed transaction's signers: a key and an account. -/
def signerFields : Object :=
  [(Fields.signingPubKey, .blob [0xED, 0x01]), (Fields.account, .account Account.one)]

/-- A flag and a list of signers. -/
def signedFlags : Object :=
  [(Fields.flags, .uint32 5), (Fields.signers, .array [[(Fields.signer, .object signerFields)]])]

theorem wireFormed_signedFlags : signedFlags.WireFormed := by
  have flags : (Value.uint32 5).Shaped Fields.flags :=
    Value.shaped_of_isAtom rfl (by decide) (Fields.registered_of_mem (by simp [Fields.all]))
      (by decide)
  have key : (Value.blob [0xED, 0x01]).Shaped Fields.signingPubKey :=
    Value.shaped_of_isAtom rfl (by decide) (Fields.registered_of_mem (by simp [Fields.all]))
      (by decide)
  have account : (Value.account Account.one).Shaped Fields.account :=
    Value.shaped_of_isAtom rfl (by decide) (Fields.registered_of_mem (by simp [Fields.all]))
      (by decide)
  have signer : (Value.object signerFields).Encodable Fields.signer :=
    ⟨⟨⟨by decide, by rintro _ ⟨⟩; decide, nofun⟩, Fields.registered_of_mem (by simp [Fields.all]),
      by decide, nofun, nofun, nofun⟩, by decide, nofun, nofun⟩
  have wrapped : ∀ element ∈ [[(Fields.signer, Value.object signerFields)]],
      ∃ wrapper inner, element = [(wrapper, Value.object inner)] := by
    intro element member
    cases List.mem_singleton.mp member
    exact ⟨_, _, rfl⟩
  have signers : (Value.array [[(Fields.signer, .object signerFields)]]).Encodable Fields.signers :=
    ⟨⟨⟨by decide, nofun, nofun⟩, Fields.registered_of_mem (by simp [Fields.all]), by decide,
      by rintro _ ⟨⟩; exact wrapped, nofun, nofun⟩, by decide, nofun, nofun⟩
  refine ⟨by decide, ?_, by decide⟩
  have shortKey : ∀ bytes, Value.blob [0xED, 0x01] = .blob bytes →
      bytes.length ≤ Limits.maximumLength := by
    rintro _ ⟨⟩
    decide
  have inner : Object.All Value.Encodable signerFields :=
    ⟨⟨key, by decide, shortKey, nofun⟩, trivial, ⟨account, by decide, nofun, nofun⟩, trivial,
      trivial⟩
  exact ⟨⟨flags, by decide, nofun, nofun⟩, trivial, signers,
    ⟨⟨signer, inner, trivial⟩, trivial⟩, trivial⟩

theorem ofBytes_toBytes_signedFlags :
    ∃ bytes text decoded, signedFlags.toBytes = .ok bytes ∧ ofBytes bytes = .ok decoded ∧
      signedFlags.toHex = .ok text ∧ ofHex text = .ok decoded ∧ same decoded signedFlags = true :=
  ofBytes_toBytes signedFlags wireFormed_signedFlags

end Object

end RoundTrip

end LedgerWire
