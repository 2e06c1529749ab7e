import LedgerWire.Proofs.Object.Wire
import LedgerWire.Proofs.Value.Decoding

namespace LedgerWire

open Reader

/-!
Decoding is canonical. Whatever bytes an object is read from, every entry at every level is one that
can be written, and the object is read back from what is written for it. The fields of an object
change places when it is written again, and the type bytes of path sets may become fewer; all other
bytes are kept.
-/

section Rearranging

/-- Entries in another order are written as the same bytes in another order. -/
theorem Object.write_perm {left right : Object} (perm : left.Perm right)
    (kept : ∀ entry ∈ left, entry.2.fits entry.1.codec = true ∧ entry.1.isSerialized = true)
    {bytes : Bytes} (written : Object.write .all left = .ok bytes) :
    ∃ others, Object.write .all right = .ok others ∧ others.Perm bytes := by
  induction perm generalizing bytes with
  | nil => exact ⟨bytes, written, List.Perm.refl bytes⟩
  | cons entry _ ih =>
      obtain ⟨here, keptRest⟩ := List.forall_mem_cons.mp kept
      obtain ⟨front, back, valueWritten, restWritten, rfl⟩ :=
        (Object.write_cons_eq_ok here.1 here.2).mp written
      obtain ⟨others, othersWritten, same⟩ := ih keptRest restWritten
      exact ⟨_, (Object.write_cons_eq_ok here.1 here.2).mpr
        ⟨front, others, valueWritten, othersWritten, rfl⟩, same.append_left _⟩
  | swap first second rest =>
      obtain ⟨here, keptRest⟩ := List.forall_mem_cons.mp kept
      obtain ⟨next, _⟩ := List.forall_mem_cons.mp keptRest
      obtain ⟨front, _, secondWritten, othersWritten, rfl⟩ :=
        (Object.write_cons_eq_ok here.1 here.2).mp written
      obtain ⟨middle, back, firstWritten, restWritten, rfl⟩ :=
        (Object.write_cons_eq_ok next.1 next.2).mp othersWritten
      have behind := (Object.write_cons_eq_ok here.1 here.2).mpr
        ⟨front, back, secondWritten, restWritten, rfl⟩
      exact ⟨_, (Object.write_cons_eq_ok next.1 next.2).mpr
        ⟨middle, _, firstWritten, behind, rfl⟩, List.perm_append_comm_assoc _ _ _⟩
  | trans firstPerm _ firstIh secondIh =>
      obtain ⟨_, middleWritten, same⟩ := firstIh kept written
      obtain ⟨others, othersWritten, sameAgain⟩ := secondIh
        (fun entry member => kept entry (firstPerm.mem_iff.mpr member)) middleWritten
      exact ⟨others, othersWritten, sameAgain.trans same⟩

theorem Elements.writeEach_append {elements others : Elements} {front back : Bytes}
    (wraps : ∀ element ∈ elements, ∃ wrapper inner, element = [(wrapper, .object inner)])
    (written : Elements.writeEach elements = .ok front)
    (othersWritten : Elements.writeEach others = .ok back) :
    Elements.writeEach (elements ++ others) = .ok (front ++ back) := by
  induction elements generalizing front with
  | nil =>
      rw [Elements.writeEach, Output.ok_inj] at written
      subst written
      exact othersWritten
  | cons element rest ih =>
      obtain ⟨⟨wrapper, inner, rfl⟩, wrapsRest⟩ := List.forall_mem_cons.mp wraps
      obtain ⟨body, more, innerWritten, restWritten, rfl⟩ :=
        Elements.writeEach_wrapped_eq_ok.mp written
      rw [List.append_assoc]
      exact Elements.writeEach_wrapped_eq_ok.mpr
        ⟨body, more ++ back, innerWritten, ih wrapsRest restWritten, rfl⟩

end Rearranging

section Promises

/-- What the fields of an object that were read promise, within so many levels, the object's own
included. -/
structure Object.ReadFrom (levels : Nat) (taken : Bytes) (object : Object) : Prop where
  ascending : object.Ascending
  entries : object.All Value.Canonical
  shallow : object.depth < levels
  rearranged : (object.All fun _ value => value.Pathless) →
    ∃ written, Object.write .all object = .ok written ∧ written.Perm taken

/-- What the elements of an array that were read promise. -/
structure Elements.ReadFrom (levels : Nat) (taken : Bytes) (elements : Elements) : Prop where
  entries : Elements.All Value.Canonical elements
  wrapped : ∀ element ∈ elements, ∃ wrapper inner, element = [(wrapper, .object inner)]
  shallow : Elements.depth elements < levels
  rearranged : Elements.All (fun _ value => value.Pathless) elements →
    ∃ written, Elements.writeEach elements = .ok written ∧ written.Perm taken

variable {levels : Nat} {field : Field} {value : Value} {object : Object} {elements : Elements}
  {body front : Bytes}

theorem Value.ReadFrom.ofObject (wired : field.Wired) (codec : field.codec = .plain .object)
    (inner : object.ReadFrom levels body) :
    (Value.object object).ReadFrom levels field (body ++ [objectEnd]) := by
  have proper : (Value.object object).Proper := inner.ascending
  refine ⟨proper.canonical wired (by rw [codec]; rfl), inner.entries, inner.shallow,
    fun _ pathless => ?_⟩
  obtain ⟨written, fieldsWritten, same⟩ := inner.rearranged pathless
  refine ⟨written ++ [objectEnd], ?_, same.append_right _⟩
  rw [Value.writeRaw, fieldsWritten]
  rfl

theorem Value.ReadFrom.ofArray (wired : field.Wired) (codec : field.codec = .plain .array)
    (inner : elements.ReadFrom levels body) :
    (Value.array elements).ReadFrom levels field (body ++ [arrayEnd]) := by
  have proper : (Value.array elements).Proper := inner.wrapped
  refine ⟨proper.canonical wired (by rw [codec]; rfl), inner.entries, inner.shallow,
    fun _ pathless => ?_⟩
  obtain ⟨written, elementsWritten, same⟩ := inner.rearranged pathless
  refine ⟨written ++ [arrayEnd], ?_, same.append_right _⟩
  rw [Value.writeRaw, elementsWritten]
  rfl

/-- What a value's reader promises, given what the readers of objects and arrays do. -/
theorem Value.yields_with {objects : Reader Object} {arrays : Reader Elements}
    (wired : field.Wired)
    (objectsYield : Yields objects fun taken object =>
      ∃ body, taken = body ++ [objectEnd] ∧ object.ReadFrom levels body)
    (arraysYield : Yields arrays fun taken elements =>
      ∃ body, taken = body ++ [arrayEnd] ∧ Elements.ReadFrom levels body elements) :
    Yields (Value.readWith objects arrays field) (Value.ReadFrom levels field) := by
  by_cases isObject : field.codec = .plain .object
  · rw [Value.readWith, isObject]
    refine objectsYield.map ?_
    rintro _ object ⟨body, rfl, inner⟩
    exact .ofObject wired isObject inner
  · by_cases isArray : field.codec = .plain .array
    · rw [Value.readWith, isArray]
      refine arraysYield.map ?_
      rintro _ elements ⟨body, rfl, inner⟩
      exact .ofArray wired isArray inner
    · exact Value.yields_plain objects arrays wired isObject isArray

theorem Object.ReadFrom.empty : Object.ReadFrom (levels + 1) [] [] :=
  ⟨List.Pairwise.nil, trivial, Nat.succ_pos levels, fun _ => ⟨[], rfl, List.Perm.refl []⟩⟩

theorem Object.ReadFrom.place (before : object.ReadFrom (levels + 1) body) (wired : field.Wired)
    (absent : ∀ entry ∈ object, entry.1.key ≠ field.key)
    (inner : value.ReadFrom levels field front) :
    (object.place field value).ReadFrom (levels + 1) (body ++ (field.header ++ front)) := by
  have perm : (object.place field value).Perm ((field, value) :: object) :=
    Object.place_perm absent
  have entries : Object.All Value.Canonical ((field, value) :: object) :=
    ⟨inner.canonical, inner.inside, before.entries⟩
  refine ⟨before.ascending.place field value, entries.perm perm.symm, ?_, fun pathless => ?_⟩
  · exact Nat.lt_succ_of_le
      (Object.depth_place_le (Nat.le_of_lt_succ before.shallow) inner.shallow)
  · obtain ⟨here, inside, others⟩ := pathless.perm perm
    obtain ⟨valueBytes, valueWritten, sameValue⟩ := inner.rearranged here inside
    obtain ⟨otherBytes, othersWritten, sameOthers⟩ := before.rearranged others
    have kept : ∀ entry ∈ (field, _) :: object,
        entry.2.fits entry.1.codec = true ∧ entry.1.isSerialized = true := fun entry member =>
      have canonical := (Object.all_iff.mp entries entry member).1
      ⟨canonical.fits, canonical.serialized⟩
    have written := (Object.write_cons_eq_ok inner.canonical.fits wired.serialized).mpr
      ⟨valueBytes, otherBytes, valueWritten, othersWritten, rfl⟩
    obtain ⟨bytes, placedWritten, sameBytes⟩ := Object.write_perm perm.symm kept written
    have sameParts : (field.header ++ valueBytes ++ otherBytes).Perm
        (field.header ++ front ++ body) := (sameValue.append_left field.header).append sameOthers
    exact ⟨bytes, placedWritten, (sameBytes.trans sameParts).trans List.perm_append_comm⟩

theorem Elements.ReadFrom.empty : Elements.ReadFrom (levels + 1) [] [] :=
  ⟨trivial, by rintro _ ⟨⟩, Nat.succ_pos levels, fun _ => ⟨[], rfl, List.Perm.refl []⟩⟩

theorem Elements.ReadFrom.append (before : Elements.ReadFrom (levels + 1) body elements)
    (wired : field.Wired) (codec : field.codec = .plain .object)
    (inner : object.ReadFrom levels front) :
    Elements.ReadFrom (levels + 1) (body ++ (field.header ++ (front ++ [objectEnd])))
      (elements ++ [[(field, .object object)]]) := by
  have wrapper := Value.ReadFrom.ofObject wired codec inner
  refine ⟨?_, ?_, ?_, fun pathless => ?_⟩
  · rw [Elements.all_iff, List.forall_mem_append, ← Elements.all_iff]
    exact ⟨before.entries, List.forall_mem_singleton.mpr ⟨wrapper.canonical, wrapper.inside, trivial⟩⟩
  · rw [List.forall_mem_append]
    exact ⟨before.wrapped, List.forall_mem_singleton.mpr ⟨field, object, rfl⟩⟩
  · have shallow := Nat.le_of_lt_succ before.shallow
    rw [Nat.lt_succ_iff, Elements.depth_le_iff, List.forall_mem_append, ← Elements.depth_le_iff]
    exact ⟨shallow, List.forall_mem_singleton.mpr (Nat.max_le.mpr ⟨inner.shallow, Nat.zero_le _⟩)⟩
  · rw [Elements.all_iff, List.forall_mem_append, ← Elements.all_iff,
      List.forall_mem_singleton] at pathless
    obtain ⟨others, _, inside, _⟩ := pathless
    obtain ⟨otherBytes, othersWritten, sameOthers⟩ := before.rearranged others
    obtain ⟨innerBytes, innerWritten, sameInner⟩ := inner.rearranged inside
    have written : Elements.writeEach [[(field, .object object)]] =
        .ok (field.header ++ (innerBytes ++ [objectEnd]) ++ []) :=
      Elements.writeEach_wrapped_eq_ok.mpr ⟨innerBytes, [], innerWritten, rfl, rfl⟩
    rw [List.append_nil] at written
    exact ⟨_, Elements.writeEach_append before.wrapped othersWritten written,
      sameOthers.append ((sameInner.append_right _).append_left _)⟩

end Promises

section Readers

variable {levels : Nat} {object : Object} {elements : Elements} {body : Bytes}

theorem Object.yields_field {readValue : Field → Reader Value}
    (values : ∀ field, field.Wired → Yields (readValue field) (Value.ReadFrom levels field))
    (before : object.ReadFrom (levels + 1) body) (first : UInt8) :
    Yields (Object.readField readValue object first) fun more next =>
      next.ReadFrom (levels + 1) (body ++ first :: more) := by
  refine (Field.yields_from first).bind ?_
  rintro header field ⟨split, registered, serialized⟩
  split
  · exact Yields.fail _
  · rename_i notMarker
    split
    · exact Yields.fail _
    · rename_i absent
      have wired : field.Wired := ⟨registered, serialized, Bool.eq_false_iff.mpr notMarker⟩
      have others := Object.contains_eq_false.mp (Bool.eq_false_iff.mpr absent)
      refine (values field wired).bind ?_
      intro front value inner
      refine (Yields.ofExcept _).mono ?_
      rintro _ next ⟨rfl, placed⟩
      obtain ⟨_, rfl⟩ := Object.set_eq_ok.mp (mapError_eq_ok.mp placed)
      have after := before.place wired others inner
      rw [split] at after
      rw [List.append_nil]
      exact after

/-- A wrapper is no end marker: that of objects is refused, and that of arrays has another type. -/
theorem Field.wired_of_wrapper {wrapper : Field} (registered : wrapper.Registered)
    (serialized : wrapper.isSerialized = true) (isObject : wrapper.type = .object)
    (notEnd : wrapper.same Fields.objectEndMarker = false) : wrapper.Wired := by
  refine ⟨registered, serialized, Bool.or_eq_false_iff.mpr ⟨notEnd, ?_⟩⟩
  refine Bool.eq_false_iff.mpr fun same => ?_
  have marker : Fields.arrayEndMarker.Registered := Fields.registered_of_mem (by simp [Fields.all])
  rw [registered.eq_of_key marker (Field.same_iff.mp same)] at isObject
  contradiction

theorem Elements.yields_element {readObject : Reader Object}
    (objects : Yields readObject fun taken object =>
      ∃ body, taken = body ++ [objectEnd] ∧ object.ReadFrom levels body)
    (before : Elements.ReadFrom (levels + 1) body elements.reverse) (first : UInt8) :
    Yields (Elements.readElement readObject elements first) fun more next =>
      Elements.ReadFrom (levels + 1) (body ++ first :: more) next.reverse := by
  refine (Field.yields_from first).bind ?_
  rintro header wrapper ⟨split, registered, serialized⟩
  split
  · exact Yields.fail _
  · rename_i proper
    rw [not_or, not_not, Bool.not_eq_true] at proper
    have wired := Field.wired_of_wrapper registered serialized proper.1 proper.2
    refine objects.bind ?_
    rintro _ inner ⟨front, rfl, readFrom⟩
    refine (Yields.ofExcept _).map ?_
    rintro _ element ⟨rfl, wrapped⟩
    obtain ⟨fits, rfl⟩ := Object.set_eq_ok.mp (mapError_eq_ok.mp wrapped)
    have after := before.append wired (Value.codec_of_object fits) readFrom
    rw [split] at after
    rw [List.append_nil, List.reverse_cons]
    exact after

/-- An object one level further out, given what the readers of the levels inside it promise. -/
theorem Object.yields_succ (endMarker : Option UInt8)
    (objects : Yields (Object.readLevels levels (some objectEnd)) fun taken object =>
      ∃ body, taken = body ++ [objectEnd] ∧ object.ReadFrom levels body)
    (arrays : Yields (Elements.readLevels levels) fun taken elements =>
      ∃ body, taken = body ++ [arrayEnd] ∧ Elements.ReadFrom levels body elements) :
    Yields (Object.readLevels (levels + 1) endMarker) fun taken object =>
      ∃ body, taken = body ++ endMarker.toList ∧ object.ReadFrom (levels + 1) body := by
  have values (field : Field) (wired : field.Wired) :
      Yields (Value.readBelow levels field) (Value.ReadFrom levels field) :=
    Yields.delay (Value.yields_with wired objects arrays)
  rw [Object.readLevels]
  refine (Yields.fold Object.ReadFrom.empty fun body object first _ before =>
    Object.yields_field values before first).mono ?_
  rintro taken object (⟨atEnd, readFrom⟩ | ⟨body, last, rfl, ends, readFrom⟩)
  · rw [Option.map_eq_none_iff.mp atEnd]
    exact ⟨taken, (List.append_nil taken).symm, readFrom⟩
  · rw [beq_iff_eq.mp ends]
    exact ⟨body, rfl, readFrom⟩

/-- An array one level further out, given what the reader of the objects inside it promises. -/
theorem Elements.yields_succ
    (objects : Yields (Object.readLevels levels (some objectEnd)) fun taken object =>
      ∃ body, taken = body ++ [objectEnd] ∧ object.ReadFrom levels body) :
    Yields (Elements.readLevels (levels + 1)) fun taken elements =>
      ∃ body, taken = body ++ [arrayEnd] ∧ Elements.ReadFrom (levels + 1) body elements := by
  have delayed : Yields (Reader.delay fun _ => Object.readLevels levels (some objectEnd)) _ :=
    Yields.delay objects
  rw [Elements.readLevels]
  -- The loop holds the elements latest first, so the invariant is about their reverse.
  have loop := @Yields.fold Elements (some (.unexpectedEnd "array end marker")) (· == arrayEnd) _
    (fun body elements => Elements.ReadFrom (levels + 1) body elements.reverse) []
    Elements.ReadFrom.empty fun _ _ first _ before => Elements.yields_element delayed before first
  refine loop.map ?_
  rintro taken elements (⟨_, _⟩ | ⟨body, last, rfl, ends, readFrom⟩)
  · contradiction
  · rw [beq_iff_eq.mp ends]
    exact ⟨body, rfl, readFrom⟩

/-- The readers of objects and arrays keep their promises at every level. -/
theorem yields_levels (levels : Nat) :
    (∀ endMarker : Option UInt8, Yields (Object.readLevels levels endMarker) fun taken object =>
      ∃ body, taken = body ++ endMarker.toList ∧ object.ReadFrom levels body) ∧
    Yields (Elements.readLevels levels) fun taken elements =>
      ∃ body, taken = body ++ [arrayEnd] ∧ Elements.ReadFrom levels body elements := by
  induction levels with
  | zero =>
      rw [Elements.readLevels]
      refine ⟨fun endMarker => ?_, Yields.fail _⟩
      rw [Object.readLevels]
      exact Yields.fail _
  | succ levels ih =>
      obtain ⟨objects, arrays⟩ := ih
      have nested := objects (some objectEnd)
      exact ⟨fun endMarker => Object.yields_succ endMarker nested arrays,
        Elements.yields_succ nested⟩

end Readers

namespace Object

variable {bytes : Bytes} {object : Object}

/-- A decoded object keeps the promise of its reader for all of its bytes. -/
theorem readFrom_of_ofBytes (decoded : ofBytes bytes = .ok object) :
    object.ReadFrom (Limits.maximumDepth + 1) bytes := by
  obtain ⟨rest, run⟩ := Reader.decode_eq_ok.mp decoded
  obtain ⟨_, split, body, rfl, readFrom⟩ := (yields_levels _).1 none bytes object rest run
  -- No byte ends the outermost loop, so nothing is left.
  have nothing : rest = [] := by
    change (readLevels (Limits.maximumDepth + 1) none).run bytes = _ at run
    rw [readLevels] at run
    exact Reader.rest_of_foldRun (fun _ => rfl) run
  have whole : bytes = body := by
    rw [split, nothing, List.append_nil, Option.toList_none, List.append_nil]
  rw [whole]
  exact readFrom

theorem ReadFrom.wireFormed (readFrom : object.ReadFrom (Limits.maximumDepth + 1) bytes) :
    object.WireFormed where
  ascending := readFrom.ascending
  entries := readFrom.entries.mono fun _ _ canonical => canonical.toEncodable
  nesting := Nat.le_of_lt_succ readFrom.shallow

/-- Entries that can be written, with amounts in bounds, are read back as they are. -/
theorem kept_of_canonical (entries : object.All Value.Canonical) :
    object.pruned.settled = object := by
  rw [pruned_eq_self (entries.mono fun _ _ canonical => canonical.serialized)]
  refine settled_eq_self (entries.mono fun _ value canonical => ?_)
  intro amount same
  exact (canonical.amounts amount same).settled

/-- Whatever is decoded can be written, and is decoded again from what is written; without path
sets, these are as many bytes as those that it was decoded from. -/
theorem ofBytes_canonical (decoded : ofBytes bytes = .ok object) :
    (object.Ascending ∧ object.All Value.Canonical ∧ object.depth ≤ Limits.maximumDepth) ∧
      ∃ canonical again, object.toBytes = .ok canonical ∧ ofBytes canonical = .ok again ∧
        again = object ∧ again.toBytes = .ok canonical ∧
        ((object.All fun _ value => value.Pathless) → canonical.length = bytes.length) := by
  have readFrom := readFrom_of_ofBytes decoded
  have formed := readFrom.wireFormed
  obtain ⟨canonical, written⟩ := formed.exists_write
  have readBack := ofBytes_of_write formed.shaped written
  rw [kept_of_canonical readFrom.entries] at readBack
  have bytesWritten : object.toBytes = .ok canonical := Output.toExcept_eq_ok.mpr written
  refine ⟨⟨formed.ascending, readFrom.entries, formed.nesting⟩, canonical, object, bytesWritten,
    readBack, rfl, bytesWritten, fun pathless => ?_⟩
  obtain ⟨rearranged, rearrangedWritten, same⟩ := readFrom.rearranged pathless
  rw [written, Output.ok_inj] at rearrangedWritten
  rw [rearrangedWritten]
  exact same.length_eq

/-- A sequence number before a flag, out of the canonical order. -/
def sequenceBeforeFlags : Bytes :=
  [0x24, 0, 0, 0, 1] ++ [0x22, 0, 0, 0, 2]

theorem ofBytes_sequenceBeforeFlags :
    ofBytes sequenceBeforeFlags =
      .ok [(Fields.flags, .uint32 2), (Fields.sequence, .uint32 1)] := by
  have number (field : Field) (codec : field.codec = .plain .uint32) (value : UInt32) :
      Reads (Value.readBelow Limits.maximumDepth field) (Bytes.bigEndian 4 value.toNat)
        (.uint32 value) := by
    apply Reads.delay
    rw [Value.readWith, codec]
    exact (Reads.uint32 _ value).map (Reads.pure _)
  have sequence : Folds none (fun byte => (none : Option UInt8) == some byte)
      (readField (Value.readBelow Limits.maximumDepth)) [] [0x24, 0, 0, 0, 1]
      [(Fields.sequence, .uint32 1)] :=
    Folds.single rfl (reads_field (Fields.registered_of_mem (by simp [Fields.all])) rfl
      (by decide) rfl (by decide)
      (by rintro _ ⟨⟩) (number Fields.sequence (by decide) 1))
  have flags : Folds none (fun byte => (none : Option UInt8) == some byte)
      (readField (Value.readBelow Limits.maximumDepth)) [(Fields.sequence, .uint32 1)]
      [0x22, 0, 0, 0, 2] (place Fields.flags (.uint32 2) [(Fields.sequence, .uint32 1)]) :=
    Folds.single rfl (reads_field (Fields.registered_of_mem (by simp [Fields.all])) rfl
      (by decide) rfl (by decide)
      (List.forall_mem_singleton.mpr (by decide)) (number Fields.flags (by decide) 2))
  rw [place, if_pos (by decide)] at flags
  exact ofBytes_of_folds (sequence.trans flags)

theorem ofBytes_canonical_sequenceBeforeFlags :
    ∃ object, ofBytes sequenceBeforeFlags = .ok object ∧
      object.toBytes = .ok [0x22, 0, 0, 0, 2, 0x24, 0, 0, 0, 1] ∧
      ofBytes [0x22, 0, 0, 0, 2, 0x24, 0, 0, 0, 1] = .ok object ∧
      10 = sequenceBeforeFlags.length := by
  have decoded := ofBytes_sequenceBeforeFlags
  have ordered : toBytes [(Fields.flags, .uint32 2), (Fields.sequence, .uint32 1)] =
      .ok [0x22, 0, 0, 0, 2, 0x24, 0, 0, 0, 1] := rfl
  obtain ⟨_, canonical, _, written, readBack, rfl, _, length⟩ := ofBytes_canonical decoded
  cases ordered.symm.trans written
  exact ⟨_, decoded, ordered, readBack,
    length ⟨by rintro _ ⟨⟩, trivial, by rintro _ ⟨⟩, trivial, trivial⟩⟩

end Object

end LedgerWire
