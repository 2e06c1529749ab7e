import LedgerWire.Proofs.Object.Faults
import LedgerWire.Proofs.Object.Wire

namespace LedgerWire

/-!
Equality and the written form. Equality goes by keys, and does not see what else a field's
descriptor says, nor whether an amount is unbounded. Equal objects are written as the same bytes
nevertheless, since only the key of a field and the value of an amount reach the wire. The bytes
that signatures cover depend on one thing more: the mark of each field of the object itself that
tells whether signatures cover it.
-/

namespace Output

/-- Both outputs are complete and hold the same bytes, or neither is complete. -/
def Alike (first second : Output) : Prop :=
  ∀ bytes, first = .ok bytes ↔ second = .ok bytes

variable {first second firstRest secondRest : Output}

theorem Alike.refl (output : Output) : Alike output output := fun _ => Iff.rfl

theorem alike_fail (first second : EncodeError) : Alike (.fail first) (.fail second) := fun _ =>
  iff_of_false fail_ne_ok fail_ne_ok

theorem Alike.append (fronts : Alike first second) (rests : Alike firstRest secondRest) :
    Alike (first ++ firstRest) (second ++ secondRest) := by
  intro bytes
  simp only [append_eq_ok, fronts _, rests _]

theorem Alike.toExcept (alike : Alike first second) (bytes : Bytes) :
    first.toExcept = .ok bytes ↔ second.toExcept = .ok bytes := by
  rw [toExcept_eq_ok, toExcept_eq_ok, alike bytes]

end Output

open Output

/-!
The name of a field is for messages only.
-/

section Names

variable (left right : String)

theorem Framing.alike_lengthPrefix (length : Nat) :
    Alike (lengthPrefix left length) (lengthPrefix right length) := by
  rw [lengthPrefix, lengthPrefix]
  split
  · exact Alike.refl _
  · exact alike_fail _ _

theorem Framing.alike_lengthPrefixed (bytes : Bytes) :
    Alike (lengthPrefixed left bytes) (lengthPrefixed right bytes) :=
  (alike_lengthPrefix left right bytes.length).append (Alike.refl _)

theorem Hop.alike_write (hop : Hop) : Alike (hop.write left) (hop.write right) := by
  rw [write, write]
  split
  · exact alike_fail _ _
  · exact Alike.refl _

theorem PathSet.alike_writePath (path : Path) :
    Alike (writePath left path) (writePath right path) := by
  induction path with
  | nil => exact Alike.refl _
  | cons hop rest ih => exact (hop.alike_write left right).append ih

theorem PathSet.alike_writePaths (paths : PathSet) :
    Alike (writePaths left paths) (writePaths right paths) := by
  induction paths with
  | nil => exact Alike.refl _
  | cons path rest ih =>
      cases rest with
      | nil => exact alike_writePath left right path
      | cons next others =>
          exact ((alike_writePath left right path).append (Alike.refl _)).append ih

theorem PathSet.alike_write (paths : PathSet) :
    Alike (write left paths) (write right paths) :=
  (alike_writePaths left right paths).append (Alike.refl _)

end Names

section Plain

theorem Hop.same_iff {left right : Hop} : left.same right = true ↔ left = right := by
  obtain ⟨leftAccount, leftCurrency, leftIssuer⟩ := left
  obtain ⟨rightAccount, rightCurrency, rightIssuer⟩ := right
  cases leftCurrency <;> cases rightCurrency <;> grind [same, Currency.same_iff]

private theorem eq_of_isEqv {α : Type} {same : α → α → Bool}
    (sound : ∀ left right, same left right = true → left = right) {left right : List α}
    (equal : left.isEqv right same = true) : left = right := by
  induction left generalizing right with
  | nil =>
      cases right with
      | nil => rfl
      | cons => contradiction
  | cons first rest ih =>
      cases right with
      | nil => contradiction
      | cons other others =>
          rw [List.isEqv, Bool.and_eq_true] at equal
          rw [sound first other equal.1, ih equal.2]

theorem PathSet.eq_of_same {left right : PathSet} (equal : PathSet.same left right = true) :
    left = right :=
  eq_of_isEqv (fun _ _ => eq_of_isEqv fun _ _ => Hop.same_iff.mp) equal

/-- Equal amounts are one amount on the wire. -/
theorem Amount.settled_eq_of_same {left right : Amount} (equal : left.same right = true) :
    left.settled = right.settled := by
  obtain ⟨leftValue, leftCurrency, leftIssuer, leftUnbounded⟩ := left
  obtain ⟨rightValue, rightCurrency, rightIssuer, rightUnbounded⟩ := right
  obtain ⟨value, currency, issuer⟩ := Amount.same_iff.mp equal
  rw [Currency.same_iff] at currency
  cases value
  cases currency
  cases issuer
  rfl

theorem Amount.alike_of_same {left right : Amount} (leftValid : left.Valid)
    (rightValid : right.Valid) (equal : left.same right = true) (leftName rightName : String) :
    Alike (.ofExcept (left.toBytesFor leftName)) (.ofExcept (right.toBytesFor rightName)) := by
  obtain ⟨leftBytes, leftWritten, _, leftReads⟩ := reads_toBytesFor leftValid leftName
  obtain ⟨rightBytes, rightWritten, _, rightReads⟩ := reads_toBytesFor rightValid rightName
  obtain ⟨_, leftAgain, leftSplit⟩ := toBytesFor_of_read (leftReads []) leftName
  obtain ⟨_, rightAgain, rightSplit⟩ := toBytesFor_of_read (rightReads []) leftName
  rw [settled_eq_of_same equal, rightAgain] at leftAgain
  rw [List.append_cancel_right leftSplit, ← Except.ok.inj leftAgain,
    ← List.append_cancel_right rightSplit] at leftWritten
  rw [leftWritten, rightWritten]
  exact Alike.refl _

end Plain

/-!
Fields and values that are equal in pairs.
-/

section Levels

variable {left right : Object} {leftField rightField : Field} {leftValue rightValue : Value}

/-- For each field of the object, whether the filter admits it. -/
def Object.marks (filter : FieldFilter) (object : Object) : List Bool :=
  object.map fun entry => filter.admits entry.1

theorem Object.same_cons_iff {entry : Field × Value} :
    Object.same (entry :: left) right = true ↔
      ∃ other rest, right = other :: rest ∧ entry.1.key = other.1.key ∧
        entry.2.same other.2 = true ∧ Object.same left rest = true := by
  cases right with
  | nil => simp [Object.same]
  | cons other rest =>
      obtain ⟨field, value⟩ := entry
      obtain ⟨otherField, otherValue⟩ := other
      simp [Object.same, Field.same_iff, and_assoc]

theorem Value.same_object_iff {fields : Object} :
    (Value.object fields).same rightValue = true ↔
      ∃ others, rightValue = .object others ∧ Object.same fields others = true := by
  cases rightValue <;> simp [Value.same]

theorem Value.same_array_iff {elements : Elements} :
    (Value.array elements).same rightValue = true ↔
      ∃ others, rightValue = .array others ∧ Elements.same elements others = true := by
  cases rightValue <;> simp [Value.same]

theorem Object.marks_all_of_same (equal : Object.same left right = true) :
    left.marks .all = right.marks .all := by
  induction left generalizing right with
  | nil =>
      cases right with
      | nil => rfl
      | cons => contradiction
  | cons entry rest ih =>
      obtain ⟨other, others, rfl, keys, _, rests⟩ := Object.same_cons_iff.mp equal
      have first : FieldFilter.all.admits entry.1 = FieldFilter.all.admits other.1 :=
        Field.isSerialized_eq_of_key keys
      have following := ih rests
      simp only [marks] at following
      rw [marks, marks, List.map_cons, List.map_cons, first, following]

/-- An object that equals a single field with an object is one itself. -/
theorem Object.wraps_of_same {wrapper : Field} {inner : Object}
    (equal : Object.same left [(wrapper, .object inner)] = true) :
    ∃ wrapper inner, left = [(wrapper, .object inner)] := by
  match left with
  | [] => contradiction
  | (field, value) :: rest =>
      obtain ⟨other, others, split, _, values, rests⟩ := Object.same_cons_iff.mp equal
      cases split
      cases rest with
      | nil =>
          cases value <;> simp [Value.same] at values
          exact ⟨field, _, rfl⟩
      | cons => contradiction

/-- Equal plain values are one value, except that amounts may differ in a mark. -/
theorem Value.eq_of_same_plain (equal : leftValue.same rightValue = true)
    (notObject : ∀ fields, leftValue ≠ .object fields)
    (notArray : ∀ elements, leftValue ≠ .array elements)
    (notAmount : ∀ amount, leftValue ≠ .amount amount) : leftValue = rightValue := by
  cases leftValue with
  | pathSet paths =>
      cases rightValue <;> simp only [Value.same, Bool.false_eq_true] at equal
      rw [PathSet.eq_of_same equal]
  | currency currency =>
      cases rightValue <;> simp only [Value.same, Bool.false_eq_true] at equal
      rw [Currency.same_iff.mp equal]
  | object fields => exact absurd rfl (notObject fields)
  | array elements => exact absurd rfl (notArray elements)
  | amount amount => exact absurd rfl (notAmount amount)
  | _ => cases rightValue <;> simp_all [Value.same]

theorem Value.alike_atom (value : Value) (leftField rightField : Field)
    (notObject : ∀ fields, value ≠ .object fields) (notArray : ∀ elements, value ≠ .array elements)
    (notAmount : ∀ amount, value ≠ .amount amount) :
    Alike (value.writeRaw leftField) (value.writeRaw rightField) := by
  cases value with
  | blob bytes => exact Framing.alike_lengthPrefixed _ _ bytes
  | account account => exact Framing.alike_lengthPrefixed _ _ account.toBytes
  | pathSet paths => exact PathSet.alike_write _ _ paths
  | vector256 hashes => exact (Framing.alike_lengthPrefix _ _ _).append (Alike.refl _)
  | object fields => exact absurd rfl (notObject fields)
  | array elements => exact absurd rfl (notArray elements)
  | amount amount => exact absurd rfl (notAmount amount)
  | _ => exact Alike.refl _

theorem Value.alike_plain (leftStored : leftValue.Stored leftField)
    (rightStored : rightValue.Stored rightField) (equal : leftValue.same rightValue = true)
    (notObject : ∀ fields, leftValue ≠ .object fields)
    (notArray : ∀ elements, leftValue ≠ .array elements) :
    Alike (leftValue.writeRaw leftField) (rightValue.writeRaw rightField) := by
  by_cases isAmount : ∃ amount, leftValue = .amount amount
  · obtain ⟨left, rfl⟩ := isAmount
    cases rightValue <;> simp only [Value.same, Bool.false_eq_true] at equal
    rename_i right
    exact Amount.alike_of_same (leftStored.built left rfl).valid (rightStored.built right rfl).valid
      equal leftField.name rightField.name
  · have notAmount : ∀ amount, leftValue ≠ .amount amount := fun amount same =>
      isAmount ⟨amount, same⟩
    rw [← eq_of_same_plain equal notObject notArray notAmount]
    exact alike_atom leftValue leftField rightField notObject notArray notAmount

/-- What an object writes after a field and its value, under a filter that admits both fields or
neither. -/
theorem Object.alike_cons {filter : FieldFilter} {leftRest rightRest : Object}
    (keys : leftField.key = rightField.key)
    (marks : filter.admits leftField = filter.admits rightField)
    (leftStored : leftValue.Stored leftField) (rightStored : rightValue.Stored rightField)
    (values : Alike (leftValue.writeRaw leftField) (rightValue.writeRaw rightField))
    (rests : Alike (Object.write filter leftRest) (Object.write filter rightRest)) :
    Alike (Object.write filter ((leftField, leftValue) :: leftRest))
      (Object.write filter ((rightField, rightValue) :: rightRest)) := by
  rw [Object.write, Object.write, Value.guarded, Value.guarded, if_pos leftStored.fits,
    if_pos rightStored.fits, marks, Field.header_eq_of_key keys]
  refine Alike.append ?_ rests
  split
  · exact (Alike.refl _).append values
  · exact Alike.refl _

theorem Elements.alike_wrapped {leftInner rightInner : Object} {leftRest rightRest : Elements}
    (keys : leftField.key = rightField.key)
    (inner : Alike (Object.write .all leftInner) (Object.write .all rightInner))
    (rests : Alike (Elements.writeEach leftRest) (Elements.writeEach rightRest)) :
    Alike (Elements.writeEach ([(leftField, .object leftInner)] :: leftRest))
      (Elements.writeEach ([(rightField, .object rightInner)] :: rightRest)) := by
  rw [Elements.writeEach, Elements.writeEach, Field.header_eq_of_key keys]
  exact (((Alike.refl _).append inner).append (Alike.refl _)).append rests

/-- Equal values are written alike, whatever their fields; equal objects too, under a filter that
admits the same of their own fields. Which fields it would admit further inside has no effect. -/
theorem alike_levels :
    Levels
      (fun left => ∀ right leftField rightField, left.same right = true →
        left.Stored leftField → right.Stored rightField → left.All Value.Stored →
        right.All Value.Stored → Alike (left.writeRaw leftField) (right.writeRaw rightField))
      (fun left => ∀ filter (right : Object), Object.same left right = true →
        left.marks filter = right.marks filter → left.All Value.Stored →
        right.All Value.Stored → Alike (Object.write filter left) (Object.write filter right))
      (fun left => ∀ right, Elements.same left right = true → Elements.All Value.Stored left →
        Elements.All Value.Stored right →
        Alike (Elements.writeEach left) (Elements.writeEach right)) where
  plain left notObject notArray right leftField rightField equal leftStored rightStored _ _ :=
    Value.alike_plain leftStored rightStored equal notObject notArray
  object fields inner right leftField rightField equal _ _ leftAll rightAll := by
    obtain ⟨others, rfl, same⟩ := Value.same_object_iff.mp equal
    have marks := Object.marks_all_of_same same
    exact (inner .all others same marks leftAll rightAll).append (Alike.refl _)
  array elements inner right leftField rightField equal _ _ leftAll rightAll := by
    obtain ⟨others, rfl, same⟩ := Value.same_array_iff.mp equal
    exact (inner others same leftAll rightAll).append (Alike.refl _)
  empty filter right equal _ _ _ := by
    cases right with
    | nil => exact Alike.refl _
    | cons => contradiction
  entry field value rest inner others filter right equal marks leftAll rightAll := by
    obtain ⟨⟨otherField, otherValue⟩, following, rfl, keys, values, rests⟩ :=
      Object.same_cons_iff.mp equal
    obtain ⟨leftStored, leftInside, leftRest⟩ := leftAll
    obtain ⟨rightStored, rightInside, rightRest⟩ := rightAll
    obtain ⟨mark, restMarks⟩ := List.cons.inj marks
    exact Object.alike_cons keys mark leftStored rightStored
      (inner otherValue field otherField values leftStored rightStored leftInside rightInside)
      (others filter following rests restMarks leftRest rightRest)
  none right equal _ _ := by
    cases right with
    | nil => exact Alike.refl _
    | cons => contradiction
  wrapped wrapper inner rest fields _ others right equal leftAll rightAll := by
    cases right with
    | nil => contradiction
    | cons element following =>
        rw [Elements.same, Bool.and_eq_true] at equal
        obtain ⟨⟨otherWrapper, value⟩, tail, rfl, keys, values, tails⟩ :=
          Object.same_cons_iff.mp equal.1
        obtain ⟨otherInner, rfl, same⟩ := Value.same_object_iff.mp values
        cases tail with
        | nil =>
            have marks := Object.marks_all_of_same same
            exact Elements.alike_wrapped keys
              (fields .all otherInner same marks leftAll.1.2.1 rightAll.1.2.1)
              (others following equal.2 leftAll.2 rightAll.2)
        | cons => contradiction
  malformed element rest malformed _ _ right equal _ _ := by
    cases right with
    | nil => contradiction
    | cons other following =>
        rw [Elements.same, Bool.and_eq_true] at equal
        have otherMalformed : ¬ ∃ wrapper inner, other = [(wrapper, .object inner)] := by
          rintro ⟨wrapper, inner, rfl⟩
          exact malformed (Object.wraps_of_same equal.1)
        rw [Elements.writeEach_malformed malformed, Elements.writeEach_malformed otherMalformed]
        exact alike_fail _ _

end Levels

/-!
The signed bytes tell marks apart: where the marks of two equal objects first differ, one of them
has the header of a field that the other has passed over.
-/

section Signed

variable {left right object : Object} {field other : Field} {value : Value}
  {bytes front back : Bytes}

theorem Field.isSerialized_of_isSigned (signed : field.isSigned = true) :
    field.isSerialized = true :=
  (Bool.and_eq_true_iff.mp signed).1

theorem Field.key_eq_of_header (leftSerialized : field.isSerialized = true)
    (rightSerialized : other.isSerialized = true)
    (same : field.header ++ front = other.header ++ back) : field.key = other.key := by
  have leftReads := Framing.reads_header field.type.code_isCode (isSerialized_iff.mp leftSerialized)
  have rightReads :=
    Framing.reads_header other.type.code_isCode (isSerialized_iff.mp rightSerialized)
  obtain ⟨sameCodes, _⟩ := leftReads.unique rightReads same
  obtain ⟨types, codes⟩ := Prod.mk.inj sameCodes
  simp only [key, types, codes]

namespace Object

/-- The signed bytes of an object start with the header of one of its signed fields, if there are
any. -/
theorem exists_header_of_write (stored : object.All Value.Stored)
    (written : write .signing object = .ok bytes) (nonempty : bytes ≠ []) :
    ∃ entry ∈ object, entry.1.isSigned = true ∧ ∃ more, bytes = entry.1.header ++ more := by
  induction object with
  | nil => exact absurd (Output.ok_inj.mp written).symm nonempty
  | cons entry rest ih =>
      obtain ⟨field, value⟩ := entry
      obtain ⟨here, _, others⟩ := stored
      cases signed : FieldFilter.signing.admits field with
      | true =>
          obtain ⟨front, back, _, _, rfl⟩ := (write_cons_admitted here.fits signed).mp written
          exact ⟨_, List.mem_cons_self, signed, front ++ back, List.append_assoc _ _ _⟩
      | false =>
          rw [write_cons_passed value rest signed] at written
          obtain ⟨later, member, found⟩ := ih others written
          exact ⟨later, List.mem_cons_of_mem _ member, found⟩

/-- The signed bytes of fields with larger keys do not start with the header of a signed field. -/
theorem write_signing_ne_header (stored : object.All Value.Stored)
    (above : ∀ later ∈ object, field.key < later.1.key) (signed : field.isSigned = true)
    (written : write .signing object = .ok bytes) : bytes ≠ field.header ++ front := by
  intro starts
  have nonempty : bytes ≠ [] := by
    rw [starts]
    exact List.append_ne_nil_of_left_ne_nil (Framing.header_ne_nil _ _) front
  obtain ⟨later, member, laterSigned, more, split⟩ := exists_header_of_write stored written nonempty
  have same : field.key = later.1.key :=
    Field.key_eq_of_header (Field.isSerialized_of_isSigned signed)
      (Field.isSerialized_of_isSigned laterSigned) (starts.symm.trans split)
  exact Nat.ne_of_lt (above later member) same

theorem marks_eq_of_write (equal : same left right = true) (leftAscending : left.Ascending)
    (rightAscending : right.Ascending) (leftAll : left.All Value.Stored)
    (rightAll : right.All Value.Stored) (leftWritten : write .signing left = .ok bytes)
    (rightWritten : write .signing right = .ok bytes) :
    left.marks .signing = right.marks .signing := by
  induction left generalizing right bytes with
  | nil =>
      cases right with
      | nil => rfl
      | cons => contradiction
  | cons entry rest ih =>
      obtain ⟨⟨otherField, otherValue⟩, others, rfl, keys, values, rests⟩ := same_cons_iff.mp equal
      obtain ⟨field, value⟩ := entry
      obtain ⟨leftAbove, leftOrdered⟩ := List.pairwise_cons.mp leftAscending
      obtain ⟨rightAbove, rightOrdered⟩ := List.pairwise_cons.mp rightAscending
      obtain ⟨leftStored, leftInside, leftRest⟩ := leftAll
      obtain ⟨rightStored, rightInside, rightRest⟩ := rightAll
      have later {following : Bytes} :=
        @ih _ following rests leftOrdered rightOrdered leftRest rightRest
      -- Where one side passes over a field that the other writes, its next header differs.
      cases leftSigned : FieldFilter.signing.admits field <;>
        cases rightSigned : FieldFilter.signing.admits otherField
      · rw [write_cons_passed value rest leftSigned] at leftWritten
        rw [write_cons_passed otherValue others rightSigned] at rightWritten
        exact congrArg₂ List.cons (leftSigned.trans rightSigned.symm)
          (later leftWritten rightWritten)
      · rw [write_cons_passed value rest leftSigned] at leftWritten
        obtain ⟨front, back, _, _, rfl⟩ :=
          (write_cons_admitted rightStored.fits rightSigned).mp rightWritten
        have above : ∀ later ∈ rest, otherField.key < later.1.key := keys ▸ leftAbove
        rw [List.append_assoc] at leftWritten
        exact absurd rfl (write_signing_ne_header leftRest above rightSigned leftWritten)
      · rw [write_cons_passed otherValue others rightSigned] at rightWritten
        obtain ⟨front, back, _, _, rfl⟩ :=
          (write_cons_admitted leftStored.fits leftSigned).mp leftWritten
        have above : ∀ later ∈ others, field.key < later.1.key := keys.symm ▸ rightAbove
        rw [List.append_assoc] at rightWritten
        exact absurd rfl (write_signing_ne_header rightRest above leftSigned rightWritten)
      · obtain ⟨front, back, valueWritten, restWritten, rfl⟩ :=
          (write_cons_admitted leftStored.fits leftSigned).mp leftWritten
        obtain ⟨otherFront, otherBack, otherWritten, othersWritten, split⟩ :=
          (write_cons_admitted rightStored.fits rightSigned).mp rightWritten
        have alike := alike_levels.value value otherValue field otherField values leftStored
          rightStored leftInside rightInside
        cases otherWritten.symm.trans ((alike front).mp valueWritten)
        rw [Field.header_eq_of_key keys] at split
        rw [← List.append_cancel_left split] at othersWritten
        exact congrArg₂ List.cons (leftSigned.trans rightSigned.symm)
          (later restWritten othersWritten)

/-- Registered fields with one key carry one mark. -/
theorem marks_eq_of_registered (filter : FieldFilter) (equal : same left right = true)
    (leftRegistered : ∀ entry ∈ left, entry.1.Registered)
    (rightRegistered : ∀ entry ∈ right, entry.1.Registered) :
    left.marks filter = right.marks filter := by
  induction left generalizing right with
  | nil =>
      cases right with
      | nil => rfl
      | cons => contradiction
  | cons entry rest ih =>
      obtain ⟨other, others, rfl, keys, _, rests⟩ := same_cons_iff.mp equal
      have fields : entry.1 = other.1 :=
        (leftRegistered entry List.mem_cons_self).eq_of_key
          (rightRegistered other List.mem_cons_self) keys
      exact congrArg₂ List.cons (congrArg filter.admits fields)
        (ih rests (fun entry member => leftRegistered entry (List.mem_cons_of_mem _ member))
          fun entry member => rightRegistered entry (List.mem_cons_of_mem _ member))

/-- Equal objects are written as the same bytes, or neither is written. The bytes that signatures
cover are the same where signatures cover the same of the objects' own fields, as they do of
registered ones, and only there. -/
theorem written_alike_of_same {left right : Object} (leftMade : left.Made) (rightMade : right.Made)
    (equal : same left right = true) :
    (∀ bytes, left.toBytes = .ok bytes ↔ right.toBytes = .ok bytes) ∧
    (left.marks .signing = right.marks .signing →
      ∀ bytes, left.toSigningBytes = .ok bytes ↔ right.toSigningBytes = .ok bytes) ∧
    (∀ bytes, left.toSigningBytes = .ok bytes → right.toSigningBytes = .ok bytes →
      left.marks .signing = right.marks .signing) ∧
    ((∀ entry ∈ left, entry.1.Registered) → (∀ entry ∈ right, entry.1.Registered) →
      left.marks .signing = right.marks .signing) := by
  have alike := alike_levels.fields left
  refine ⟨fun bytes => ?_, fun marks bytes => ?_, fun bytes leftWritten rightWritten => ?_, ?_⟩
  · have marks := marks_all_of_same equal
    exact (alike .all right equal marks leftMade.stored rightMade.stored).toExcept bytes
  · exact (alike .signing right equal marks leftMade.stored rightMade.stored).toExcept bytes
  · exact marks_eq_of_write equal leftMade.ascending rightMade.ascending leftMade.stored
      rightMade.stored (toExcept_eq_ok.mp leftWritten) (toExcept_eq_ok.mp rightWritten)
  · exact marks_eq_of_registered .signing equal

/-- Flags, in a field with any descriptor. -/
def flagsIn (field : Field) : Object :=
  [(field, .uint32 5)]

/-- The field of flags by another name. -/
def options : Field := ⟨"Options", .uint32, 2, true⟩

/-- The field of flags, left out of signatures. -/
def uncoveredFlags : Field := ⟨"Flags", .uint32, 2, false⟩

theorem made_flagsIn {field : Field} (fits : (Value.uint32 5).fits field.codec = true) :
    (flagsIn field).Made :=
  Made.empty.placeAtom rfl fits

theorem written_alike_of_same_options :
    (∀ bytes, (flagsIn Fields.flags).toBytes = .ok bytes ↔
      (flagsIn options).toBytes = .ok bytes) ∧
    ∀ bytes, (flagsIn Fields.flags).toSigningBytes = .ok bytes ↔
      (flagsIn options).toSigningBytes = .ok bytes := by
  have plainMade : (flagsIn Fields.flags).Made := made_flagsIn (by decide)
  have optionsMade : (flagsIn options).Made := made_flagsIn (by decide)
  have alike := written_alike_of_same plainMade optionsMade (by decide)
  exact ⟨alike.1, alike.2.1 rfl⟩

/-- Equal objects whose signed bytes differ. -/
theorem signing_bytes_differ_uncoveredFlags :
    (flagsIn Fields.flags).Made ∧ (flagsIn uncoveredFlags).Made ∧
      same (flagsIn Fields.flags) (flagsIn uncoveredFlags) = true ∧
      (flagsIn Fields.flags).toSigningBytes = .ok [0x22, 0, 0, 0, 5] ∧
      (flagsIn uncoveredFlags).toSigningBytes = .ok [] :=
  ⟨made_flagsIn (by decide), made_flagsIn (by decide), by decide, rfl, rfl⟩

end Object

end Signed

end LedgerWire
