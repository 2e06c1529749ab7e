import LedgerWire.Proofs.Object.Made
import LedgerWire.Proofs.Value.Wire

namespace LedgerWire

/-!
Why objects cannot be written. Writing visits the places of an object in canonical order and stops
at the first one that is at fault: a value that is too long, a path set with a hop that names
nothing, or an array element that is not a single field with an object. An object that was built
has no other fault, since its codecs take its values and its amounts have words.
-/

/-- What writing visits: a field's value, and an array element before what it wraps. -/
inductive Place where
  | value (field : Field) (value : Value)
  | element (fields : Object)

/-- Why writing stops at a place, if it does. -/
def Place.fault? : Place → Option EncodeError
  | .value field (.blob bytes) =>
    if 918744 < bytes.length then some (.fieldTooLong field.name bytes.length) else none
  | .value field (.vector256 hashes) =>
    if 28710 < hashes.length then some (.fieldTooLong field.name (hashes.length * 32)) else none
  | .value field (.pathSet paths) =>
    if ∃ path ∈ paths, Hop.empty ∈ path then some (.emptyPathHop field.name) else none
  | .value _ _ => none
  | .element [(_, .object _)] => none
  | .element fields => some (.malformedArrayElement fields.length)

mutual

/-- The places of a field's value, in canonical order. -/
def Value.places (field : Field) : Value → List Place
  | .object fields => Object.places fields
  | .array elements => Elements.places elements
  | value => [.value field value]

/-- The places of an object, whose fields without a wire form are passed over. -/
def Object.places : Object → List Place
  | [] => []
  | (field, value) :: rest =>
    (if field.isSerialized then value.places field else []) ++ Object.places rest

/-- The places of an array. The wrapper of an element has a wire form whatever its code is. -/
def Elements.places : Elements → List Place
  | [] => []
  | [(wrapper, .object inner)] :: rest =>
    .element [(wrapper, .object inner)] :: (Object.places inner ++ Elements.places rest)
  | element :: rest => .element element :: Elements.places rest

end

section Causes

variable {field : Field} {value : Value}

theorem Framing.cause_lengthPrefix (name : String) (length : Nat) :
    (Framing.lengthPrefix name length).cause =
      if 918744 < length then some (.fieldTooLong name length) else none := by
  rw [lengthPrefix, Limits.maximumLength]
  by_cases short : length ≤ 918744
  · simp [short]
  · simp [short, Nat.lt_of_not_le short]

theorem Value.cause_writeRaw_blob (field : Field) (bytes : Bytes) :
    ((Value.blob bytes).writeRaw field).cause =
      if 918744 < bytes.length then some (.fieldTooLong field.name bytes.length) else none := by
  simp [Value.writeRaw, Framing.lengthPrefixed, Framing.cause_lengthPrefix]

theorem Value.cause_writeRaw_account (field : Field) (account : Account) :
    ((Value.account account).writeRaw field).cause = none := by
  have short : ¬ 918744 < account.toBytes.length := by
    rw [Account.toBytes, account.octets.length_toList]
    decide
  simp [Value.writeRaw, Framing.lengthPrefixed, Framing.cause_lengthPrefix, short]

/-- Writing a plain value stops for the fault of its place, and for nothing else. -/
theorem Value.cause_writeRaw_plain (stored : value.Stored field)
    (notObject : ∀ fields, value ≠ .object fields)
    (notArray : ∀ elements, value ≠ .array elements) :
    (value.writeRaw field).cause = (value.places field).findSome? Place.fault? := by
  cases value with
  | blob bytes => simp [Value.cause_writeRaw_blob, Value.places, Place.fault?]
  | vector256 hashes =>
      have bound : 918744 < hashes.length * 32 ↔ 28710 < hashes.length := by omega
      simp [Value.writeRaw, Value.places, Place.fault?, Framing.cause_lengthPrefix, bound]
  | pathSet paths => simp [Value.writeRaw, Value.places, Place.fault?, PathSet.cause_write]
  | account account => simp [Value.cause_writeRaw_account, Value.places, Place.fault?]
  | amount amount =>
      obtain ⟨bytes, written, _⟩ :=
        Amount.reads_toBytesFor (stored.built amount rfl).valid field.name
      simp [Value.writeRaw, Value.places, Place.fault?, written, Output.ofExcept]
  | object fields => exact absurd rfl (notObject fields)
  | array elements => exact absurd rfl (notArray elements)
  | _ => simp [Value.writeRaw, Value.places, Place.fault?]

/-- No place is at fault for its codec or for an amount. -/
theorem Place.fault?_cause {place : Place} {cause : EncodeError}
    (fault : place.fault? = some cause) :
    (∀ field expected, cause ≠ .typeMismatch field expected) ∧
      ∀ field value reason, cause ≠ .precision field value reason := by
  unfold fault? at fault
  split at fault <;> (try split at fault) <;> cases fault <;> exact ⟨nofun, nofun⟩

theorem Object.cause_write_cons (fits : value.fits field.codec = true) (rest : Object) :
    (Object.write .all ((field, value) :: rest)).cause =
      (if field.isSerialized then (value.writeRaw field).cause else none).or
        (Object.write .all rest).cause := by
  rw [Object.write, Value.guarded, if_pos fits, FieldFilter.admits, Output.cause_append]
  cases field.isSerialized with
  | true => simp
  | false => simp

/-- A further field stops the writing of an object only by its own value. -/
theorem Object.cause_write_place {object : Object}
    (absent : ∀ entry ∈ object, entry.1.key ≠ field.key)
    (complete : (Object.write .all object).cause = none)
    (fits : value.fits field.codec = true) (serialized : field.isSerialized = true) :
    (Object.write .all (object.place field value)).cause = (value.writeRaw field).cause := by
  induction object with
  | nil =>
      rw [Object.place, Object.cause_write_cons fits, if_pos serialized, complete, Option.or_none]
  | cons entry rest ih =>
      rw [Object.place]
      split
      · rw [Object.cause_write_cons fits, if_pos serialized, complete, Option.or_none]
      · rw [if_neg fun same => absent entry List.mem_cons_self same.symm]
        obtain ⟨other, held⟩ := entry
        rw [Object.write, Output.cause_append, Option.or_eq_none_iff] at complete
        rw [Object.write, Output.cause_append, complete.1, Option.none_or]
        exact ih (fun entry member => absent entry (List.mem_cons_of_mem _ member)) complete.2

section Malformed

variable {element : Object}
  (malformed : ¬ ∃ wrapper inner, element = [(wrapper, .object inner)])
include malformed

theorem Place.fault?_malformed :
    (Place.element element).fault? = some (.malformedArrayElement element.length) := by
  rw [fault?]
  intro wrapper inner wraps
  exact malformed ⟨wrapper, inner, wraps⟩

theorem Elements.writeEach_malformed (rest : Elements) :
    Elements.writeEach (element :: rest) = .fail (.malformedArrayElement element.length) := by
  rw [Elements.writeEach]
  intro wrapper inner wraps
  exact malformed ⟨wrapper, inner, wraps⟩

theorem Elements.places_malformed (rest : Elements) :
    Elements.places (element :: rest) = .element element :: Elements.places rest := by
  rw [Elements.places]
  intro wrapper inner wraps
  exact malformed ⟨wrapper, inner, wraps⟩

end Malformed

/-- Writing stops for the first fault among the places. -/
theorem cause_levels :
    Levels
      (fun value => ∀ field, value.Stored field → value.All Value.Stored →
        (value.writeRaw field).cause = (value.places field).findSome? Place.fault?)
      (fun object => object.All Value.Stored →
        (Object.write .all object).cause = (Object.places object).findSome? Place.fault?)
      (fun elements => Elements.All Value.Stored elements →
        (Elements.writeEach elements).cause =
          (Elements.places elements).findSome? Place.fault?) where
  plain value notObject notArray field stored _ :=
    Value.cause_writeRaw_plain stored notObject notArray
  object fields inner field _ all := by
    simp [Value.writeRaw, Value.places, inner all]
  array elements inner field _ all := by
    simp [Value.writeRaw, Value.places, inner all]
  empty _ := rfl
  entry field value rest inner others all := by
    obtain ⟨stored, allInside, allOthers⟩ := all
    rw [Object.cause_write_cons stored.fits, inner field stored allInside, others allOthers,
      Object.places, List.findSome?_append]
    cases field.isSerialized with
    | true => rfl
    | false => rfl
  none _ := rfl
  wrapped wrapper inner rest fields _ others all := by
    obtain ⟨⟨_, allInside, _⟩, allOthers⟩ := all
    have wraps : (Place.element [(wrapper, .object inner)]).fault? = none := rfl
    rw [Elements.places, List.findSome?_cons, wraps, List.findSome?_append, ← fields allInside,
      ← others allOthers]
    simp [Elements.writeEach]
  malformed element rest malformed _ _ _ := by
    rw [Elements.writeEach_malformed malformed, Elements.places_malformed malformed,
      List.findSome?_cons, Place.fault?_malformed malformed]
    rfl

end Causes

namespace Object

theorem toBytes_eq_error {object : Object} (made : object.Made) {cause : EncodeError} :
    object.toBytes = .error cause ↔ object.places.findSome? Place.fault? = some cause := by
  rw [toBytes, Output.toExcept_eq_error, cause_levels.fields object made.stored]

theorem toBytes_eq_ok {object : Object} (made : object.Made) :
    (∃ bytes, object.toBytes = .ok bytes) ↔ ∀ place ∈ object.places, place.fault? = none := by
  rw [← List.findSome?_eq_none_iff, ← cause_levels.fields object made.stored,
    Output.cause_eq_none]
  simp only [toBytes, Output.toExcept_eq_ok]

/-- An object that was built cannot be written exactly when one of its places is at fault, and then
for the first fault in canonical order. No codec refuses a value of it, and no amount in it lacks
a word. -/
theorem toBytes_fails_at_first_fault (object : Object) (made : object.Made) :
    (∀ cause, object.toBytes = .error cause ↔
      ∃ before place after, object.places = before ++ place :: after ∧
        (∀ earlier ∈ before, earlier.fault? = none) ∧ place.fault? = some cause) ∧
    ((∃ bytes, object.toBytes = .ok bytes) ↔ ∀ place ∈ object.places, place.fault? = none) ∧
    (∀ field expected, object.toBytes ≠ .error (.typeMismatch field expected)) ∧
    ∀ field value cause, object.toBytes ≠ .error (.precision field value cause) := by
  refine ⟨fun cause => ?_, toBytes_eq_ok made, ?_, ?_⟩
  · rw [toBytes_eq_error made, List.findSome?_eq_some_iff]
    constructor
    · intro ⟨before, place, after, split, fault, earlier⟩
      exact ⟨before, place, after, split, earlier, fault⟩
    · intro ⟨before, place, after, split, earlier, fault⟩
      exact ⟨before, place, after, split, fault, earlier⟩
  · intro field expected failed
    obtain ⟨place, _, fault⟩ := List.exists_of_findSome?_eq_some ((toBytes_eq_error made).mp failed)
    exact (Place.fault?_cause fault).1 field expected rfl
  · intro field value cause failed
    obtain ⟨place, _, fault⟩ := List.exists_of_findSome?_eq_some ((toBytes_eq_error made).mp failed)
    exact (Place.fault?_cause fault).2 field value cause rfl

/-- A flag, and a list of signers with an element that wraps nothing. -/
def emptySigner : Object :=
  [(Fields.flags, .uint32 5), (Fields.signers, .array [[]])]

theorem made_emptySigner : emptySigner.Made := by
  have flags : Made [(Fields.flags, .uint32 5)] := Made.empty.placeAtom rfl (by decide)
  have members : ∀ element ∈ [([] : Object)], Made element := by
    intro element member
    rw [List.mem_singleton.mp member]
    exact Made.empty
  have ordered : ∀ entry ∈ [(Fields.flags, Value.uint32 5)], entry.1.key < Fields.signers.key := by
    intro entry member
    rw [List.mem_singleton.mp member]
    decide
  have signers : Made (place Fields.signers (.array [[]]) [(Fields.flags, .uint32 5)]) :=
    flags.placeArray members (by decide)
  rw [place_last ordered] at signers
  exact signers

theorem toBytes_fails_at_first_fault_emptySigner :
    emptySigner.toBytes = .error (.malformedArrayElement 0) := by
  have found := (toBytes_fails_at_first_fault emptySigner made_emptySigner).1
    (.malformedArrayElement 0)
  refine found.mpr ⟨[.value Fields.flags (.uint32 5)], .element [], [], rfl, ?_, rfl⟩
  intro earlier member
  rw [List.mem_singleton.mp member]
  rfl

end Object

end LedgerWire
