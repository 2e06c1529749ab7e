import LedgerWire.Proofs.Object.Json

namespace LedgerWire

/-!
Objects as callers enter them, field by field or as JSON. What is read from JSON is set field by
field too, so it is built in the same way: from registered fields, with arrays whose elements each
wrap an object.
-/

/-- An object built from registered fields, whose array elements wrap objects. -/
structure Object.Entered (object : Object) : Prop where
  made : object.Made
  registered : object.All fun field _ => field.Registered
  wrapping : object.All fun _ value => value.Wrapping

/-- A value whose parts were entered. -/
structure Value.Entered (value : Value) : Prop where
  amounts : ∀ amount, value = .amount amount → amount.Built
  objects : ∀ fields : Object, value = .object fields → fields.Entered
  arrays : ∀ elements : Elements, value = .array elements → ∀ element ∈ elements,
    element.Entered ∧ ∃ wrapper inner, element = [(wrapper, .object inner)]

theorem Value.Entered.inside {value : Value} (entered : value.Entered) :
    (value.All fun field _ => field.Registered) ∧ value.All fun _ value => value.Wrapping := by
  cases value with
  | object fields =>
      have fieldsEntered := entered.objects fields rfl
      exact ⟨fieldsEntered.registered, fieldsEntered.wrapping⟩
  | array elements =>
      have elementsEntered := entered.arrays elements rfl
      exact ⟨Elements.all_iff.mpr fun element member => (elementsEntered element member).1.registered,
        Elements.all_iff.mpr fun element member => (elementsEntered element member).1.wrapping⟩
  | _ => exact ⟨trivial, trivial⟩

theorem Field.registered_of_named? {name : String} {field : Field}
    (found : Field.named? name = some field) : field.Registered :=
  List.mem_of_find?_eq_some found

namespace Object

theorem Entered.empty : Entered [] :=
  ⟨Made.empty, trivial, trivial⟩

theorem Entered.set {object result : Object} {field : Field} {value : Value}
    (entered : object.Entered) (registered : field.Registered) (inner : value.Entered)
    (succeeded : object.set field value = .ok result) : result.Entered := by
  obtain ⟨insideRegistered, insideWrapping⟩ := inner.inside
  have wrapping : value.Wrapping := fun elements isArray element member =>
    (inner.arrays elements isArray element member).2
  have made : result.Made := entered.made.set inner.amounts
    (fun fields isObject => (inner.objects fields isObject).made)
    (fun elements isArray element member => (inner.arrays elements isArray element member).1.made)
    succeeded
  obtain ⟨_, rfl⟩ := set_eq_ok.mp succeeded
  exact ⟨made, entered.registered.place registered insideRegistered fun _ _ known _ => known,
    entered.wrapping.place wrapping insideWrapping fun _ _ _ _ => wrapping⟩

theorem Entered.value {fields : Object} (entered : fields.Entered) :
    (Value.object fields).Entered := by
  refine ⟨nofun, fun others same => ?_, nofun⟩
  cases same
  exact entered

end Object

/-- A value that is read for a plain field is plain, and an amount is built. -/
theorem Json.entered_readScalar {field : Field} {json : Json} {value : Value}
    (read : Json.readScalar field json = .ok value) : value.Entered := by
  rw [Json.readScalar] at read
  split at read
  all_goals try contradiction
  all_goals obtain ⟨part, partRead, answered⟩ := bind_eq_ok.mp read
  all_goals try obtain ⟨_, _, answered⟩ := bind_eq_ok.mp answered
  all_goals cases answered
  all_goals refine ⟨?_, ?_, ?_⟩
  all_goals intro inner same
  all_goals cases same
  exact .json partRead

theorem Value.ofJson_eq_ok {field : Field} {json : Json} {value : Value}
    (read : Value.ofJson field json = .ok value) :
    (∃ members fields, json = .object members ∧ Object.ofMembers [] members = .ok fields ∧
      value = .object fields) ∨
    (∃ items elements, json = .array items ∧ Elements.ofItems field.name items = .ok elements ∧
      value = .array elements) ∨
    Json.readScalar field json = .ok value := by
  rw [Value.ofJson.eq_def] at read
  split at read
  · obtain ⟨fields, inner, rfl⟩ := map_eq_ok.mp read
    exact Or.inl ⟨_, fields, rfl, inner, rfl⟩
  · obtain ⟨elements, inner, rfl⟩ := map_eq_ok.mp read
    exact Or.inr (Or.inl ⟨_, elements, rfl, inner, rfl⟩)
  · exact Or.inr (Or.inr read)

theorem Object.ofJson_eq_ok {json : Json} {object : Object} (read : Object.ofJson json = .ok object) :
    ∃ members, json = .object members ∧ Object.ofMembers [] members = .ok object := by
  cases json with
  | object members => exact ⟨members, rfl, read⟩
  | _ => contradiction

/-- An element of an array is read like an object of one member, which holds an object. -/
theorem Elements.ofItems_cons_eq_ok {name : String} {item : Json} {rest : List Json}
    {elements : Elements} (read : Elements.ofItems name (item :: rest) = .ok elements) :
    ∃ element others, Object.ofJson item = .ok element ∧
      (∃ wrapper inner, element = [(wrapper, .object inner)]) ∧
      Elements.ofItems name rest = .ok others ∧ elements = element :: others := by
  rw [Elements.ofItems.eq_def] at read
  split at read
  · contradiction
  · rename_i key json others whole
    obtain ⟨rfl, rfl⟩ := List.cons.inj whole
    split at read
    · contradiction
    · rename_i wrapper known
      split at read
      · rename_i members
        obtain ⟨inner, membersRead, read⟩ := bind_eq_ok.mp read
        obtain ⟨element, wrapped, read⟩ := bind_eq_ok.mp read
        obtain ⟨others, othersRead, answered⟩ := bind_eq_ok.mp read
        cases answered
        have set : Object.set [] wrapper (.object inner) = .ok element := wrapped
        obtain ⟨fits, wraps⟩ := Object.set_eq_ok.mp set
        have valueRead : Value.ofJson wrapper (.object members) = .ok (.object inner) := by
          rw [Value.ofJson, membersRead]
          · rfl
          · exact Value.codec_of_object fits
        refine ⟨element, others, ?_, ⟨wrapper, inner, wraps.symm⟩, othersRead, rfl⟩
        rw [Object.ofJson, Object.ofMembers_cons known valueRead set, Object.ofMembers]
      · contradiction
  · contradiction

mutual

theorem Value.entered_ofJson : ∀ (json : Json) (field : Field) (value : Value),
    Value.ofJson field json = .ok value → value.Entered
  | .object members, field, value, read => by
      rcases Value.ofJson_eq_ok read with ⟨_, fields, ⟨⟩, inner, rfl⟩ | ⟨_, _, ⟨⟩, _⟩ | scalar
      · exact (Object.entered_ofMembers members [] fields .empty inner).value
      · exact Json.entered_readScalar scalar
  | .array items, field, value, read => by
      rcases Value.ofJson_eq_ok read with ⟨_, _, ⟨⟩, _⟩ | ⟨_, elements, ⟨⟩, inner, rfl⟩ | scalar
      · refine ⟨nofun, nofun, fun others same => ?_⟩
        cases same
        exact Elements.entered_ofItems items field.name elements inner
      · exact Json.entered_readScalar scalar
  | .null, field, value, read | .bool _, field, value, read | .number _, field, value, read
  | .string _, field, value, read => by
      rcases Value.ofJson_eq_ok read with ⟨_, _, ⟨⟩, _⟩ | ⟨_, _, ⟨⟩, _⟩ | scalar
      exact Json.entered_readScalar scalar

theorem Object.entered_ofMembers : ∀ (members : List (String × Json)) (object result : Object),
    object.Entered → Object.ofMembers object members = .ok result → result.Entered
  | [], object, result, entered, read => by
      rw [Object.ofMembers] at read
      cases read
      exact entered
  | (name, json) :: rest, object, result, entered, read => by
      rw [Object.ofMembers] at read
      split at read
      · contradiction
      · rename_i field known
        split at read
        · contradiction
        · rename_i value valueRead
          split at read
          · contradiction
          · rename_i extended succeeded
            have valueEntered := Value.entered_ofJson json field value valueRead
            exact Object.entered_ofMembers rest extended result
              (entered.set (Field.registered_of_named? known) valueEntered succeeded) read

theorem Elements.entered_ofItems : ∀ (items : List Json) (name : String) (elements : Elements),
    Elements.ofItems name items = .ok elements → ∀ element ∈ elements,
      element.Entered ∧ ∃ wrapper inner, element = [(wrapper, .object inner)]
  | [], name, elements, read => by
      cases read
      nofun
  | .object members :: rest, name, elements, read => by
      obtain ⟨element, others, elementRead, wraps, othersRead, rfl⟩ :=
        Elements.ofItems_cons_eq_ok read
      have entered := Object.entered_ofMembers members [] element .empty elementRead
      exact List.forall_mem_cons.mpr
        ⟨⟨entered, wraps⟩, Elements.entered_ofItems rest name others othersRead⟩
  | .null :: _, name, elements, read | .bool _ :: _, name, elements, read
  | .number _ :: _, name, elements, read | .string _ :: _, name, elements, read
  | .array _ :: _, name, elements, read => by
      obtain ⟨_, _, elementRead, _⟩ := Elements.ofItems_cons_eq_ok read
      contradiction

end

theorem Object.entered_ofJson {json : Json} {object : Object}
    (read : Object.ofJson json = .ok object) : object.Entered := by
  obtain ⟨members, rfl, membersRead⟩ := Object.ofJson_eq_ok read
  exact Object.entered_ofMembers members [] object .empty membersRead

end LedgerWire
