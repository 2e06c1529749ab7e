import LedgerWire.Proofs.Object.Map

namespace LedgerWire

/-!
Objects as callers build them: by setting and removing fields, from values that are built alike.
Whatever the calls are, the fields ascend, and every value at every level is one that its field's
codec takes. That is so although a field keeps its first descriptor: its key decides the codec.
-/

section Codec

variable {left right : Field}

theorem Field.type_eq_of_key (same : left.key = right.key) : left.type = right.type := by
  have leftSmall := left.code.toNat_lt
  have rightSmall := right.code.toNat_lt
  simp only [key] at same
  have codes : left.type.code = right.type.code := UInt16.toNat_inj.mp (by omega)
  have distinct : ∀ first ∈ FieldType.all, ∀ second ∈ FieldType.all,
      first.code = second.code → first = second := by
    decide
  have every (type : FieldType) : type ∈ FieldType.all := by cases type <;> decide
  exact distinct _ (every _) _ (every _) codes

theorem Field.code_eq_of_key (same : left.key = right.key) : left.code = right.code := by
  simp only [key] at same
  have leftSmall := left.code.toNat_lt
  have rightSmall := right.code.toNat_lt
  exact UInt16.toNat_inj.mp (by omega)

theorem Field.isSerialized_eq_of_key (same : left.key = right.key) :
    left.isSerialized = right.isSerialized := by
  rw [isSerialized, isSerialized, code_eq_of_key same]

theorem Field.header_eq_of_key (same : left.key = right.key) : left.header = right.header := by
  rw [header, header, type_eq_of_key same, code_eq_of_key same]

theorem Field.codec_eq_of_key (same : left.key = right.key) : left.codec = right.codec := by
  unfold codec Field.same
  rw [same, type_eq_of_key same]

end Codec

namespace Object

/-- What setting and removing fields builds, with amounts, objects and array elements that were
built themselves. -/
inductive Made : Object → Prop where
  | empty : Made []
  | set {object result : Object} {field : Field} {value : Value} (made : Made object)
      (amounts : ∀ amount, value = .amount amount → amount.Built)
      (objects : ∀ fields, value = .object fields → Made fields)
      (arrays : ∀ elements, value = .array elements → ∀ element ∈ elements, Made element)
      (succeeded : object.set field value = .ok result) : Made result
  | erase {object : Object} (made : Made object) (field : Field) : Made (object.erase field)

variable {object : Object} {field : Field} {value : Value}

theorem Made.placeAtom (made : object.Made) (atom : value.isAtom = true)
    (fits : value.fits field.codec = true) : Made (object.place field value) := by
  refine Made.set made ?_ ?_ ?_ (set_of_fits fits)
  · intro amount isAmount
    simp [isAmount, Value.isAtom] at atom
  · intro fields isObject
    simp [isObject, Value.isAtom] at atom
  · intro elements isArray
    simp [isArray, Value.isAtom] at atom

theorem Made.placeArray {elements : Elements} (made : object.Made)
    (members : ∀ element ∈ elements, Made element)
    (fits : (Value.array elements).fits field.codec = true) :
    Made (object.place field (.array elements)) := by
  refine Made.set made ?_ ?_ ?_ (set_of_fits fits)
  · nofun
  · nofun
  · intro others same
    cases same
    exact members

theorem Made.ascending (made : object.Made) : object.Ascending := by
  induction made with
  | empty => exact List.Pairwise.nil
  | set _ _ _ _ succeeded ordered =>
      rw [← (set_eq_ok.mp succeeded).2]
      exact ordered.place _ _
  | erase _ field ordered => exact ordered.erase field

theorem Made.stored (made : object.Made) : object.All Value.Stored := by
  induction made with
  | empty => trivial
  | @set object result field value made amounts objects arrays succeeded all inner elements =>
      obtain ⟨fits, rfl⟩ := set_eq_ok.mp succeeded
      have stored : value.Stored field :=
        ⟨fits, fun fields isObject => (objects fields isObject).ascending, amounts⟩
      have inside : value.All Value.Stored := by
        cases value with
        | object fields => exact inner fields rfl
        | array members => exact Elements.all_iff.mpr (elements members rfl)
        | _ => trivial
      refine all.place stored inside fun descriptor old _ same => ⟨?_, stored.ascending, stored.built⟩
      rw [Field.codec_eq_of_key same]
      exact fits
  | erase _ field all => exact all.erase field

/-- A field below all others is placed first. -/
theorem place_first (below : ∀ entry ∈ object, field.key < entry.1.key) :
    place field value object = (field, value) :: object := by
  cases object with
  | nil => rfl
  | cons entry rest => rw [place, if_pos (below entry List.mem_cons_self)]

end Object

/-- A value whose array elements, if it has any, wrap objects. -/
def Value.Wrapping (value : Value) : Prop :=
  ∀ elements, value = .array elements →
    ∀ element ∈ elements, ∃ wrapper inner, element = [(wrapper, .object inner)]

/-- Fields are set from the last to the first. -/
theorem made_levels :
    Levels
      (fun value => ∀ field, value.Stored field → value.Wrapping → value.All Value.Stored →
        (value.All fun _ value => value.Wrapping) → ∀ object : Object, object.Made →
        Object.Made (object.place field value))
      (fun object => object.Ascending → object.All Value.Stored →
        (object.All fun _ value => value.Wrapping) → object.Made)
      (fun elements => (∀ element ∈ elements, ∃ wrapper inner, element = [(wrapper, .object inner)]) →
        Elements.All Value.Stored elements →
        Elements.All (fun _ value => value.Wrapping) elements →
        ∀ element ∈ elements, Object.Made element) where
  plain value notObject notArray field stored _ _ _ object made :=
    made.set stored.built (fun fields same => absurd same (notObject fields))
      (fun elements same => absurd same (notArray elements)) (Object.set_of_fits stored.fits)
  object fields inner field stored _ allStored allWrapping object made := by
    have fieldsMade := inner (stored.ascending fields rfl) allStored allWrapping
    refine made.set stored.built ?_ ?_ (Object.set_of_fits stored.fits)
    · intro others same
      cases same
      exact fieldsMade
    · intro elements isArray
      cases isArray
  array elements inner field stored wrapping allStored allWrapping object made := by
    have elementsMade := inner (wrapping elements rfl) allStored allWrapping
    refine made.set stored.built ?_ ?_ (Object.set_of_fits stored.fits)
    · intro fields isObject
      cases isObject
    · intro others same
      cases same
      exact elementsMade
  empty _ _ _ := Object.Made.empty
  entry field value rest inner others ascending allStored allWrapping := by
    obtain ⟨below, ordered⟩ := List.pairwise_cons.mp ascending
    obtain ⟨stored, insideStored, othersStored⟩ := allStored
    obtain ⟨wrapping, insideWrapping, othersWrapping⟩ := allWrapping
    have restMade := others ordered othersStored othersWrapping
    rw [← Object.place_first below]
    exact inner field stored wrapping insideStored insideWrapping rest restMade
  none _ _ _ := nofun
  wrapped wrapper inner rest _ element others wraps allStored allWrapping := by
    have first := element (List.pairwise_singleton _ _) allStored.1 allWrapping.1
    have following := others (fun element member => wraps element (List.mem_cons_of_mem _ member))
      allStored.2 allWrapping.2
    exact List.forall_mem_cons.mpr ⟨first, following⟩
  malformed element rest malformed _ _ wraps :=
    absurd (wraps element List.mem_cons_self) malformed

theorem Object.made_of_stored {object : Object} (ascending : object.Ascending)
    (stored : object.All Value.Stored) (wrapping : object.All fun _ value => value.Wrapping) :
    object.Made :=
  made_levels.fields object ascending stored wrapping

end LedgerWire
