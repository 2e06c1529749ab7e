import LedgerWire.Proofs.Json.Members
import LedgerWire.Proofs.Object.Made
import LedgerWire.Proofs.Object.Wire
import LedgerWire.Proofs.Value.Json
import Mathlib.Data.List.Perm.Basic

namespace LedgerWire

/-!
Objects read back from JSON. The members of a JSON object stand in the order of their names, not in
that of the fields, so they come back permuted; but each is placed where its field belongs, and
fields of ascending keys stand in one order only.
-/

section Fields

variable {field : Field}

theorem Field.Registered.named? (registered : field.Registered) :
    Field.named? field.name = some field := by
  have all : ∀ field ∈ Registry.all, Field.named? field.name = some field := by
    decide +kernel
  exact all field registered

end Fields

/-- A member of a JSON object that is read as an entry. -/
structure Json.ReadsAs (member : String × Json) (entry : Field × Value) : Prop where
  known : Field.named? member.1 = some entry.1
  read : Value.ofJson entry.1 member.2 = .ok entry.2
  fits : entry.2.fits entry.1.codec = true

namespace Object

variable {members : List (String × Json)} {entries : Object}

theorem ofMembers_cons {name : String} {json : Json} {rest : List (String × Json)}
    {field : Field} {value : Value} {object extended : Object}
    (known : Field.named? name = some field) (read : Value.ofJson field json = .ok value)
    (set : object.set field value = .ok extended) :
    ofMembers object ((name, json) :: rest) = ofMembers extended rest := by
  simp only [ofMembers, known, read, set]

/-- Members of different fields are read in any order, into an object of just these fields. -/
theorem ofMembers_of_readsAs (object : Object)
    (reads : List.Forall₂ Json.ReadsAs members entries)
    (distinct : (object ++ entries).Pairwise fun left right => left.1.key ≠ right.1.key)
    (ascending : object.Ascending) :
    ∃ result, ofMembers object members = .ok result ∧ result.Perm (object ++ entries) ∧
      Ascending result := by
  induction reads generalizing object with
  | nil => exact ⟨object, by rw [ofMembers], by rw [List.append_nil], ascending⟩
  | @cons member entry members entries reads _ others =>
      obtain ⟨_, _, apart⟩ := List.pairwise_append.mp distinct
      have added : (object.place entry.1 entry.2).Perm (entry :: object) :=
        place_perm fun earlier found => apart earlier found entry List.mem_cons_self
      have moved : (object.place entry.1 entry.2 ++ entries).Perm (object ++ entry :: entries) :=
        (added.append_right entries).trans List.perm_middle.symm
      have symmetric : ∀ {left right : Field × Value}, left.1.key ≠ right.1.key →
          right.1.key ≠ left.1.key := Ne.symm
      obtain ⟨result, read, perm, ordered⟩ := others (object.place entry.1 entry.2)
        ((moved.pairwise_iff symmetric).mpr distinct) (ascending.place _ _)
      refine ⟨result, ?_, perm.trans moved, ordered⟩
      rw [ofMembers_cons reads.known reads.read (set_of_fits reads.fits), read]

theorem exists_readsAs (reads : List.Forall₂ Json.ReadsAs members entries)
    {member : String × Json} (found : member ∈ members) :
    ∃ entry ∈ entries, Json.ReadsAs member entry := by
  induction reads with
  | nil => cases found
  | cons first _ others =>
      rcases List.mem_cons.mp found with rfl | there
      · exact ⟨_, List.mem_cons_self, first⟩
      · obtain ⟨entry, member, reads⟩ := others there
        exact ⟨entry, List.mem_cons_of_mem _ member, reads⟩

/-- Different fields have different names. -/
theorem distinct_names (reads : List.Forall₂ Json.ReadsAs members entries)
    (distinct : entries.Pairwise fun left right => left.1.key ≠ right.1.key) :
    members.Pairwise fun left right => left.1 ≠ right.1 := by
  induction reads with
  | nil => exact List.Pairwise.nil
  | @cons member entry _ _ first rest others =>
      obtain ⟨apart, distinctRest⟩ := List.pairwise_cons.mp distinct
      refine List.pairwise_cons.mpr ⟨fun later found sameName => ?_, others distinctRest⟩
      obtain ⟨other, member, reads⟩ := exists_readsAs rest found
      have sameField : some entry.1 = some other.1 := by
        rw [← first.known, sameName, reads.known]
      exact apart other member (congrArg Field.key (Option.some.inj sameField))

/-- An object of ascending fields is read from the JSON object of its members. -/
theorem ofMembers_of_ascending (reads : List.Forall₂ Json.ReadsAs members entries)
    (ascending : entries.Ascending) :
    ∃ placed, Json.ofMembers members = .object placed ∧ ofMembers [] placed = .ok entries := by
  obtain ⟨placed, isObject, sorted⟩ := Json.ofMembers_perm (distinct_names reads ascending.distinct)
  obtain ⟨permuted, permutedReads, perm⟩ := List.perm_comp_forall₂ sorted reads
  have distinct := ascending.distinct_of_perm perm
  obtain ⟨result, read, resultPerm, ordered⟩ :=
    ofMembers_of_readsAs [] permutedReads distinct List.Pairwise.nil
  have whole : result = entries := ordered.eq_of_perm ascending (resultPerm.trans perm)
  exact ⟨placed, isObject, whole ▸ read⟩

end Object

theorem Value.ofJson_of_plain {field : Field} {value : Value} {json : Json}
    (fits : value.fits field.codec = true) (notObject : ∀ fields, value ≠ .object fields)
    (notArray : ∀ elements, value ≠ .array elements) :
    Value.ofJson field json = Json.readScalar field json := by
  rw [Value.ofJson]
  · intro _ isObject
    rw [isObject] at fits
    cases value <;> first | contradiction | exact absurd rfl (notObject _)
  · intro _ isArray
    rw [isArray] at fits
    cases value <;> first | contradiction | exact absurd rfl (notArray _)

theorem Elements.ofItems_cons {name key : String} {members : List (String × Json)}
    {rest : List Json} {wrapper : Field} {inner element : Object} {others : Elements}
    (known : Field.named? key = some wrapper) (read : Object.ofMembers [] members = .ok inner)
    (wrapped : Object.wrap wrapper inner = .ok element)
    (following : Elements.ofItems name rest = .ok others) :
    Elements.ofItems name (.object [(key, .object members)] :: rest) = .ok (element :: others) := by
  rw [Elements.ofItems, known]
  exact bind_eq_ok.mpr ⟨inner, read, bind_eq_ok.mpr ⟨element, wrapped,
    bind_eq_ok.mpr ⟨others, following, rfl⟩⟩⟩

/-- An entry that was set, and whose JSON form says everything that equality sees. -/
def Value.Recoverable (field : Field) (value : Value) : Prop :=
  value.Stored field ∧ value.Printable field

theorem Value.recoverable_of_isAtom {field : Field} {value : Value} (atom : value.isAtom = true)
    (fits : value.fits field.codec = true) (registered : field.Registered)
    (read : ∀ currency, value = .currency currency →
      Currency.parse currency.toText = .ok currency) : value.Recoverable field := by
  refine ⟨⟨fits, ?_, ?_⟩, registered, ?_, ?_, ?_, read, ?_, ?_⟩ <;>
    · rintro _ rfl
      contradiction

theorem recoverable_levels :
    Levels
      (fun value => ∀ field, value.Recoverable field → value.All Value.Recoverable →
        Value.ofJson field (value.toJson field) = .ok value.settled)
      (fun object => object.All Value.Recoverable →
        List.Forall₂ Json.ReadsAs (Object.jsonMembers object) object.settled)
      (fun elements => Elements.All Value.Recoverable elements →
        (∀ element ∈ elements, ∃ wrapper inner, element = [(wrapper, .object inner)]) →
        ∀ name, Elements.ofItems name (Elements.jsonItems elements) =
          .ok (Elements.settled elements)) where
  plain value notObject notArray field recoverable _ := by
    obtain ⟨stored, printable⟩ := recoverable
    rw [Value.ofJson_of_plain stored.fits notObject notArray]
    exact Value.readScalar_toJson stored printable notObject notArray
  object fields inner field recoverable all := by
    obtain ⟨stored, _⟩ := recoverable
    obtain ⟨placed, isObject, read⟩ :=
      Object.ofMembers_of_ascending (inner all) (stored.ascending fields rfl).settled
    rw [Value.toJson, isObject, Value.ofJson, read]
    · rfl
    · exact Value.codec_of_object stored.fits
  array elements inner field recoverable all := by
    obtain ⟨stored, printable⟩ := recoverable
    have read := inner all (printable.wrapped elements rfl) field.name
    rw [Value.toJson, Value.ofJson, read]
    · rfl
    · exact Value.codec_of_array stored.fits
  empty _ := List.Forall₂.nil
  entry field value rest inner others all := by
    obtain ⟨recoverable, inside, allOthers⟩ := all
    have known := recoverable.2.registered.named?
    have fits := (value.fits_settled field.codec).trans recoverable.1.fits
    exact List.Forall₂.cons ⟨known, inner field recoverable inside, fits⟩ (others allOthers)
  none _ _ _ := rfl
  wrapped wrapper inner rest fields _ others all wraps name := by
    obtain ⟨⟨⟨stored, printable⟩, inside, _⟩, allOthers⟩ := all
    obtain ⟨placed, isObject, read⟩ :=
      Object.ofMembers_of_ascending (fields inside) (stored.ascending inner rfl).settled
    have single : Elements.jsonItems ([(wrapper, .object inner)] :: rest) =
        .object [(wrapper.name, .object placed)] :: Elements.jsonItems rest := by
      rw [Elements.jsonItems, Object.jsonMembers, Object.jsonMembers, Value.toJson, isObject]
      rfl
    have wrapped : Object.wrap wrapper inner.settled = .ok [(wrapper, .object inner.settled)] :=
      Object.set_of_fits (((Value.object inner).fits_settled wrapper.codec).trans stored.fits)
    have following := others allOthers
      (fun element member => wraps element (List.mem_cons_of_mem _ member)) name
    rw [single]
    exact Elements.ofItems_cons printable.registered.named? read wrapped following
  malformed element rest malformed _ _ _ wraps :=
    absurd (wraps element List.mem_cons_self) malformed

namespace Object

/-- An object that was built is read back from its JSON form, provided that the form says all that
equality sees. -/
theorem json_round_trip (object : Object) (made : object.Made)
    (printable : object.All Value.Printable) :
    ∃ read, ofJson object.toJson = .ok read ∧ same read object = true := by
  have recoverable := made.stored.and printable
  obtain ⟨placed, isObject, read⟩ :=
    ofMembers_of_ascending (recoverable_levels.fields object recoverable) made.ascending.settled
  have short : object.All fun _ value => value.Short := by
    refine recoverable.mono fun field value ⟨stored, printable⟩ amount isAmount => ?_
    exact (stored.built amount isAmount).valid.wireValue_eq (printable.short amount isAmount)
  refine ⟨object.settled, ?_, same_settled short⟩
  rw [toJson, isObject]
  exact read

/-- A ledger entry with its index, a signer and the currency `USD`. -/
def indexedSigner : Object :=
  [(Fields.flags, .uint32 5), (⟨"index", .hash256, 258, true⟩, .hash256 (Octets.ofNat 32 7)),
    (Fields.signers, .array [[(Fields.signer, .object signerFields)]]),
    (Fields.takerPaysCurrency, .currency (Currency.ofCode (Octets.ofNat 3 0x555344) 0))]

theorem recoverable_indexedSigner : indexedSigner.All Value.Recoverable := by
  have flags : (Value.uint32 5).Recoverable Fields.flags :=
    Value.recoverable_of_isAtom rfl (by decide) (Fields.registered_of_mem (by simp [Fields.all]))
      (by rintro _ ⟨⟩)
  have index : (Value.hash256 (Octets.ofNat 32 7)).Recoverable ⟨"index", .hash256, 258, true⟩ :=
    Value.recoverable_of_isAtom rfl (by decide) (by decide +kernel) (by rintro _ ⟨⟩)
  have key : (Value.blob [0xED, 0x01]).Recoverable Fields.signingPubKey :=
    Value.recoverable_of_isAtom rfl (by decide) (Fields.registered_of_mem (by simp [Fields.all]))
      (by rintro _ ⟨⟩)
  have account : (Value.account Account.one).Recoverable Fields.account :=
    Value.recoverable_of_isAtom rfl (by decide) (Fields.registered_of_mem (by simp [Fields.all]))
      (by rintro _ ⟨⟩)
  have currency : (Value.currency (Currency.ofCode (Octets.ofNat 3 0x555344) 0)).Recoverable
      Fields.takerPaysCurrency :=
    Value.recoverable_of_isAtom rfl (by decide) (Fields.registered_of_mem (by simp [Fields.all]))
      (by rintro _ ⟨⟩; decide +kernel)
  have signer : (Value.object signerFields).Recoverable Fields.signer := by
    refine ⟨⟨by decide, ?_, ?_⟩, Fields.registered_of_mem (by simp [Fields.all]), ?_, ?_, ?_, ?_, ?_,
      ?_⟩ <;> rintro _ ⟨⟩
    decide
  have wrapped : ∀ element ∈ [[(Fields.signer, Value.object signerFields)]],
      ∃ wrapper inner, element = [(wrapper, Value.object inner)] := by
    intro element member
    cases List.mem_singleton.mp member
    exact ⟨_, _, rfl⟩
  have signers : (Value.array [[(Fields.signer, .object signerFields)]]).Recoverable
      Fields.signers := by
    refine ⟨⟨by decide, ?_, ?_⟩, Fields.registered_of_mem (by simp [Fields.all]), ?_, ?_, ?_, ?_, ?_,
      ?_⟩ <;> rintro _ ⟨⟩
    exact wrapped
  have inner : Object.All Value.Recoverable signerFields :=
    ⟨key, trivial, account, trivial, trivial⟩
  exact ⟨flags, trivial, index, trivial, signers, ⟨⟨signer, inner, trivial⟩, trivial⟩, currency,
    trivial, trivial⟩

theorem json_round_trip_indexedSigner :
    ∃ read, ofJson indexedSigner.toJson = .ok read ∧ same read indexedSigner = true := by
  have recoverable := recoverable_indexedSigner
  have stored := recoverable.mono fun _ _ entry => entry.1
  have printable := recoverable.mono fun _ _ entry => entry.2
  have wrapping := recoverable.mono fun _ _ entry => entry.2.wrapped
  exact json_round_trip indexedSigner (made_of_stored (by decide) stored wrapping) printable

end Object

end LedgerWire
