import LedgerWire.Proofs.Amount.Wire
import LedgerWire.Proofs.Field.Registry

namespace LedgerWire

/-!
Objects level by level: the induction over nested objects and arrays, what holds of every entry at
every level, how deep a value nests, and which entries the wire form can express.
-/

section Induction

variable {P : Value → Prop} {Q : Object → Prop} {R : Elements → Prop}

/-- The cases of an induction over values, objects and arrays. An array element is either a single
field that holds an object, or malformed. -/
structure Levels (P : Value → Prop) (Q : Object → Prop) (R : Elements → Prop) : Prop where
  plain : ∀ value : Value, (∀ fields, value ≠ .object fields) →
    (∀ elements, value ≠ .array elements) → P value
  object : ∀ fields, Q fields → P (.object fields)
  array : ∀ elements, R elements → P (.array elements)
  empty : Q []
  entry : ∀ field value rest, P value → Q rest → Q ((field, value) :: rest)
  none : R []
  wrapped : ∀ wrapper inner rest, Q inner → Q [(wrapper, .object inner)] → R rest →
    R ([(wrapper, .object inner)] :: rest)
  malformed : ∀ element rest, (¬ ∃ wrapper inner, element = [(wrapper, .object inner)]) →
    Q element → R rest → R (element :: rest)

namespace Levels

mutual

theorem value (cases : Levels P Q R) : ∀ value, P value
  | .object fields => cases.object fields (cases.fields fields)
  | .array elements => cases.array elements (cases.elements elements)
  | .uint8 _ | .uint16 _ | .uint32 _ | .uint64 _ | .hash128 _ | .hash160 _ | .hash256 _ | .blob _
  | .account _ | .amount _ | .currency _ | .pathSet _ | .vector256 _ =>
    cases.plain _ (fun _ => nofun) (fun _ => nofun)

theorem fields (cases : Levels P Q R) : ∀ object : Object, Q object
  | [] => cases.empty
  | (field, value) :: rest => cases.entry field value rest (cases.value value) (cases.fields rest)

theorem elements (cases : Levels P Q R) : ∀ elements : Elements, R elements
  | [] => cases.none
  | element :: rest => by
      by_cases wraps : ∃ wrapper inner, element = [(wrapper, .object inner)]
      · obtain ⟨wrapper, inner, rfl⟩ := wraps
        exact cases.wrapped wrapper inner rest (cases.fields inner) (cases.fields _)
          (cases.elements rest)
      · exact cases.malformed element rest wraps (cases.fields element) (cases.elements rest)

end

end Levels

end Induction

section Everywhere

mutual

/-- What holds of the entries inside a value, at every level. -/
def Value.All (holds : Field → Value → Prop) : Value → Prop
  | .object fields => Object.All holds fields
  | .array elements => Elements.All holds elements
  | _ => True

/-- What holds of the entries of an object, at every level. -/
def Object.All (holds : Field → Value → Prop) : Object → Prop
  | [] => True
  | (field, value) :: rest => holds field value ∧ Value.All holds value ∧ Object.All holds rest

/-- What holds of the entries of an array's elements, at every level. -/
def Elements.All (holds : Field → Value → Prop) : Elements → Prop
  | [] => True
  | element :: rest => Object.All holds element ∧ Elements.All holds rest

end

mutual

/-- How many levels of objects and arrays a value nests, itself included. An array counts once, and
so does the body of each element. -/
def Value.depth : Value → Nat
  | .object fields => Object.depth fields + 1
  | .array elements => Elements.depth elements + 1
  | _ => 0

def Object.depth : Object → Nat
  | [] => 0
  | (_, value) :: rest => max value.depth (Object.depth rest)

def Elements.depth : Elements → Nat
  | [] => 0
  | element :: rest => max (Object.depth element) (Elements.depth rest)

end

theorem all_levels {holds implied : Field → Value → Prop}
    (implies : ∀ field value, holds field value → implied field value) :
    Levels (fun value => value.All holds → value.All implied)
      (fun object => Object.All holds object → Object.All implied object)
      (fun elements => Elements.All holds elements → Elements.All implied elements) where
  plain value notObject notArray _ := by
    cases value <;> first | trivial | exact absurd rfl (notObject _) | exact absurd rfl (notArray _)
  object _ fields := fields
  array _ elements := elements
  empty _ := trivial
  entry field value _ inner others all :=
    ⟨implies field value all.1, inner all.2.1, others all.2.2⟩
  none _ := trivial
  wrapped _ _ _ _ element others all := ⟨element all.1, others all.2⟩
  malformed _ _ _ element others all := ⟨element all.1, others all.2⟩

theorem Object.All.mono {holds implied : Field → Value → Prop} {object : Object}
    (all : object.All holds) (implies : ∀ field value, holds field value → implied field value) :
    object.All implied :=
  (all_levels implies).fields object all

theorem all_and_levels {left right : Field → Value → Prop} :
    Levels
      (fun value => value.All left → value.All right →
        value.All fun field value => left field value ∧ right field value)
      (fun object => Object.All left object → Object.All right object →
        Object.All (fun field value => left field value ∧ right field value) object)
      (fun elements => Elements.All left elements → Elements.All right elements →
        Elements.All (fun field value => left field value ∧ right field value) elements) where
  plain value notObject notArray _ _ := by
    cases value <;> first | trivial | exact absurd rfl (notObject _) | exact absurd rfl (notArray _)
  object _ fields := fields
  array _ elements := elements
  empty _ _ := trivial
  entry _ _ _ inner others lefts rights :=
    ⟨⟨lefts.1, rights.1⟩, inner lefts.2.1 rights.2.1, others lefts.2.2 rights.2.2⟩
  none _ _ := trivial
  wrapped _ _ _ _ element others lefts rights :=
    ⟨element lefts.1 rights.1, others lefts.2 rights.2⟩
  malformed _ _ _ element others lefts rights :=
    ⟨element lefts.1 rights.1, others lefts.2 rights.2⟩

theorem Object.All.and {left right : Field → Value → Prop} {object : Object}
    (lefts : object.All left) (rights : object.All right) :
    object.All fun field value => left field value ∧ right field value :=
  all_and_levels.fields object lefts rights

end Everywhere

section Entries

/-- The keys of the fields ascend. -/
def Object.Ascending (object : Object) : Prop :=
  object.Pairwise fun left right => left.1.key < right.1.key

instance (object : Object) : Decidable object.Ascending :=
  inferInstanceAs (Decidable (List.Pairwise _ _))

/-- What insertion keeps true of an entry: the codec takes the value, and the value was built by
its constructors. -/
structure Value.Stored (field : Field) (value : Value) : Prop where
  fits : value.fits field.codec = true
  ascending : ∀ fields, value = .object fields → Object.Ascending fields
  built : ∀ amount, value = .amount amount → amount.Built

/-- An entry that readers tell from what follows it, if its field has a wire form. -/
structure Value.Framed (field : Field) (value : Value) : Prop extends Value.Stored field value where
  registered : field.Registered
  notMarker : field.isMarker = false
  wrapped : ∀ elements, value = .array elements →
    ∀ element ∈ elements, ∃ wrapper inner, element = [(wrapper, .object inner)]

/-- An entry whose value the wire form can express, if the field has one. -/
structure Value.Shaped (field : Field) (value : Value) : Prop extends Value.Stored field value where
  registered : field.Registered
  notMarker : field.isMarker = false
  wrapped : ∀ elements, value = .array elements →
    ∀ element ∈ elements, ∃ wrapper inner, element = [(wrapper, .object inner)]
  named : ∀ paths, value = .pathSet paths → [] ∉ paths ∧ ∀ path ∈ paths, Hop.empty ∉ path
  short : ∀ amount, value = .amount amount → amount.unbounded = true →
    amount.value.precision ≤ Limits.issuedPrecision

theorem Value.Shaped.toFramed {field : Field} {value : Value} (shaped : value.Shaped field) :
    value.Framed field :=
  ⟨shaped.toStored, shaped.registered, shaped.notMarker, shaped.wrapped⟩

/-- A value with nothing inside that the wire form could fail to express. -/
def Value.isAtom : Value → Bool
  | .amount _ | .pathSet _ | .object _ | .array _ => false
  | _ => true

theorem Value.shaped_of_isAtom {field : Field} {value : Value} (atom : value.isAtom = true)
    (fits : value.fits field.codec = true) (registered : field.Registered)
    (notMarker : field.isMarker = false) : value.Shaped field := by
  refine ⟨⟨fits, ?_, ?_⟩, registered, notMarker, ?_, ?_, ?_⟩ <;>
    · rintro _ rfl
      contradiction

/-- An entry that is written. -/
structure Value.Encodable (field : Field) (value : Value) : Prop extends
    Value.Shaped field value where
  serialized : field.isSerialized = true
  blob : ∀ bytes, value = .blob bytes → bytes.length ≤ Limits.maximumLength
  vector : ∀ hashes, value = .vector256 hashes → hashes.length * 32 ≤ Limits.maximumLength

/-- An object whose entries are shaped at every level, within the depth that readers accept. Fields
without a wire form may occur. -/
structure Object.Shaped (object : Object) : Prop where
  ascending : object.Ascending
  entries : object.All Value.Shaped
  nesting : object.depth ≤ Limits.maximumDepth

/-- An object that is written whole and within the depth that readers accept. -/
structure Object.WireFormed (object : Object) : Prop where
  ascending : object.Ascending
  entries : object.All Value.Encodable
  nesting : object.depth ≤ Limits.maximumDepth

theorem Object.WireFormed.shaped {object : Object} (formed : object.WireFormed) : object.Shaped :=
  ⟨formed.ascending, formed.entries.mono fun _ _ encodable => encodable.toShaped, formed.nesting⟩

end Entries

end LedgerWire
