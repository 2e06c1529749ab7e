import LedgerWire.Proofs.Currency
import LedgerWire.Proofs.Object.Levels
import LedgerWire.Proofs.Path.Wire

namespace LedgerWire

/-!
What the wire keeps of an object. It drops the fields that have no wire form and the paths that have
no hop, and holds amounts at its own precision. As long as no amount has more digits, objects that
settle to one object are equal.
-/

mutual

/-- The value without the fields inside it that have no wire form. -/
def Value.pruned : Value → Value
  | .object fields => .object (Object.pruned fields)
  | .array elements => .array (Elements.pruned elements)
  | value => value

/-- The object without the fields that have no wire form, at any level. -/
def Object.pruned : Object → Object
  | [] => []
  | (field, value) :: rest =>
    if field.isSerialized then (field, value.pruned) :: Object.pruned rest else Object.pruned rest

/-- The array without the fields that have no wire form in the objects that its elements wrap. -/
def Elements.pruned : Elements → Elements
  | [] => []
  | [(wrapper, .object inner)] :: rest =>
    [(wrapper, .object (Object.pruned inner))] :: Elements.pruned rest
  | element :: rest => element :: Elements.pruned rest

end

mutual

/-- The value with its amounts as the wire holds them. -/
def Value.settled : Value → Value
  | .object fields => .object (Object.settled fields)
  | .array elements => .array (Elements.settled elements)
  | .amount amount => .amount amount.settled
  | value => value

def Object.settled : Object → Object
  | [] => []
  | (field, value) :: rest => (field, value.settled) :: Object.settled rest

def Elements.settled : Elements → Elements
  | [] => []
  | element :: rest => Object.settled element :: Elements.settled rest

end

mutual

/-- The value without the empty paths inside it. -/
def Value.condensed : Value → Value
  | .object fields => .object (Object.condensed fields)
  | .array elements => .array (Elements.condensed elements)
  | .pathSet paths => .pathSet (PathSet.condensed paths)
  | value => value

def Object.condensed : Object → Object
  | [] => []
  | (field, value) :: rest => (field, value.condensed) :: Object.condensed rest

def Elements.condensed : Elements → Elements
  | [] => []
  | element :: rest => Object.condensed element :: Elements.condensed rest

end

section Pruned

theorem Elements.pruned_wrapped (wrapper : Field) (inner : Object) (rest : Elements) :
    Elements.pruned ([(wrapper, .object inner)] :: rest) =
      [(wrapper, .object inner.pruned)] :: Elements.pruned rest := rfl

theorem Elements.pruned_malformed {element : Object} (rest : Elements)
    (malformed : ¬ ∃ wrapper inner, element = [(wrapper, .object inner)]) :
    Elements.pruned (element :: rest) = element :: Elements.pruned rest := by
  rw [Elements.pruned]
  rintro wrapper inner rfl
  exact malformed ⟨wrapper, inner, rfl⟩

theorem Value.fits_pruned (value : Value) (codec : Codec) :
    value.pruned.fits codec = value.fits codec := by
  cases value <;> first | rfl | rcases codec with ⟨⟨⟩⟩ | _ | _ | _ | _ <;> rfl

theorem Value.fits_settled (value : Value) (codec : Codec) :
    value.settled.fits codec = value.fits codec := by
  cases value <;> first | rfl | rcases codec with ⟨⟨⟩⟩ | _ | _ | _ | _ <;> rfl

/-- Pruning changes nothing where every field has a wire form. -/
theorem pruned_levels :
    Levels (fun value => (value.All fun field _ => field.isSerialized = true) →
        value.pruned = value)
      (fun object => (object.All fun field _ => field.isSerialized = true) →
        object.pruned = object)
      (fun elements => (Elements.All (fun field _ => field.isSerialized = true) elements) →
        Elements.pruned elements = elements) where
  plain value notObject notArray _ := by
    cases value <;> first | rfl | exact absurd rfl (notObject _) | exact absurd rfl (notArray _)
  object fields inner all := congrArg Value.object (inner all)
  array elements inner all := congrArg Value.array (inner all)
  empty _ := rfl
  entry field value rest inner others := by
    rintro ⟨serialized, all, allOthers⟩
    rw [Object.pruned, if_pos serialized, inner all, others allOthers]
  none _ := rfl
  wrapped wrapper inner rest fields _ others := by
    rintro ⟨⟨_, all, _⟩, allOthers⟩
    rw [Elements.pruned_wrapped, fields all, others allOthers]
  malformed element rest malformed _ others := by
    rintro ⟨_, allOthers⟩
    rw [Elements.pruned_malformed rest malformed, others allOthers]

theorem Object.pruned_eq_self {object : Object}
    (serialized : object.All fun field _ => field.isSerialized = true) : object.pruned = object :=
  pruned_levels.fields object serialized

/-- What holds of every entry, and goes on to hold when its value is pruned, holds of every entry
that pruning leaves. -/
theorem all_pruned_levels {holds : Field → Value → Prop}
    (kept : ∀ field value, holds field value → holds field value.pruned) :
    Levels (fun value => value.All holds → value.pruned.All holds)
      (fun object => object.All holds → object.pruned.All holds)
      (fun elements => Elements.All holds elements →
        Elements.All holds (Elements.pruned elements)) where
  plain value notObject notArray all := by
    cases value <;> first | exact all | exact absurd rfl (notObject _) | exact absurd rfl (notArray _)
  object _ inner := inner
  array _ inner := inner
  empty _ := trivial
  entry field value rest inner others := by
    rintro ⟨here, all, allOthers⟩
    rw [Object.pruned]
    split
    · exact ⟨kept field value here, inner all, others allOthers⟩
    · exact others allOthers
  none _ := trivial
  wrapped wrapper inner rest fields _ others := by
    rintro ⟨⟨here, all, _⟩, allOthers⟩
    exact ⟨⟨kept wrapper (.object inner) here, fields all, trivial⟩, others allOthers⟩
  malformed element rest malformed _ others := by
    rintro ⟨all, allOthers⟩
    rw [Elements.pruned_malformed rest malformed]
    exact ⟨all, others allOthers⟩

theorem Object.All.pruned {holds : Field → Value → Prop} {object : Object} (all : object.All holds)
    (kept : ∀ field value, holds field value → holds field value.pruned) :
    object.pruned.All holds :=
  (all_pruned_levels kept).fields object all

end Pruned

section Settled

/-- A value that is no amount, or an amount as the wire holds it. -/
def Value.IsSettled (value : Value) : Prop :=
  ∀ amount, value = .amount amount → amount.settled = amount

/-- Settling changes nothing where every amount is as the wire holds it. -/
theorem settled_levels :
    Levels (fun value => value.IsSettled → (value.All fun _ value => value.IsSettled) →
        value.settled = value)
      (fun object => (object.All fun _ value => value.IsSettled) → object.settled = object)
      (fun elements => Elements.All (fun _ value => value.IsSettled) elements →
        Elements.settled elements = elements) where
  plain value notObject notArray here _ := by
    cases value <;>
      first
        | rfl
        | exact absurd rfl (notObject _)
        | exact absurd rfl (notArray _)
        | exact congrArg Value.amount (here _ rfl)
  object fields inner _ all := congrArg Value.object (inner all)
  array elements inner _ all := congrArg Value.array (inner all)
  empty _ := rfl
  entry field value rest inner others := by
    rintro ⟨here, all, allOthers⟩
    rw [Object.settled, inner here all, others allOthers]
  none _ := rfl
  wrapped wrapper inner rest _ element others := by
    rintro ⟨all, allOthers⟩
    rw [Elements.settled, element all, others allOthers]
  malformed first rest _ element others := by
    rintro ⟨all, allOthers⟩
    rw [Elements.settled, element all, others allOthers]

theorem Object.settled_eq_self {object : Object}
    (isSettled : object.All fun _ value => value.IsSettled) : object.settled = object :=
  settled_levels.fields object isSettled

theorem Object.settled_eq_map (object : Object) :
    object.settled = object.map fun entry => (entry.1, entry.2.settled) := by
  induction object with
  | nil => rfl
  | cons entry rest ih => rw [Object.settled, ih, List.map_cons]

theorem Object.settled_perm {object order : Object} (perm : object.Perm order) :
    object.settled.Perm order.settled := by
  rw [settled_eq_map, settled_eq_map]
  exact perm.map _

theorem Object.Ascending.settled {object : Object} (ascending : object.Ascending) :
    object.settled.Ascending := by
  rw [settled_eq_map]
  exact List.pairwise_map.mpr ascending

end Settled

section Condensed

theorem Value.fits_condensed (value : Value) (codec : Codec) :
    value.condensed.fits codec = value.fits codec := by
  cases value <;> first | rfl | rcases codec with ⟨⟨⟩⟩ | _ | _ | _ | _ <;> rfl

theorem Elements.condensed_wrapped (wrapper : Field) (inner : Object) (rest : Elements) :
    Elements.condensed ([(wrapper, .object inner)] :: rest) =
      [(wrapper, .object inner.condensed)] :: Elements.condensed rest := rfl

/-- A value that is no path set, or a path set without empty paths. -/
def Value.Hopped (value : Value) : Prop :=
  ∀ paths, value = .pathSet paths → [] ∉ paths

/-- Condensing changes nothing where every path has a hop. -/
theorem condensed_levels :
    Levels (fun value => value.Hopped → (value.All fun _ value => value.Hopped) →
        value.condensed = value)
      (fun object => (object.All fun _ value => value.Hopped) → object.condensed = object)
      (fun elements => Elements.All (fun _ value => value.Hopped) elements →
        Elements.condensed elements = elements) where
  plain value notObject notArray here _ := by
    cases value <;>
      first
        | rfl
        | exact absurd rfl (notObject _)
        | exact absurd rfl (notArray _)
        | exact congrArg Value.pathSet (PathSet.condensed_eq_self (here _ rfl))
  object fields inner _ all := congrArg Value.object (inner all)
  array elements inner _ all := congrArg Value.array (inner all)
  empty _ := rfl
  entry field value rest inner others := by
    rintro ⟨here, all, allOthers⟩
    rw [Object.condensed, inner here all, others allOthers]
  none _ := rfl
  wrapped wrapper inner rest _ element others := by
    rintro ⟨all, allOthers⟩
    rw [Elements.condensed, element all, others allOthers]
  malformed first rest _ element others := by
    rintro ⟨all, allOthers⟩
    rw [Elements.condensed, element all, others allOthers]

theorem Object.condensed_eq_self {object : Object}
    (hopped : object.All fun _ value => value.Hopped) : object.condensed = object :=
  condensed_levels.fields object hopped

end Condensed

section Same

theorem Hop.same_refl (hop : Hop) : hop.same hop = true := by
  obtain ⟨account, currency, issuer⟩ := hop
  cases currency <;> simp [Hop.same, Currency.same_iff]

private theorem isEqv_refl {α : Type} {same : α → α → Bool} (refl : ∀ value, same value value = true)
    (values : List α) : values.isEqv values same = true := by
  induction values with
  | nil => rfl
  | cons value rest ih => rw [List.isEqv, refl, ih, Bool.and_self]

theorem PathSet.same_refl (paths : PathSet) : PathSet.same paths paths = true :=
  isEqv_refl (isEqv_refl Hop.same_refl) paths

theorem Amount.same_iff {left right : Amount} :
    left.same right = true ↔
      left.value = right.value ∧ left.currency.same right.currency = true ∧
        left.issuer = right.issuer := by
  simp only [Amount.same]
  rw [Bool.and_eq_true, Bool.and_eq_true, beq_iff_eq, beq_iff_eq, and_assoc]

/-- An amount of no more digits than the wire holds. -/
def Value.Short (value : Value) : Prop :=
  ∀ amount, value = .amount amount → amount.wireValue = amount.value

theorem Value.Short.pruned {value : Value} (short : value.Short) : value.pruned.Short := by
  intro amount same
  apply short
  cases value <;> first | exact same | cases same

theorem Value.Shaped.toShort {field : Field} {value : Value} (shaped : value.Shaped field) :
    value.Short := by
  rintro amount rfl
  exact (shaped.built amount rfl).valid.wireValue_eq (shaped.short amount rfl)

/-- An object is equal to every other that settles to the same. -/
def Object.Determined (left : Object) : Prop :=
  ∀ right : Object, left.settled = right.settled → (left.All fun _ value => value.Short) →
    (right.All fun _ value => value.Short) → Object.same left right = true

def Value.Determined (left : Value) : Prop :=
  ∀ right : Value, left.settled = right.settled → left.Short → right.Short →
    (left.All fun _ value => value.Short) → (right.All fun _ value => value.Short) →
    left.same right = true

def Elements.Determined (left : Elements) : Prop :=
  ∀ right : Elements, Elements.settled left = Elements.settled right →
    Elements.All (fun _ value => value.Short) left →
    Elements.All (fun _ value => value.Short) right → Elements.same left right = true

theorem Object.Determined.cons {element : Object} {rest : Elements}
    (first : element.Determined) (others : Elements.Determined rest) :
    Elements.Determined (element :: rest) := by
  intro right same leftAll rightAll
  cases right with
  | nil => cases same
  | cons rightElement rightRest =>
      simp only [Elements.settled, List.cons.injEq] at same
      have firsts := first rightElement same.1 leftAll.1 rightAll.1
      have rests := others rightRest same.2 leftAll.2 rightAll.2
      rw [Elements.same, firsts, rests, Bool.and_self]

theorem determined_levels :
    Levels Value.Determined Object.Determined Elements.Determined where
  plain left notObject notArray right := by
    intro same leftShort rightShort _ _
    cases left <;> cases right <;>
      simp_all [Value.settled, Value.same, Value.Short, Amount.same_iff, Amount.settled,
        Currency.same_iff, PathSet.same_refl]
  object fields inner right := by
    intro same _ _ leftAll rightAll
    cases right <;> simp only [Value.settled, Value.object.injEq, reduceCtorEq] at same
    exact inner _ same leftAll rightAll
  array elements inner right := by
    intro same _ _ leftAll rightAll
    cases right <;> simp only [Value.settled, Value.array.injEq, reduceCtorEq] at same
    exact inner _ same leftAll rightAll
  empty right := by
    intro same _ _
    cases right with
    | nil => rfl
    | cons entry others => cases same
  entry field value rest inner others right := by
    rintro same ⟨leftShort, leftAll, leftOthers⟩ rightAll
    cases right with
    | nil => cases same
    | cons entry rightRest =>
        obtain ⟨rightShort, rightAll, rightOthers⟩ := rightAll
        simp only [Object.settled, List.cons.injEq, Prod.mk.injEq] at same
        obtain ⟨⟨sameField, sameValue⟩, sameRest⟩ := same
        have values := inner _ sameValue leftShort rightShort leftAll rightAll
        have rests := others _ sameRest leftOthers rightOthers
        simp only [Object.same, Field.same_iff.mpr (congrArg Field.key sameField), values, rests,
          Bool.and_self]
  none right := by
    intro same _ _
    cases right with
    | nil => rfl
    | cons element others => cases same
  wrapped _ _ _ _ element others := element.cons others
  malformed _ _ _ element others := element.cons others

theorem Object.same_of_settled_eq {left right : Object} (same : left.settled = right.settled)
    (leftShort : left.All fun _ value => value.Short)
    (rightShort : right.All fun _ value => value.Short) : Object.same left right = true :=
  determined_levels.fields left right same leftShort rightShort

/-- Settling changes nothing that equality sees. -/
theorem same_settled_levels :
    Levels
      (fun value => value.Short → (value.All fun _ value => value.Short) →
        value.settled.same value = true)
      (fun object => (object.All fun _ value => value.Short) →
        Object.same object.settled object = true)
      (fun elements => Elements.All (fun _ value => value.Short) elements →
        Elements.same (Elements.settled elements) elements = true) where
  plain value notObject notArray := by
    intro short _
    cases value <;>
      simp_all [Value.settled, Value.same, Value.Short, Amount.same_iff, Amount.settled,
        Currency.same_iff, PathSet.same_refl]
  object _ inner _ all := inner all
  array _ inner _ all := inner all
  empty _ := rfl
  entry field value rest inner others := by
    rintro ⟨short, all, allOthers⟩
    rw [Object.settled, Object.same, inner short all, others allOthers, Field.same_iff.mpr rfl]
    rfl
  none _ := rfl
  wrapped _ _ _ _ element others all := by
    rw [Elements.settled, Elements.same, element all.1, others all.2, Bool.and_self]
  malformed _ _ _ element others all := by
    rw [Elements.settled, Elements.same, element all.1, others all.2, Bool.and_self]

theorem Object.same_settled {object : Object} (short : object.All fun _ value => value.Short) :
    Object.same object.settled object = true :=
  same_settled_levels.fields object short

end Same

end LedgerWire
