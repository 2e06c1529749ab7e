import LedgerWire.Proofs.Object.Levels
import LedgerWire.Proofs.Success

namespace LedgerWire.Object

/-!
Objects as maps: what placing and erasing a field do to every lookup, to the order of the keys and
to what holds of every entry. Placing passes over smaller keys only, so lookups need no order.
-/

variable {object front back : Object} {field other : Field} {value : Value} {entry : Field × Value}

@[simp] theorem get?_nil (field : Field) : get? [] field = none := rfl

theorem get?_cons (entry : Field × Value) (rest : Object) (field : Field) :
    get? (entry :: rest) field =
      if entry.1.key = field.key then some entry.2 else get? rest field := by
  simp only [get?, Field.same]
  by_cases here : entry.1.key = field.key
  · simp [here]
  · simp [here]

theorem contains_eq_false :
    object.contains field = false ↔ ∀ entry ∈ object, entry.1.key ≠ field.key := by
  simp [contains, Field.same]

theorem contains_eq_isSome (object : Object) (field : Field) :
    object.contains field = (object.get? field).isSome := by
  induction object with
  | nil => rfl
  | cons entry rest ih =>
      rw [contains] at ih
      rw [get?_cons, contains, List.any_cons, ih, Field.same]
      by_cases here : entry.1.key = field.key
      · simp [here]
      · simp [here]

section Place

theorem get?_place (object : Object) (field : Field) (value : Value) (other : Field) :
    get? (place field value object) other =
      if field.key = other.key then some value else object.get? other := by
  induction object with
  | nil => rw [place, get?_cons]
  | cons entry rest ih =>
      rw [place]
      split
      · rw [get?_cons]
      · split
        · rename_i same
          rw [get?_cons, get?_cons, ← same]
          split <;> rfl
        · rename_i apart
          rw [get?_cons, ih, get?_cons]
          by_cases here : field.key = other.key
          · rw [if_pos here, if_pos here, if_neg (fun same => apart (here.trans same.symm))]
          · rw [if_neg here, if_neg here]

theorem mem_place (member : entry ∈ place field value object) :
    entry = (field, value) ∨ entry ∈ object ∨
      ∃ descriptor old, (descriptor, old) ∈ object ∧ descriptor.key = field.key ∧
        entry = (descriptor, value) := by
  induction object with
  | nil => exact Or.inl (List.mem_singleton.mp member)
  | cons first rest ih =>
      rw [place] at member
      split at member
      · rcases List.mem_cons.mp member with here | there
        · exact Or.inl here
        · exact Or.inr (Or.inl there)
      · split at member
        · rename_i same
          rcases List.mem_cons.mp member with here | there
          · exact Or.inr (Or.inr ⟨first.1, first.2, List.mem_cons_self, same.symm, here⟩)
          · exact Or.inr (Or.inl (List.mem_cons_of_mem _ there))
        · rcases List.mem_cons.mp member with here | there
          · exact Or.inr (Or.inl (here ▸ List.mem_cons_self))
          · rcases ih there with new | old | ⟨descriptor, old, found, same, isEntry⟩
            · exact Or.inl new
            · exact Or.inr (Or.inl (List.mem_cons_of_mem _ old))
            · exact Or.inr (Or.inr ⟨descriptor, old, List.mem_cons_of_mem _ found, same, isEntry⟩)

theorem key_of_mem_place (member : entry ∈ place field value object) :
    entry.1.key = field.key ∨ ∃ old ∈ object, old.1.key = entry.1.key := by
  rcases mem_place member with rfl | old | ⟨descriptor, old, found, same, rfl⟩
  · exact Or.inl rfl
  · exact Or.inr ⟨entry, old, rfl⟩
  · exact Or.inl same

theorem Ascending.place (ascending : object.Ascending) (field : Field) (value : Value) :
    Ascending (object.place field value) := by
  induction object with
  | nil => exact List.pairwise_singleton _ _
  | cons entry rest ih =>
      obtain ⟨above, ordered⟩ := List.pairwise_cons.mp ascending
      rw [Object.place]
      split
      · rename_i below
        refine List.pairwise_cons.mpr ⟨fun later member => ?_, ascending⟩
        rcases List.mem_cons.mp member with rfl | there
        · exact below
        · exact Nat.lt_trans below (above later there)
      · split
        · exact List.pairwise_cons.mpr ⟨above, ordered⟩
        · refine List.pairwise_cons.mpr ⟨fun later member => ?_, ih ordered⟩
          rcases key_of_mem_place member with same | ⟨old, found, same⟩
          · omega
          · have before : entry.1.key < old.1.key := above old found
            omega

/-- A field below all entries of a second list of fields is placed in the first. -/
theorem place_append_of_above (above : ∀ entry ∈ back, field.key < entry.1.key) :
    place field value (front ++ back) = place field value front ++ back := by
  induction front with
  | nil =>
      cases back with
      | nil => rfl
      | cons entry rest => exact if_pos (above entry List.mem_cons_self)
  | cons entry rest ih =>
      rw [List.cons_append, place, place, ih]
      split_ifs <;> rfl

/-- A field above all entries of a list of fields is placed behind it. -/
theorem place_append_of_below (below : ∀ entry ∈ front, entry.1.key < field.key) :
    place field value (front ++ back) = front ++ place field value back := by
  induction front with
  | nil => rfl
  | cons entry rest ih =>
      have here := below entry List.mem_cons_self
      have others := ih fun entry member => below entry (List.mem_cons_of_mem _ member)
      rw [List.cons_append, place, if_neg (Nat.not_lt.mpr (Nat.le_of_lt here)),
        if_neg (Nat.ne_of_gt here), others]
      rfl

theorem place_last (below : ∀ entry ∈ object, entry.1.key < field.key) :
    place field value object = object ++ [(field, value)] := by
  have behind := @place_append_of_below object [] field value below
  rwa [List.append_nil] at behind

/-- An absent field is added to the entries. -/
theorem place_perm (absent : ∀ entry ∈ object, entry.1.key ≠ field.key) :
    (place field value object).Perm ((field, value) :: object) := by
  induction object with
  | nil => exact List.Perm.refl _
  | cons entry rest ih =>
      have others := ih fun entry member => absent entry (List.mem_cons_of_mem _ member)
      rw [place]
      split
      · exact List.Perm.refl _
      · rw [if_neg fun same => absent entry List.mem_cons_self same.symm]
        exact (others.cons entry).trans (List.Perm.swap _ _ rest)

end Place

section Erase

theorem get?_erase (object : Object) (field other : Field) :
    get? (object.erase field) other = if field.key = other.key then none else object.get? other := by
  induction object with
  | nil =>
      rw [erase, List.filter_nil, get?_nil]
      split <;> rfl
  | cons entry rest ih =>
      rw [get?_cons, erase, List.filter_cons]
      by_cases erased : entry.1.key = field.key
      · have dropped : (!entry.1.same field) = false := by simp [Field.same, erased]
        rw [dropped, if_neg Bool.false_ne_true]
        change get? (erase rest field) other = _
        rw [ih, erased]
        split <;> rfl
      · have kept : (!entry.1.same field) = true := by simp [Field.same, erased]
        rw [kept, if_pos rfl, get?_cons]
        change (if _ then _ else get? (erase rest field) other) = _
        rw [ih]
        by_cases here : field.key = other.key
        · rw [if_pos here, if_pos here, if_neg (fun same => erased (same.trans here.symm))]
        · rw [if_neg here, if_neg here]

theorem mem_erase : entry ∈ object.erase field ↔ entry ∈ object ∧ entry.1.key ≠ field.key := by
  simp [erase, List.mem_filter, Field.same]

theorem Ascending.erase (ascending : object.Ascending) (field : Field) :
    Ascending (object.erase field) :=
  ascending.sublist List.filter_sublist

theorem erase_of_absent (absent : ∀ entry ∈ object, entry.1.key ≠ field.key) :
    object.erase field = object := by
  rw [erase, List.filter_eq_self]
  intro entry member
  simp [Field.same, absent entry member]

/-- Erasing undoes placing, where the field was absent. -/
theorem erase_place (absent : ∀ entry ∈ object, entry.1.key ≠ field.key) :
    (object.place field value).erase field = object := by
  induction object with
  | nil => simp [Object.place, erase, Field.same]
  | cons entry rest ih =>
      have here := absent entry List.mem_cons_self
      have others : ∀ entry ∈ rest, entry.1.key ≠ field.key := fun entry member =>
        absent entry (List.mem_cons_of_mem _ member)
      have kept : (!entry.1.same field) = true := by simp [Field.same, here]
      have dropped : (!field.same field) = false := by simp [Field.same]
      rw [Object.place]
      split
      · rw [erase, List.filter_cons, dropped, if_neg Bool.false_ne_true]
        exact erase_of_absent absent
      · rw [if_neg (fun same => here same.symm), erase, List.filter_cons, kept, if_pos rfl]
        exact congrArg (entry :: ·) (ih others)

end Erase

section Everywhere

variable {holds : Field → Value → Prop}

theorem all_iff :
    object.All holds ↔ ∀ entry ∈ object, holds entry.1 entry.2 ∧ entry.2.All holds := by
  induction object with
  | nil => exact iff_of_true trivial (List.forall_mem_nil _)
  | cons entry rest ih =>
      rw [List.forall_mem_cons, ← ih]
      exact and_assoc.symm

theorem All.perm {other : Object} (all : object.All holds) (perm : object.Perm other) :
    other.All holds :=
  all_iff.mpr fun entry member => all_iff.mp all entry (perm.mem_iff.mpr member)

theorem All.snoc (all : object.All holds) (here : holds field value) (inside : value.All holds) :
    All holds (object ++ [(field, value)]) :=
  all_iff.mpr (List.forall_mem_append.mpr
    ⟨all_iff.mp all, List.forall_mem_singleton.mpr ⟨here, inside⟩⟩)

theorem All.erase (all : object.All holds) (field : Field) : (object.erase field).All holds :=
  all_iff.mpr fun entry member => all_iff.mp all entry (mem_erase.mp member).1

/-- What holds of the fields of all entries holds after placing a value in a field of which it
holds. -/
theorem forall_place {known : Field → Prop} (all : ∀ entry ∈ object, known entry.1)
    (here : known field) : ∀ entry ∈ object.place field value, known entry.1 := by
  intro entry member
  rcases mem_place member with rfl | old | ⟨descriptor, old, found, _, rfl⟩
  · exact here
  · exact all entry old
  · exact all (descriptor, old) found

theorem forall_erase {known : Field → Prop} (all : ∀ entry ∈ object, known entry.1) :
    ∀ entry ∈ object.erase field, known entry.1 :=
  fun entry member => all entry (mem_erase.mp member).1

/-- What holds of every entry holds after placing a value of which it holds, also under the
descriptor that the field had before. -/
theorem All.place (all : object.All holds) (here : holds field value) (inside : value.All holds)
    (kept : ∀ descriptor old, holds descriptor old → descriptor.key = field.key →
      holds descriptor value) : (object.place field value).All holds := by
  refine all_iff.mpr fun entry member => ?_
  rcases mem_place member with rfl | old | ⟨descriptor, old, found, same, rfl⟩
  · exact ⟨here, inside⟩
  · exact all_iff.mp all entry old
  · exact ⟨kept descriptor old (all_iff.mp all _ found).1 same, inside⟩

theorem depth_le_iff {bound : Nat} :
    object.depth ≤ bound ↔ ∀ entry ∈ object, entry.2.depth ≤ bound := by
  induction object with
  | nil => exact iff_of_true (Nat.zero_le _) (List.forall_mem_nil _)
  | cons entry rest ih =>
      rw [List.forall_mem_cons, ← ih]
      exact Nat.max_le

theorem depth_erase_le (object : Object) (field : Field) :
    (object.erase field).depth ≤ object.depth :=
  depth_le_iff.mpr fun entry member =>
    depth_le_iff.mp (Nat.le_refl _) entry (mem_erase.mp member).1

theorem depth_place_le {bound : Nat} (shallow : object.depth ≤ bound)
    (inside : value.depth ≤ bound) : (object.place field value).depth ≤ bound := by
  refine depth_le_iff.mpr fun entry member => ?_
  rcases mem_place member with rfl | old | ⟨descriptor, old, found, same, rfl⟩
  · exact inside
  · exact depth_le_iff.mp shallow entry old
  · exact inside

theorem Shaped.registered (shaped : object.Shaped) : ∀ entry ∈ object, entry.1.Registered :=
  fun entry member => (all_iff.mp shaped.entries entry member).1.registered

theorem Shaped.place (shaped : object.Shaped) (here : value.Shaped field)
    (inside : value.All Value.Shaped) (flat : value.depth = 0) :
    Shaped (object.place field value) where
  ascending := shaped.ascending.place field value
  entries := shaped.entries.place here inside fun _ _ known same =>
    known.registered.eq_of_key here.registered same ▸ here
  nesting := depth_place_le shaped.nesting (flat ▸ Nat.zero_le _)

theorem Shaped.erase (shaped : object.Shaped) (field : Field) : Shaped (object.erase field) where
  ascending := shaped.ascending.erase field
  entries := shaped.entries.erase field
  nesting := Nat.le_trans (depth_erase_le object field) shaped.nesting

end Everywhere

section Set

variable {result : Object}

theorem set_eq_ok :
    object.set field value = .ok result ↔
      value.fits field.codec = true ∧ object.place field value = result := by
  simp only [set, insert]
  split
  · rename_i fits
    exact ⟨fun same => ⟨fits, Except.ok.inj same⟩, fun same => congrArg Except.ok same.2⟩
  · rename_i misfits
    exact ⟨fun failed => by contradiction, fun fits => absurd fits.1 misfits⟩

theorem set_of_fits (fits : value.fits field.codec = true) :
    object.set field value = .ok (object.place field value) :=
  set_eq_ok.mpr ⟨fits, rfl⟩

end Set

section Extensionality

variable {left right : Object}

theorem Ascending.distinct (ascending : object.Ascending) :
    object.Pairwise fun left right => left.1.key ≠ right.1.key :=
  ascending.imp Nat.ne_of_lt

/-- The keys stay apart in any other order of the entries. -/
theorem Ascending.distinct_of_perm {order : Object} (ascending : object.Ascending)
    (perm : order.Perm object) : order.Pairwise fun left right => left.1.key ≠ right.1.key :=
  perm.symm.pairwise ascending.distinct fun apart same => apart same.symm

theorem Ascending.eq_of_perm (leftAscending : left.Ascending) (rightAscending : right.Ascending)
    (perm : left.Perm right) : left = right := by
  refine perm.eq_of_pairwise ?_ leftAscending rightAscending
  intro first second _ _ below above
  exact absurd above (Nat.not_lt_of_gt below)

theorem Ascending.nodup (ascending : object.Ascending) : object.Nodup :=
  ascending.distinct.imp fun distinct same => distinct (congrArg (Field.key ∘ Prod.fst) same)

theorem Ascending.get?_of_mem (ascending : object.Ascending) (member : (field, value) ∈ object) :
    object.get? field = some value := by
  induction object with
  | nil => cases member
  | cons entry rest ih =>
      obtain ⟨above, ordered⟩ := List.pairwise_cons.mp ascending
      rw [get?_cons]
      rcases List.mem_cons.mp member with rfl | there
      · rw [if_pos rfl]
      · rw [if_neg (Nat.ne_of_lt (above _ there)), ih ordered there]

theorem mem_of_get? (found : object.get? field = some value) :
    ∃ descriptor, (descriptor, value) ∈ object ∧ descriptor.key = field.key := by
  induction object with
  | nil => cases found
  | cons entry rest ih =>
      rw [get?_cons] at found
      split at found
      · rename_i here
        cases found
        exact ⟨entry.1, List.mem_cons_self, here⟩
      · obtain ⟨descriptor, member, same⟩ := ih found
        exact ⟨descriptor, List.mem_cons_of_mem _ member, same⟩

/-- An entry that is looked up under its field in another object of registered fields is there. -/
theorem Ascending.mem_of_get?_eq (ascending : left.Ascending)
    (leftRegistered : ∀ entry ∈ left, entry.1.Registered)
    (rightRegistered : ∀ entry ∈ right, entry.1.Registered)
    (same : ∀ field : Field, field.Registered → left.get? field = right.get? field)
    (member : entry ∈ left) : entry ∈ right := by
  obtain ⟨field, value⟩ := entry
  have known := leftRegistered _ member
  have found := ascending.get?_of_mem member
  rw [same field known] at found
  obtain ⟨descriptor, there, sameKey⟩ := mem_of_get? found
  have whole : descriptor = field := (rightRegistered _ there).eq_of_key known sameKey
  rwa [whole] at there

/-- Objects of registered fields that hold the same values are equal. -/
theorem Ascending.eq_of_get? (leftAscending : left.Ascending) (rightAscending : right.Ascending)
    (leftRegistered : ∀ entry ∈ left, entry.1.Registered)
    (rightRegistered : ∀ entry ∈ right, entry.1.Registered)
    (same : ∀ field : Field, field.Registered → left.get? field = right.get? field) :
    left = right := by
  refine leftAscending.eq_of_perm rightAscending ?_
  rw [List.perm_ext_iff_of_nodup leftAscending.nodup rightAscending.nodup]
  intro entry
  constructor
  · exact leftAscending.mem_of_get?_eq leftRegistered rightRegistered same
  · exact rightAscending.mem_of_get?_eq rightRegistered leftRegistered fun field known =>
      (same field known).symm

end Extensionality

end LedgerWire.Object

namespace LedgerWire

theorem Elements.all_iff {holds : Field → Value → Prop} {elements : Elements} :
    Elements.All holds elements ↔ ∀ element ∈ elements, Object.All holds element := by
  induction elements with
  | nil => exact iff_of_true trivial (List.forall_mem_nil _)
  | cons element rest ih =>
      rw [List.forall_mem_cons, ← ih]
      rfl

theorem Elements.depth_le_iff {bound : Nat} {elements : Elements} :
    Elements.depth elements ≤ bound ↔ ∀ element ∈ elements, Object.depth element ≤ bound := by
  induction elements with
  | nil => exact iff_of_true (Nat.zero_le _) (List.forall_mem_nil _)
  | cons element rest ih =>
      rw [List.forall_mem_cons, ← ih]
      exact Nat.max_le

end LedgerWire
