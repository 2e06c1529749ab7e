import LedgerWire.Proofs.Object.Nesting
import Mathlib.Data.List.Forall2
import Mathlib.Data.List.Perm.Basic

namespace LedgerWire

open Reader

/-!
The order of fields on the wire. A field of an object is a chunk of bytes, its header before its
value. Readers take the chunks of each object in any order, at every level, since each chunk is
read whatever follows it and each value goes to the place of its key. A chunk that comes twice in
one object is refused when its header is read the second time.
-/

section Forms

/-- The chunks one after another, in some order. -/
def Bytes.Shuffle (chunks : List Bytes) (bytes : Bytes) : Prop :=
  ∃ arranged : List Bytes, arranged.Perm chunks ∧ bytes = arranged.flatten

/-- The chunks one after another, in some order, with one of them inserted a second time. -/
def Bytes.Repetition (chunks : List Bytes) (bytes : Bytes) : Prop :=
  ∃ (before after : List Bytes) (chunk : Bytes), (before ++ after).Perm chunks ∧
    chunk ∈ before ++ after ∧ bytes = (before ++ chunk :: after).flatten

mutual

/-- The bytes of a field's value, with the chunks of each object inside it in some order. -/
def Value.Arranged (field : Field) : Value → Bytes → Prop
  | .object fields, bytes =>
    ∃ chunks body, Object.Chunks fields chunks ∧ Bytes.Shuffle chunks body ∧
      bytes = body ++ [objectEnd]
  | .array elements, bytes =>
    ∃ body, Elements.Arranged elements body ∧ bytes = body ++ [arrayEnd]
  | value, bytes => value.writeRaw field = .ok bytes

/-- The chunks of an object's fields, in canonical order. -/
def Object.Chunks : Object → List Bytes → Prop
  | [], chunks => chunks = []
  | (field, value) :: rest, chunks =>
    ∃ front others, value.Arranged field front ∧ Object.Chunks rest others ∧
      chunks = (field.header ++ front) :: others

/-- The bytes of an array's elements, which keep their order. -/
def Elements.Arranged : Elements → Bytes → Prop
  | [], bytes => bytes = []
  | [(wrapper, value)] :: rest, bytes =>
    ∃ front back, value.Arranged wrapper front ∧ Elements.Arranged rest back ∧
      bytes = wrapper.header ++ front ++ back
  | _ :: _, _ => False

end

/-- The bytes of an object, with the chunks of each object inside it in some order. -/
def Object.Arranged (object : Object) (bytes : Bytes) : Prop :=
  ∃ chunks, Object.Chunks object chunks ∧ Bytes.Shuffle chunks bytes

mutual

/-- Bytes of a value as they may be arranged, except that one object in it has a chunk twice. -/
def Value.Repeats : Value → Bytes → Prop
  | .object fields, bytes =>
    ∃ chunks body, ((Object.Chunks fields chunks ∧ Bytes.Repetition chunks body) ∨
      (Object.ChunksRepeat fields chunks ∧ Bytes.Shuffle chunks body)) ∧ bytes = body ++ [objectEnd]
  | .array elements, bytes =>
    ∃ body, Elements.Repeats elements body ∧ bytes = body ++ [arrayEnd]
  | _, _ => False

/-- The chunks of an object's fields, except that one object in them has a chunk twice. -/
def Object.ChunksRepeat : Object → List Bytes → Prop
  | [], _ => False
  | (field, value) :: rest, chunks =>
    ∃ front others, ((value.Repeats front ∧ Object.Chunks rest others) ∨
      (value.Arranged field front ∧ Object.ChunksRepeat rest others)) ∧
      chunks = (field.header ++ front) :: others

/-- Bytes of an array's elements, except that one object in them has a chunk twice. -/
def Elements.Repeats : Elements → Bytes → Prop
  | [], _ => False
  | [(wrapper, value)] :: rest, bytes =>
    ∃ front back, ((value.Repeats front ∧ Elements.Arranged rest back) ∨
      (value.Arranged wrapper front ∧ Elements.Repeats rest back)) ∧
      bytes = wrapper.header ++ front ++ back
  | _ :: _, _ => False

end

/-- Bytes of an object as they may be arranged, except that one object, this one or one inside it,
has a chunk twice. -/
def Object.Repeats (object : Object) (bytes : Bytes) : Prop :=
  ∃ chunks, (Object.Chunks object chunks ∧ Bytes.Repetition chunks bytes) ∨
    (Object.ChunksRepeat object chunks ∧ Bytes.Shuffle chunks bytes)

end Forms

section Lists

variable {α β : Type} {related : α → β → Prop} {entries order : List α} {front back : List β}

/-- A second copy of a chunk can be taken to stand behind the first. -/
theorem Bytes.Repetition.exists_second {chunks : List Bytes} {bytes : Bytes}
    (repetition : Bytes.Repetition chunks bytes) :
    ∃ front chunk middle tail, ((front ++ chunk :: middle) ++ tail).Perm chunks ∧
      bytes = (front ++ chunk :: middle).flatten ++ (chunk ++ tail.flatten) := by
  obtain ⟨before, after, chunk, perm, member, rfl⟩ := repetition
  rcases List.mem_append.mp member with earlier | later
  · obtain ⟨front, middle, rfl⟩ := List.append_of_mem earlier
    exact ⟨front, chunk, middle, after, perm, by simp⟩
  · obtain ⟨middle, tail, rfl⟩ := List.append_of_mem later
    refine ⟨before, chunk, middle, tail, List.Perm.trans ?_ perm, by simp⟩
    rw [List.append_assoc, List.cons_append]
    exact List.Perm.append_left before List.perm_middle.symm

/-- What is related in pairs stays so when one side is rearranged and the other with it. -/
theorem exists_forall₂_of_perm {arranged chunks : List β} (perm : arranged.Perm chunks)
    (pairs : List.Forall₂ related entries chunks) :
    ∃ order : List α, order.Perm entries ∧ List.Forall₂ related order arranged := by
  obtain ⟨order, orderPairs, orderPerm⟩ := List.perm_comp_forall₂ perm pairs.flip
  exact ⟨order, orderPerm, orderPairs.flip⟩

theorem exists_forall₂_append (pairs : List.Forall₂ related order (front ++ back)) :
    ∃ orderFront orderBack, order = orderFront ++ orderBack ∧
      List.Forall₂ related orderFront front ∧ List.Forall₂ related orderBack back :=
  ⟨_, _, (List.take_append_drop front.length order).symm, List.forall₂_take_append _ _ _ pairs,
    List.forall₂_drop_append _ _ _ pairs⟩

end Lists

section Chunks

variable {levels : Nat} {object order : Object} {field : Field} {value : Value}

/-- The loop that reads an object takes the chunk as the field's value, wherever it stands, but not
a second time. -/
structure Object.Taken (levels : Nat) (entry : Field × Value) (chunk : Bytes) : Prop where
  folds : ∀ atEnd (isEnd : UInt8 → Bool) (done : Object),
    (∀ byte, byte ≠ objectEnd → isEnd byte = false) →
    (∀ earlier ∈ done, earlier.1.key ≠ entry.1.key) →
    Folds atEnd isEnd (readField (Value.readBelow levels)) done chunk
      (done.place entry.1 entry.2.settled)
  refuses : ∀ atEnd (isEnd : UInt8 → Bool) (done : Object),
    (∀ byte, byte ≠ objectEnd → isEnd byte = false) → done.contains entry.1 = true →
    Refuses (Reader.fold atEnd isEnd (readField (Value.readBelow levels)) done) chunk
      (.malformedEncoding .duplicateField)

/-- The loop that reads an object refuses the chunk, since an object inside the field's value has
one of its own twice. -/
def Object.Spoiled (levels : Nat) (entry : Field × Value) (chunk : Bytes) : Prop :=
  ∀ atEnd (isEnd : UInt8 → Bool) (done : Object),
    (∀ byte, byte ≠ objectEnd → isEnd byte = false) →
    (∀ earlier ∈ done, earlier.1.key ≠ entry.1.key) →
    Refuses (Reader.fold atEnd isEnd (readField (Value.readBelow levels)) done) chunk
      (.malformedEncoding .duplicateField)

theorem Object.Taken.of_reads {front : Bytes} (encodable : value.Encodable field)
    (reading : Reads (Value.readBelow levels field) front value.settled) :
    Object.Taken levels (field, value) (field.header ++ front) where
  folds atEnd isEnd done continues absent := by
    have fits : value.settled.fits field.codec = true := by
      rw [Value.fits_settled]
      exact encodable.fits
    exact folds_field continues encodable.registered encodable.serialized encodable.notMarker fits
      absent reading
  refuses atEnd isEnd done continues present := by
    obtain ⟨first, more, split, notEnd, _⟩ :=
      encodable.registered.header_eq_cons encodable.serialized encodable.notMarker
    have notMarker := encodable.notMarker
    simp only [Field.isMarker] at notMarker
    rw [split]
    refine Refuses.fold (continues first notEnd) ?_
    refine (Field.reads_header encodable.registered encodable.serialized split).bindRefuses ?_
    rw [notMarker, present]
    exact Refuses.fail _ _

theorem Object.Spoiled.of_refuses {front : Bytes} (encodable : value.Encodable field)
    (refuses : Refuses (Value.readBelow levels field) front (.malformedEncoding .duplicateField)) :
    Object.Spoiled levels (field, value) (field.header ++ front) :=
  fun _ _ _ continues absent =>
    refuses_entry continues encodable.toFramed encodable.serialized absent refuses

variable {atEnd : Option DecodeError} {isEnd : UInt8 → Bool} {chunks : List Bytes} {body : Bytes}

/-- The loop takes chunks of different fields one after another, whatever their order. -/
theorem Object.folds_taken {arranged : List Bytes} {done : Object}
    (continues : ∀ byte, byte ≠ objectEnd → isEnd byte = false)
    (taken : List.Forall₂ (Object.Taken levels) order arranged)
    (distinct : order.Pairwise fun left right => left.1.key ≠ right.1.key)
    (absent : ∀ earlier ∈ done, ∀ later ∈ order, earlier.1.key ≠ later.1.key)
    (ascending : done.Ascending) :
    ∃ final, Folds atEnd isEnd (readField (Value.readBelow levels)) done arranged.flatten final ∧
      final.Ascending ∧ final.Perm (done ++ order.settled) := by
  induction taken generalizing done with
  | nil => exact ⟨done, Folds.refl done, ascending, by rw [Object.settled, List.append_nil]⟩
  | @cons entry chunk rest chunks here _ ih =>
      obtain ⟨field, value⟩ := entry
      obtain ⟨apart, others⟩ := List.pairwise_cons.mp distinct
      have absentHere : ∀ earlier ∈ done, earlier.1.key ≠ field.key := fun earlier member =>
        absent earlier member (field, value) List.mem_cons_self
      have placed : (done.place field value.settled).Perm ((field, value.settled) :: done) :=
        place_perm absentHere
      have absentRest : ∀ earlier ∈ done.place field value.settled, ∀ later ∈ rest,
          earlier.1.key ≠ later.1.key := by
        intro earlier member later found
        rcases List.mem_cons.mp (placed.mem_iff.mp member) with rfl | old
        · exact apart later found
        · exact absent earlier old later (List.mem_cons_of_mem _ found)
      obtain ⟨final, folds, ordered, perm⟩ :=
        ih others absentRest (ascending.place field value.settled)
      refine ⟨final, (here.folds atEnd isEnd done continues absentHere).trans folds, ordered, ?_⟩
      rw [Object.settled]
      exact perm.trans ((placed.append_right _).trans List.perm_middle.symm)

/-- What the loop has after the first chunks of a rearranged object: their entries, settled. -/
theorem Object.exists_folds {arranged : List Bytes} (atEnd : Option DecodeError)
    (continues : ∀ byte, byte ≠ objectEnd → isEnd byte = false)
    (taken : List.Forall₂ (Object.Taken levels) order arranged)
    (distinct : order.Pairwise fun left right => left.1.key ≠ right.1.key) :
    ∃ final, Folds atEnd isEnd (readField (Value.readBelow levels)) [] arranged.flatten final ∧
      final.Ascending ∧ final.Perm order.settled :=
  folds_taken continues taken distinct (fun _ member => nomatch member) List.Pairwise.nil

theorem Object.contains_of_perm_settled {final : Object} {entry : Field × Value}
    (perm : final.Perm order.settled) (member : entry ∈ order) : final.contains entry.1 = true := by
  rw [settled_eq_map] at perm
  have settled : (entry.1, entry.2.settled) ∈ final :=
    perm.mem_iff.mpr (List.mem_map.mpr ⟨entry, member, rfl⟩)
  exact List.any_eq_true.mpr ⟨_, settled, Field.same_iff.mpr rfl⟩

theorem Object.absent_of_perm_settled {final : Object} {entry : Field × Value}
    (perm : final.Perm order.settled) (absent : ∀ earlier ∈ order, entry.1.key ≠ earlier.1.key) :
    ∀ earlier ∈ final, earlier.1.key ≠ entry.1.key := by
  intro earlier member same
  rw [settled_eq_map] at perm
  obtain ⟨origin, found, rfl⟩ := List.mem_map.mp (perm.mem_iff.mp member)
  exact absent origin found same.symm

/-- An object is read from its chunks in any order. -/
theorem Object.folds_shuffle (continues : ∀ byte, byte ≠ objectEnd → isEnd byte = false)
    (ascending : object.Ascending) (taken : List.Forall₂ (Object.Taken levels) object chunks)
    (shuffle : Bytes.Shuffle chunks body) :
    Folds atEnd isEnd (readField (Value.readBelow levels)) [] body object.settled := by
  obtain ⟨arranged, perm, rfl⟩ := shuffle
  obtain ⟨order, orderPerm, orderTaken⟩ := exists_forall₂_of_perm perm taken
  obtain ⟨final, folds, ordered, finalPerm⟩ :=
    exists_folds atEnd continues orderTaken (ascending.distinct_of_perm orderPerm)
  rwa [ordered.eq_of_perm ascending.settled (finalPerm.trans (settled_perm orderPerm))] at folds

/-- The second copy of a chunk is refused, whatever stands between and behind the two. -/
theorem Object.refuses_repetition (continues : ∀ byte, byte ≠ objectEnd → isEnd byte = false)
    (ascending : object.Ascending) (taken : List.Forall₂ (Object.Taken levels) object chunks)
    (repetition : Bytes.Repetition chunks body) :
    Refuses (Reader.fold atEnd isEnd (readField (Value.readBelow levels)) []) body
      (.malformedEncoding .duplicateField) := by
  obtain ⟨front, chunk, middle, tail, perm, rfl⟩ := repetition.exists_second
  obtain ⟨order, orderPerm, orderTaken⟩ := exists_forall₂_of_perm perm taken
  obtain ⟨earlier, later, rfl, earlierTaken, _⟩ := exists_forall₂_append orderTaken
  have distinct := (List.pairwise_append.mp (ascending.distinct_of_perm orderPerm)).1
  obtain ⟨final, folds, _, finalPerm⟩ := exists_folds atEnd continues earlierTaken distinct
  obtain ⟨before, copied, rfl, _, copiedTaken⟩ := exists_forall₂_append earlierTaken
  obtain ⟨entry, rest, here, _, rfl⟩ := List.forall₂_cons_right_iff.mp copiedTaken
  have member : entry ∈ before ++ entry :: rest := by simp
  have present := contains_of_perm_settled finalPerm member
  exact folds.refuses ((here.refuses atEnd isEnd final continues present).append _)

/-- A chunk that is refused wherever it stands is refused among others that are taken. -/
theorem Object.refuses_shuffle {entry : Field × Value} {rest : Object} {chunk : Bytes}
    {others : List Bytes} (continues : ∀ byte, byte ≠ objectEnd → isEnd byte = false)
    (ascending : object.Ascending) (entries : (entry :: rest).Perm object)
    (spoiled : Object.Spoiled levels entry chunk)
    (taken : List.Forall₂ (Object.Taken levels) rest others)
    (chunksPerm : chunks.Perm (chunk :: others)) (shuffle : Bytes.Shuffle chunks body) :
    Refuses (Reader.fold atEnd isEnd (readField (Value.readBelow levels)) []) body
      (.malformedEncoding .duplicateField) := by
  obtain ⟨arranged, perm, rfl⟩ := shuffle
  have all := perm.trans chunksPerm
  obtain ⟨front, back, rfl⟩ := List.append_of_mem (all.mem_iff.mpr List.mem_cons_self)
  have othersPerm : (front ++ back).Perm others :=
    List.Perm.cons_inv (List.perm_middle.symm.trans all)
  obtain ⟨order, orderPerm, orderTaken⟩ := exists_forall₂_of_perm othersPerm taken
  obtain ⟨earlier, later, rfl, earlierTaken, _⟩ := exists_forall₂_append orderTaken
  obtain ⟨apart, distinct⟩ := List.pairwise_cons.mp
    (ascending.distinct_of_perm ((orderPerm.cons entry).trans entries))
  obtain ⟨final, folds, _, finalPerm⟩ :=
    exists_folds atEnd continues earlierTaken (List.pairwise_append.mp distinct).1
  have absent := absent_of_perm_settled finalPerm fun earlier member =>
    apart earlier (List.mem_append_left _ member)
  rw [List.flatten_append, List.flatten_cons]
  exact folds.refuses ((spoiled atEnd isEnd final continues absent).append _)

end Chunks

section Arranged

variable {field : Field} {bytes : Bytes} {object : Object} {levels : Nat}

theorem Value.arranged_plain {value : Value} (notObject : ∀ fields, value ≠ .object fields)
    (notArray : ∀ elements, value ≠ .array elements) :
    value.Arranged field bytes ↔ value.writeRaw field = .ok bytes := by
  cases value with
  | object fields => exact absurd rfl (notObject fields)
  | array elements => exact absurd rfl (notArray elements)
  | _ => exact Iff.rfl

/-- The value is read from its bytes however they are arranged. -/
def Value.ReadsArranged (value : Value) : Prop :=
  ∀ field levels bytes, value.Encodable field → value.All Value.Encodable → value.depth ≤ levels →
    value.Arranged field bytes → Reads (Value.readBelow levels field) bytes value.settled

def Object.ReadsArranged (object : Object) : Prop :=
  ∀ levels chunks, object.All Value.Encodable → object.depth ≤ levels →
    Object.Chunks object chunks → List.Forall₂ (Object.Taken levels) object chunks

def Elements.ReadsArranged (elements : Elements) : Prop :=
  ∀ atEnd levels (done : Elements) bytes, Elements.All Value.Encodable elements →
    (∀ element ∈ elements, ∃ wrapper inner, element = [(wrapper, .object inner)]) →
    Elements.depth elements ≤ levels → Elements.Arranged elements bytes →
    Folds atEnd (· == arrayEnd)
      (Elements.readElement (Reader.delay fun _ => Object.readLevels levels (some objectEnd)))
      done bytes ((Elements.settled elements).reverse ++ done)

theorem Value.readsArranged_plain {value : Value} (notObject : ∀ fields, value ≠ .object fields)
    (notArray : ∀ elements, value ≠ .array elements) : value.ReadsArranged := by
  intro field levels bytes encodable all _ arranged
  have written := (arranged_plain notObject notArray).mp arranged
  have hopped : value.Hopped := fun paths isPathSet => (encodable.named paths isPathSet).1
  have inside : value.All fun _ value => value.Hopped := by
    cases value <;>
      first | trivial | exact absurd rfl (notObject _) | exact absurd rfl (notArray _)
  have reading := Value.reads_plain (Object.readLevels levels (some objectEnd))
    (Elements.readLevels levels) encodable.toFramed notObject notArray written
  rw [condensed_levels.value value hopped inside] at reading
  exact Reads.delay reading

/-- The fields of a nested object up to the end marker. -/
theorem Object.ReadsArranged.nested (inner : object.ReadsArranged)
    (all : object.All Value.Encodable) (ascending : object.Ascending)
    (deep : object.depth + 1 ≤ levels) (arranged : (Value.object object).Arranged field bytes) :
    Reads (Object.readLevels levels (some objectEnd)) bytes object.settled := by
  obtain ⟨chunks, body, isChunks, shuffle, rfl⟩ := arranged
  cases levels with
  | zero => exact absurd deep (Nat.not_succ_le_zero _)
  | succ levels =>
      rw [Object.readLevels]
      have taken := inner levels chunks all (Nat.le_of_succ_le_succ deep) isChunks
      refine (folds_shuffle ?_ ascending taken shuffle).reads (beq_self_eq_true _)
      intro byte different
      exact beq_eq_false_iff_ne.mpr fun same => different (Option.some.inj same).symm

theorem Object.ReadsArranged.value (inner : object.ReadsArranged) :
    (Value.object object).ReadsArranged := by
  intro field levels bytes encodable all deep arranged
  apply Reads.delay
  rw [Value.readWith, Value.codec_of_object encodable.fits]
  exact (inner.nested all (encodable.ascending object rfl) deep arranged).map (Reads.pure _)

theorem Elements.ReadsArranged.value {elements : Elements}
    (inner : Elements.ReadsArranged elements) : (Value.array elements).ReadsArranged := by
  intro field levels bytes encodable all deep arranged
  obtain ⟨body, isBody, rfl⟩ := arranged
  apply Reads.delay
  rw [Value.readWith, Value.codec_of_array encodable.fits]
  cases levels with
  | zero => exact absurd deep (Nat.not_succ_le_zero _)
  | succ levels =>
      have folds := inner (some (.unexpectedEnd "array end marker")) levels [] body all
        (encodable.wrapped elements rfl) (Nat.le_of_succ_le_succ deep) isBody
      refine Reads.map ?_ (Reads.pure _)
      rw [Elements.readLevels]
      refine (folds.reads (beq_self_eq_true _)).map (Reads.answer ?_)
      rw [List.append_nil, List.reverse_reverse]

theorem Elements.ReadsArranged.cons {wrapper : Field} {inner : Object} {rest : Elements}
    (fields : inner.ReadsArranged) (others : Elements.ReadsArranged rest) :
    Elements.ReadsArranged ([(wrapper, .object inner)] :: rest) := by
  intro atEnd levels done bytes all wraps deep arranged
  obtain ⟨⟨encodable, allInside, _⟩, allOthers⟩ := all
  obtain ⟨deepElement, deepRest⟩ := Nat.max_le.mp deep
  obtain ⟨front, back, isFront, isBack, rfl⟩ := arranged
  have reading := fields.nested allInside (encodable.ascending inner rfl)
    (Nat.le_trans (Nat.le_max_left _ _) deepElement) isFront
  have fits : (Value.object inner.settled).fits wrapper.codec = true := by
    rw [Value.codec_of_object encodable.fits]
    rfl
  have step := @Elements.folds_wrapped _ _ atEnd _ done _ encodable.registered
    encodable.notMarker fits reading
  have following := others atEnd levels ([(wrapper, .object inner.settled)] :: done) back allOthers
    (fun element member => wraps element (List.mem_cons_of_mem _ member)) deepRest isBack
  rw [Elements.settled, List.reverse_cons, List.append_assoc (List.reverse _)]
  exact step.trans following

/-- Every value is read however its bytes are arranged, and every chunk of an object is taken
wherever it stands. -/
theorem readsArranged_levels :
    Levels Value.ReadsArranged Object.ReadsArranged Elements.ReadsArranged where
  plain _ notObject notArray := Value.readsArranged_plain notObject notArray
  object _ inner := inner.value
  array _ inner := inner.value
  empty := by
    intro levels chunks _ _ isChunks
    rw [Object.Chunks] at isChunks
    rw [isChunks]
    exact List.Forall₂.nil
  entry field value rest inner others := by
    intro levels chunks all deep isChunks
    obtain ⟨encodable, allInside, allOthers⟩ := all
    obtain ⟨deepValue, deepRest⟩ := Nat.max_le.mp deep
    obtain ⟨front, back, isFront, isBack, rfl⟩ := isChunks
    have reading := inner field levels front encodable allInside deepValue isFront
    exact List.Forall₂.cons (Object.Taken.of_reads encodable reading)
      (others levels back allOthers deepRest isBack)
  none := by
    intro atEnd levels done bytes _ _ _ arranged
    rw [Elements.Arranged] at arranged
    rw [arranged]
    exact Folds.refl done
  wrapped _ _ _ fields _ others := Elements.ReadsArranged.cons fields others
  malformed element rest malformed _ _ := by
    intro atEnd levels done bytes _ wraps
    exact absurd (wraps element List.mem_cons_self) malformed

end Arranged

section Repeats

variable {field : Field} {bytes : Bytes} {object : Object} {levels : Nat}

/-- The value is refused if an object in it has a chunk twice. -/
def Value.RefusesRepeats (value : Value) : Prop :=
  ∀ field levels bytes, value.Encodable field → value.All Value.Encodable → value.depth ≤ levels →
    value.Repeats bytes →
    Refuses (Value.readBelow levels field) bytes (.malformedEncoding .duplicateField)

/-- Among the chunks there is one that is refused, and the others are taken. -/
def Object.RefusesRepeats (object : Object) : Prop :=
  ∀ levels chunks, object.All Value.Encodable → object.depth ≤ levels →
    Object.ChunksRepeat object chunks →
    ∃ entry rest chunk others, (entry :: rest).Perm object ∧ chunks.Perm (chunk :: others) ∧
      Object.Spoiled levels entry chunk ∧ List.Forall₂ (Object.Taken levels) rest others

def Elements.RefusesRepeats (elements : Elements) : Prop :=
  ∀ atEnd levels (done : Elements) bytes, Elements.All Value.Encodable elements →
    (∀ element ∈ elements, ∃ wrapper inner, element = [(wrapper, .object inner)]) →
    Elements.depth elements ≤ levels → Elements.Repeats elements bytes →
    Refuses (Reader.fold atEnd (· == arrayEnd)
      (Elements.readElement (Reader.delay fun _ => Object.readLevels levels (some objectEnd)))
      done) bytes (.malformedEncoding .duplicateField)

/-- The loop over the fields of an object refuses a chunk that comes twice, in it or inside. -/
theorem Object.RefusesRepeats.fold {atEnd : Option DecodeError} {isEnd : UInt8 → Bool}
    (inner : object.RefusesRepeats) (continues : ∀ byte, byte ≠ objectEnd → isEnd byte = false)
    (all : object.All Value.Encodable) (ascending : object.Ascending) (deep : object.depth ≤ levels)
    (repeats : object.Repeats bytes) :
    Refuses (Reader.fold atEnd isEnd (readField (Value.readBelow levels)) []) bytes
      (.malformedEncoding .duplicateField) := by
  obtain ⟨chunks, ⟨isChunks, repetition⟩ | ⟨isChunks, shuffle⟩⟩ := repeats
  · have taken := readsArranged_levels.fields object levels chunks all deep isChunks
    exact refuses_repetition continues ascending taken repetition
  · obtain ⟨entry, rest, chunk, others, entries, perm, spoiled, taken⟩ :=
      inner levels chunks all deep isChunks
    exact refuses_shuffle continues ascending entries spoiled taken perm shuffle

theorem Object.RefusesRepeats.nested (inner : object.RefusesRepeats)
    (all : object.All Value.Encodable) (ascending : object.Ascending)
    (deep : object.depth + 1 ≤ levels) (repeats : (Value.object object).Repeats bytes) :
    Refuses (Object.readLevels levels (some objectEnd)) bytes
      (.malformedEncoding .duplicateField) := by
  obtain ⟨chunks, body, either, rfl⟩ := repeats
  cases levels with
  | zero => exact absurd deep (Nat.not_succ_le_zero _)
  | succ levels =>
      rw [Object.readLevels]
      have refuses := @RefusesRepeats.fold _ _ _ (some (.unexpectedEnd "object end marker"))
        (fun byte => some objectEnd == some byte) inner ?_ all ascending
        (Nat.le_of_succ_le_succ deep) ⟨chunks, either⟩
      · exact refuses.append _
      · intro byte different
        exact beq_eq_false_iff_ne.mpr fun same => different (Option.some.inj same).symm

theorem Object.RefusesRepeats.value (inner : object.RefusesRepeats) :
    (Value.object object).RefusesRepeats := by
  intro field levels bytes encodable all deep repeats
  apply Refuses.delay
  rw [Value.readWith, Value.codec_of_object encodable.fits]
  exact (inner.nested all (encodable.ascending object rfl) deep repeats).bind

theorem Elements.RefusesRepeats.value {elements : Elements}
    (inner : Elements.RefusesRepeats elements) : (Value.array elements).RefusesRepeats := by
  intro field levels bytes encodable all deep repeats
  obtain ⟨body, isBody, rfl⟩ := repeats
  apply Refuses.delay
  rw [Value.readWith, Value.codec_of_array encodable.fits]
  apply Refuses.append
  apply Refuses.bind
  cases levels with
  | zero => exact absurd deep (Nat.not_succ_le_zero _)
  | succ levels =>
      rw [Elements.readLevels]
      exact (inner _ levels [] body all (encodable.wrapped elements rfl)
        (Nat.le_of_succ_le_succ deep) isBody).bind

theorem Object.RefusesRepeats.cons {value : Value} {rest : Object}
    (inner : value.RefusesRepeats) (others : rest.RefusesRepeats) :
    Object.RefusesRepeats ((field, value) :: rest) := by
  intro levels chunks all deep isChunks
  obtain ⟨encodable, allInside, allOthers⟩ := all
  obtain ⟨deepValue, deepRest⟩ := Nat.max_le.mp deep
  obtain ⟨front, following, ⟨repeats, isFollowing⟩ | ⟨isFront, repeats⟩, rfl⟩ := isChunks
  · have refuses := inner field levels front encodable allInside deepValue repeats
    exact ⟨_, rest, _, following, List.Perm.refl _, List.Perm.refl _,
      Object.Spoiled.of_refuses encodable refuses,
      readsArranged_levels.fields rest levels following allOthers deepRest isFollowing⟩
  · obtain ⟨entry, remaining, chunk, chunks, entries, perm, spoiled, taken⟩ :=
      others levels following allOthers deepRest repeats
    have reading := readsArranged_levels.value value field levels front encodable allInside
      deepValue isFront
    exact ⟨entry, (field, value) :: remaining, chunk, (field.header ++ front) :: chunks,
      (List.Perm.swap _ _ remaining).trans (entries.cons _),
      (perm.cons _).trans (List.Perm.swap _ _ chunks), spoiled,
      List.Forall₂.cons (Object.Taken.of_reads encodable reading) taken⟩

theorem Elements.RefusesRepeats.cons {wrapper : Field} {inner : Object} {rest : Elements}
    (fields : inner.RefusesRepeats) (others : Elements.RefusesRepeats rest) :
    Elements.RefusesRepeats ([(wrapper, .object inner)] :: rest) := by
  intro atEnd levels done bytes all wraps deep repeats
  obtain ⟨⟨encodable, allInside, _⟩, allOthers⟩ := all
  obtain ⟨deepElement, deepRest⟩ := Nat.max_le.mp deep
  have deepInner : inner.depth + 1 ≤ levels := Nat.le_trans (Nat.le_max_left _ _) deepElement
  have ascending := encodable.ascending inner rfl
  obtain ⟨front, back, ⟨repeatsFront, isBack⟩ | ⟨isFront, repeatsBack⟩, rfl⟩ := repeats
  · have refuses := fields.nested allInside ascending deepInner repeatsFront
    exact (Elements.refuses_element encodable.toFramed refuses).append back
  · have reading := (readsArranged_levels.fields inner).nested allInside ascending deepInner isFront
    have fits : (Value.object inner.settled).fits wrapper.codec = true := by
      rw [Value.codec_of_object encodable.fits]
      rfl
    have step := @Elements.folds_wrapped _ _ atEnd _ done _ encodable.registered
      encodable.notMarker fits reading
    exact step.refuses (others atEnd levels _ back allOthers
      (fun element member => wraps element (List.mem_cons_of_mem _ member)) deepRest repeatsBack)

theorem refusesRepeats_levels :
    Levels Value.RefusesRepeats Object.RefusesRepeats Elements.RefusesRepeats where
  plain value notObject notArray := by
    intro field levels bytes _ _ _ repeats
    cases value with
    | object fields => exact absurd rfl (notObject fields)
    | array elements => exact absurd rfl (notArray elements)
    | _ => cases repeats
  object _ inner := inner.value
  array _ inner := inner.value
  empty _ _ _ _ repeats := nomatch repeats
  entry _ _ _ inner others := Object.RefusesRepeats.cons inner others
  none _ _ _ _ _ _ _ repeats := nomatch repeats
  wrapped _ _ _ fields _ others := Elements.RefusesRepeats.cons fields others
  malformed element rest malformed _ _ := by
    intro atEnd levels done bytes _ wraps
    exact absurd (wraps element List.mem_cons_self) malformed

end Repeats

/-- Written bytes are arranged in canonical order. -/
theorem arranged_levels :
    Levels
      (fun value => ∀ field bytes, value.Encodable field → value.All Value.Encodable →
        value.writeRaw field = .ok bytes → value.Arranged field bytes)
      (fun object => ∀ bytes, object.All Value.Encodable → Object.write .all object = .ok bytes →
        ∃ chunks, Object.Chunks object chunks ∧ bytes = chunks.flatten)
      (fun elements => ∀ bytes, Elements.All Value.Encodable elements →
        (∀ element ∈ elements, ∃ wrapper inner, element = [(wrapper, .object inner)]) →
        Elements.writeEach elements = .ok bytes → Elements.Arranged elements bytes) where
  plain value notObject notArray field bytes _ _ written :=
    (Value.arranged_plain notObject notArray).mpr written
  object fields inner field bytes _ all written := by
    rw [Value.writeRaw] at written
    obtain ⟨body, _, bodyWritten, ended, rfl⟩ := Output.append_eq_ok.mp written
    obtain ⟨chunks, isChunks, rfl⟩ := inner body all bodyWritten
    rw [← Output.ok_inj.mp ended]
    exact ⟨chunks, chunks.flatten, isChunks, ⟨chunks, List.Perm.refl _, rfl⟩, rfl⟩
  array elements inner field bytes encodable all written := by
    rw [Value.writeRaw] at written
    obtain ⟨body, _, bodyWritten, ended, rfl⟩ := Output.append_eq_ok.mp written
    rw [← Output.ok_inj.mp ended]
    exact ⟨body, inner body all (encodable.wrapped elements rfl) bodyWritten, rfl⟩
  empty bytes _ written := ⟨[], rfl, (Output.ok_inj.mp written).symm⟩
  entry field value rest inner others bytes all written := by
    obtain ⟨encodable, allInside, allOthers⟩ := all
    obtain ⟨front, back, valueWritten, restWritten, rfl⟩ :=
      (Object.write_cons_eq_ok encodable.fits encodable.serialized).mp written
    obtain ⟨chunks, isChunks, rfl⟩ := others back allOthers restWritten
    exact ⟨(field.header ++ front) :: chunks,
      ⟨front, chunks, inner field front encodable allInside valueWritten, isChunks, rfl⟩, rfl⟩
  none bytes _ _ written := (Output.ok_inj.mp written).symm
  wrapped wrapper inner rest fields _ others bytes all wraps written := by
    obtain ⟨⟨_, allInside, _⟩, allOthers⟩ := all
    obtain ⟨front, back, innerWritten, restWritten, rfl⟩ :=
      Elements.writeEach_wrapped_eq_ok.mp written
    obtain ⟨chunks, isChunks, rfl⟩ := fields front allInside innerWritten
    have following := others back allOthers
      (fun element member => wraps element (List.mem_cons_of_mem _ member)) restWritten
    exact ⟨chunks.flatten ++ [objectEnd], back,
      ⟨chunks, chunks.flatten, isChunks, ⟨chunks, List.Perm.refl _, rfl⟩, rfl⟩, following, rfl⟩
  malformed element rest malformed _ _ bytes _ wraps :=
    absurd (wraps element List.mem_cons_self) malformed

namespace Object

/-- A well-formed object is decoded from its chunks in any order, at every level, as one object that
equals it. With any chunk a second time in one of the objects, the bytes are refused as a duplicate
field. -/
theorem decoding_forgets_order {object : Object} (formed : object.WireFormed) :
    (∃ bytes, object.toBytes = .ok bytes ∧ object.Arranged bytes) ∧
    (∃ decoded, same decoded object = true ∧
      ∀ bytes, object.Arranged bytes → ofBytes bytes = .ok decoded) ∧
    ∀ bytes, object.Repeats bytes →
      ofBytes bytes = .error (.malformedEncoding .duplicateField) := by
  refine ⟨?_, ⟨object.settled, same_settled formed.short, ?_⟩, ?_⟩
  · obtain ⟨bytes, written⟩ := formed.exists_write
    obtain ⟨chunks, isChunks, rfl⟩ := arranged_levels.fields object bytes formed.entries written
    exact ⟨_, Output.toExcept_eq_ok.mpr written, chunks, isChunks, chunks, List.Perm.refl _, rfl⟩
  · intro bytes arranged
    obtain ⟨chunks, isChunks, shuffle⟩ := arranged
    have taken := readsArranged_levels.fields object Limits.maximumDepth chunks formed.entries
      formed.nesting isChunks
    exact ofBytes_of_folds (folds_shuffle (fun _ _ => rfl) formed.ascending taken shuffle)
  · intro bytes repeats
    have refuses := @RefusesRepeats.fold bytes object Limits.maximumDepth none
      (fun byte => (none : Option UInt8) == some byte) (refusesRepeats_levels.fields object)
      (fun _ _ => rfl) formed.entries formed.ascending formed.nesting repeats
    exact refuses.decode

/-- The chunk of a signer's key. -/
def keyChunk : Bytes := [0x73, 2, 0xED, 1]

/-- The chunk of a signer's account. -/
def accountChunk : Bytes := [0x81, 20] ++ Account.one.toBytes

/-- The bytes of a list with one signer. -/
def signersChunk (signer : Bytes) : Bytes := [0xF3, 0xE0, 0x10] ++ signer ++ [0xE1, 0xF1]

theorem chunks_signerFields : Object.Chunks signerFields [keyChunk, accountChunk] :=
  ⟨[2, 0xED, 1], [accountChunk], rfl,
    ⟨[20] ++ Account.one.toBytes, [], rfl, rfl, rfl⟩, rfl⟩

/-- The list of signers before the flags, and the signer's account before its key. -/
theorem arranged_signedFlags :
    signedFlags.Arranged (signersChunk (accountChunk ++ keyChunk) ++ [0x22, 0, 0, 0, 5]) := by
  have signer : (Value.object signerFields).Arranged Fields.signer
      (accountChunk ++ keyChunk ++ [objectEnd]) :=
    ⟨_, _, chunks_signerFields, ⟨[accountChunk, keyChunk], List.Perm.swap _ _ [], rfl⟩, rfl⟩
  have signers : Elements.Arranged [[(Fields.signer, .object signerFields)]] _ :=
    ⟨_, [], signer, rfl, rfl⟩
  exact ⟨_, ⟨_, _, rfl, ⟨_, _, ⟨_, signers, rfl⟩, rfl, rfl⟩, rfl⟩, _, List.Perm.swap _ _ [], rfl⟩

/-- The signer's key once more behind its account. -/
theorem repeats_signedFlags :
    signedFlags.Repeats
      (signersChunk (keyChunk ++ accountChunk ++ keyChunk) ++ [0x22, 0, 0, 0, 5]) := by
  have repetition : Bytes.Repetition [keyChunk, accountChunk]
      (keyChunk ++ accountChunk ++ keyChunk) :=
    ⟨[keyChunk, accountChunk], [], keyChunk, List.Perm.refl _, List.mem_cons_self, rfl⟩
  have signer : (Value.object signerFields).Repeats
      (keyChunk ++ accountChunk ++ keyChunk ++ [objectEnd]) :=
    ⟨_, _, .inl ⟨chunks_signerFields, repetition⟩, rfl⟩
  have signers : Elements.Repeats [[(Fields.signer, .object signerFields)]] _ :=
    ⟨_, [], .inl ⟨signer, rfl⟩, rfl⟩
  have chunks : Object.ChunksRepeat signedFlags _ :=
    ⟨_, _, .inr ⟨rfl, _, _, .inl ⟨⟨_, signers, rfl⟩, rfl⟩, rfl⟩, rfl⟩
  exact ⟨_, .inr ⟨chunks, _, List.Perm.swap _ _ [], rfl⟩⟩

theorem decoding_forgets_order_signedFlags :
    (∃ decoded, same decoded signedFlags = true ∧
      ofBytes (signersChunk (accountChunk ++ keyChunk) ++ [0x22, 0, 0, 0, 5]) = .ok decoded) ∧
    ofBytes (signersChunk (keyChunk ++ accountChunk ++ keyChunk) ++ [0x22, 0, 0, 0, 5]) =
      .error (.malformedEncoding .duplicateField) := by
  obtain ⟨_, ⟨decoded, equal, reads⟩, refuses⟩ := decoding_forgets_order wireFormed_signedFlags
  exact ⟨⟨decoded, equal, reads _ arranged_signedFlags⟩, refuses _ repeats_signedFlags⟩

end Object

end LedgerWire
