import LedgerWire.Proofs.Object.Wire

namespace LedgerWire

open Reader

/-!
Objects that nest too deep. They are written like all others, but cannot be read: what stands before
the first object or array below the last level is read as usual, and there the reader gives up. So
the depth alone decides whether what was written is read back.
-/

namespace Reader

variable {α β σ : Type} {reader : Reader α} {front back : Bytes} {cause : DecodeError}

/-- The reader fails for this cause on all input that starts with these bytes. -/
def Refuses (reader : Reader α) (bytes : Bytes) (cause : DecodeError) : Prop :=
  ∀ rest, ∃ left, reader.run (bytes ++ rest) = .failed cause left

namespace Refuses

theorem fail (bytes : Bytes) (cause : DecodeError) :
    Refuses (Reader.fail cause : Reader α) bytes cause :=
  fun _ => ⟨_, rfl⟩

theorem delay {delayed : Unit → Reader α} (inner : Refuses (delayed ()) front cause) :
    Refuses (Reader.delay delayed) front cause :=
  fun rest => inner rest

theorem append (refuses : Refuses reader front cause) (back : Bytes) :
    Refuses reader (front ++ back) cause := by
  intro rest
  rw [List.append_assoc]
  exact refuses (back ++ rest)

theorem bind {next : α → Reader β} (refuses : Refuses reader front cause) :
    Refuses (reader >>= next) front cause := by
  intro rest
  obtain ⟨left, failed⟩ := refuses rest
  exact ⟨left, run_bind_failed failed⟩

theorem decode (refuses : Refuses reader front cause) : reader.decode front = .error cause := by
  obtain ⟨left, failed⟩ := refuses []
  rw [List.append_nil] at failed
  simp only [Reader.decode, failed, Outcome.toExcept]

end Refuses

theorem Reads.bindRefuses {next : α → Reader β} {value : α} (first : Reads reader front value)
    (second : Refuses (next value) back cause) :
    Refuses (reader >>= next) (front ++ back) cause := by
  intro rest
  obtain ⟨left, failed⟩ := second rest
  exact ⟨left, by rw [List.append_assoc, run_bind_done (first (back ++ rest)), failed]⟩

section Loop

variable {atEnd : Option DecodeError} {isEnd : UInt8 → Bool} {step : σ → UInt8 → Reader σ}
  {state middle : σ}

/-- A loop fails with its first step. -/
theorem Refuses.fold {first : UInt8} {more : Bytes} (continues : isEnd first = false)
    (refuses : Refuses (step state first) more cause) :
    Refuses (Reader.fold atEnd isEnd step state) (first :: more) cause := by
  intro rest
  obtain ⟨left, failed⟩ := refuses rest
  exact ⟨left, foldRun_failed continues failed⟩

theorem Folds.refuses (run : Folds atEnd isEnd step state front middle)
    (refuses : Refuses (Reader.fold atEnd isEnd step middle) back cause) :
    Refuses (Reader.fold atEnd isEnd step state) (front ++ back) cause := by
  intro rest
  obtain ⟨left, failed⟩ := refuses rest
  refine ⟨left, ?_⟩
  change foldRun atEnd isEnd step state (front ++ back ++ rest) = _
  rw [List.append_assoc, run]
  exact failed

end Loop

end Reader

theorem Value.depth_of_plain {value : Value} (notObject : ∀ fields, value ≠ .object fields)
    (notArray : ∀ elements, value ≠ .array elements) : value.depth = 0 := by
  cases value <;> first | rfl | exact absurd rfl (notObject _) | exact absurd rfl (notArray _)

/-- A field without a wire form holds neither objects nor arrays. -/
theorem Value.Framed.flat {field : Field} {value : Value} (framed : value.Framed field)
    (unserialized : field.isSerialized = false) : value.depth = 0 := by
  apply Value.depth_of_plain
  · intro fields isObject
    have fits := framed.fits
    rw [isObject] at fits
    have type := Field.type_of_codec (Value.codec_of_object fits)
    rw [framed.registered.isSerialized_of_object type] at unserialized
    cases unserialized
  · intro elements isArray
    have fits := framed.fits
    rw [isArray] at fits
    have type := Field.type_of_codec (Value.codec_of_array fits)
    rw [framed.registered.isSerialized_of_array type] at unserialized
    cases unserialized

/-- Too few levels are left for the value, and its reader says so. -/
def Value.Overflows (value : Value) : Prop :=
  ∀ field levels bytes, value.Framed field → value.All Value.Framed → levels < value.depth →
    value.writeRaw field = .ok bytes →
    Refuses (Value.readBelow levels field) bytes .nestingTooDeep

def Object.Overflows (object : Object) : Prop :=
  ∀ atEnd (isEnd : UInt8 → Bool) levels (done : Object) bytes,
    (∀ byte, byte ≠ objectEnd → isEnd byte = false) → object.All Value.Framed →
    object.Ascending → (∀ earlier ∈ done, ∀ later ∈ object, earlier.1.key < later.1.key) →
    levels < object.depth → Object.write .all object = .ok bytes →
    Refuses (Reader.fold atEnd isEnd (Object.readField (Value.readBelow levels)) done) bytes
      .nestingTooDeep

def Elements.Overflows (elements : Elements) : Prop :=
  ∀ atEnd levels (done : Elements) bytes, Elements.All Value.Framed elements →
    (∀ element ∈ elements, ∃ wrapper inner, element = [(wrapper, .object inner)]) →
    levels < Elements.depth elements → Elements.writeEach elements = .ok bytes →
    Refuses (Reader.fold atEnd (· == arrayEnd)
      (Elements.readElement (Reader.delay fun _ => Object.readLevels levels (some objectEnd)))
      done) bytes .nestingTooDeep

theorem Object.Overflows.nested {object : Object} (overflows : object.Overflows) {levels : Nat}
    {bytes : Bytes} (framed : object.All Value.Framed) (ascending : object.Ascending)
    (deep : levels < object.depth + 1) (written : Object.write .all object = .ok bytes) :
    Refuses (Object.readLevels levels (some objectEnd)) bytes .nestingTooDeep := by
  rw [Object.readLevels.eq_def]
  cases levels with
  | zero => exact Refuses.fail _ _
  | succ levels =>
      refine overflows _ _ levels [] bytes ?_ framed ascending ?_ (Nat.lt_of_succ_lt_succ deep)
        written
      · intro byte different
        exact beq_eq_false_iff_ne.mpr fun same => different (Option.some.inj same).symm
      · intro earlier member
        cases member

theorem Object.Overflows.value {fields : Object} (inner : fields.Overflows) :
    (Value.object fields).Overflows := by
  intro field levels bytes framed all deep written
  rw [Value.writeRaw] at written
  obtain ⟨front, _, fieldsWritten, _, rfl⟩ := Output.append_eq_ok.mp written
  apply Refuses.delay
  rw [Value.readWith, Value.codec_of_object framed.fits]
  exact ((inner.nested all (framed.ascending fields rfl) deep fieldsWritten).bind).append _

theorem Elements.Overflows.value {elements : Elements} (inner : Elements.Overflows elements) :
    (Value.array elements).Overflows := by
  intro field levels bytes framed all deep written
  rw [Value.writeRaw] at written
  obtain ⟨front, _, elementsWritten, _, rfl⟩ := Output.append_eq_ok.mp written
  apply Refuses.delay
  rw [Value.readWith, Value.codec_of_array framed.fits]
  apply Refuses.append
  apply Refuses.bind
  rw [Elements.readLevels.eq_def]
  cases levels with
  | zero => exact Refuses.fail _ _
  | succ levels =>
      exact (inner _ levels [] front all (framed.wrapped elements rfl)
        (Nat.lt_of_succ_lt_succ deep) elementsWritten).bind

/-- The step of a field fails if its value does. -/
theorem Object.refuses_entry {field : Field} {value : Value} {atEnd : Option DecodeError}
    {isEnd : UInt8 → Bool} {levels : Nat} {done : Object} {front : Bytes} {cause : DecodeError}
    (continues : ∀ byte, byte ≠ objectEnd → isEnd byte = false) (framed : value.Framed field)
    (serialized : field.isSerialized = true)
    (absent : ∀ earlier ∈ done, earlier.1.key ≠ field.key)
    (refuses : Refuses (Value.readBelow levels field) front cause) :
    Refuses (Reader.fold atEnd isEnd (Object.readField (Value.readBelow levels)) done)
      (field.header ++ front) cause := by
  obtain ⟨first, more, split, notEnd, _⟩ :=
    framed.registered.header_eq_cons serialized framed.notMarker
  have notMarker := framed.notMarker
  simp only [Field.isMarker] at notMarker
  rw [split]
  refine Refuses.fold (continues first notEnd) ?_
  refine (Field.reads_header framed.registered serialized split).bindRefuses ?_
  rw [notMarker, Object.contains_eq_false.mpr absent]
  exact refuses.bind

theorem Object.Overflows.cons {field : Field} {value : Value} {rest : Object}
    (inner : value.Overflows) (others : rest.Overflows) :
    Object.Overflows ((field, value) :: rest) := by
  intro atEnd isEnd levels done bytes continues all ascending above deep written
  obtain ⟨framed, allInside, allOthers⟩ := all
  have ordered := (List.pairwise_cons.mp ascending).2
  cases serialized : field.isSerialized with
  | false =>
      have deepRest : levels < rest.depth := by
        rw [Object.depth, framed.flat serialized, Nat.zero_max] at deep
        exact deep
      rw [Object.write_cons_unserialized value rest serialized] at written
      exact others _ _ _ _ _ continues allOthers ordered
        (fun earlier member later found =>
          above earlier member later (List.mem_cons_of_mem _ found)) deepRest written
  | true =>
      obtain ⟨front, back, valueWritten, restWritten, rfl⟩ :=
        (Object.write_cons_eq_ok framed.fits serialized).mp written
      have aboveHere : ∀ earlier ∈ done, earlier.1.key < field.key := fun earlier member =>
        above earlier member (field, value) List.mem_cons_self
      have absent : ∀ earlier ∈ done, earlier.1.key ≠ field.key := fun earlier member =>
        Nat.ne_of_lt (aboveHere earlier member)
      -- Either this value is refused, or it is read and a later one is refused.
      by_cases deepValue : levels < value.depth
      · have refuses := inner field levels front framed allInside deepValue valueWritten
        exact (Object.refuses_entry continues framed serialized absent refuses).append back
      · have deepRest : levels < rest.depth := by
          rw [Object.depth] at deep
          omega
        have step := @Object.folds_entry _ _ atEnd isEnd _ _ _ (readsBack_levels.value value)
          continues framed allInside serialized aboveHere (Nat.le_of_not_lt deepValue) valueWritten
        exact step.refuses (others atEnd isEnd levels _ back continues allOthers ordered
          (Object.above_snoc _ ascending above) deepRest restWritten)

/-- The step of an element fails if the wrapped object does. -/
theorem Elements.refuses_element {wrapper : Field} {inner : Object} {atEnd : Option DecodeError}
    {levels : Nat} {done : Elements} {front : Bytes} {cause : DecodeError}
    (framed : (Value.object inner).Framed wrapper)
    (refuses : Refuses (Object.readLevels levels (some objectEnd)) front cause) :
    Refuses (Reader.fold atEnd (· == arrayEnd)
      (Elements.readElement (Reader.delay fun _ => Object.readLevels levels (some objectEnd)))
      done) (wrapper.header ++ front) cause := by
  have isObject := Field.type_of_codec (Value.codec_of_object framed.fits)
  have serialized := framed.registered.isSerialized_of_object isObject
  obtain ⟨first, more, split, _, notEnd⟩ :=
    framed.registered.header_eq_cons serialized framed.notMarker
  have notObjectEnd : wrapper.same Fields.objectEndMarker = false :=
    (Bool.or_eq_false_iff.mp framed.notMarker).1
  rw [split]
  refine Refuses.fold (beq_eq_false_iff_ne.mpr notEnd) ?_
  refine (Field.reads_header framed.registered serialized split).bindRefuses ?_
  rw [if_neg (by rw [isObject, notObjectEnd]; decide)]
  exact refuses.delay.bind

theorem Elements.Overflows.cons {wrapper : Field} {inner : Object} {rest : Elements}
    (fields : inner.Overflows) (others : Elements.Overflows rest) :
    Elements.Overflows ([(wrapper, .object inner)] :: rest) := by
  intro atEnd levels done bytes all wraps deep written
  obtain ⟨⟨framed, allInside, _⟩, allOthers⟩ := all
  obtain ⟨front, back, innerWritten, restWritten, rfl⟩ :=
    Elements.writeEach_wrapped_eq_ok.mp written
  by_cases deepInner : levels < inner.depth + 1
  · have refuses := fields.nested allInside (framed.ascending inner rfl) deepInner innerWritten
    exact (Elements.refuses_element framed (refuses.append _)).append back
  · have deepRest : levels < Elements.depth rest := by
      rw [Elements.depth, Object.depth, Object.depth, Nat.max_zero, Value.depth] at deep
      omega
    have step := @Elements.folds_element _ _ atEnd _ done _ (readsBack_levels.fields inner) framed
      allInside (Nat.le_of_not_lt deepInner) innerWritten
    exact step.refuses (others atEnd levels _ back allOthers
      (fun element member => wraps element (List.mem_cons_of_mem _ member)) deepRest restWritten)

theorem overflows_levels : Levels Value.Overflows Object.Overflows Elements.Overflows where
  plain _ notObject notArray := by
    intro field levels bytes _ _ deep
    rw [Value.depth_of_plain notObject notArray] at deep
    exact absurd deep (Nat.not_lt_zero _)
  object _ inner := inner.value
  array _ inner := inner.value
  empty := by
    intro atEnd isEnd levels done bytes _ _ _ _ deep
    exact absurd deep (Nat.not_lt_zero _)
  entry _ _ _ inner others := Object.Overflows.cons inner others
  none := by
    intro atEnd levels done bytes _ _ deep
    exact absurd deep (Nat.not_lt_zero _)
  wrapped _ _ _ fields _ others := Elements.Overflows.cons fields others
  malformed element rest malformed _ _ := by
    intro atEnd levels done bytes _ wraps
    exact absurd (wraps element List.mem_cons_self) malformed

/-- What is read of a written object: what the wire keeps of it, unless it nests too deep. -/
theorem Object.ofBytes_of_framed {object : Object} (ascending : object.Ascending)
    (framed : object.All Value.Framed) {bytes : Bytes}
    (written : Object.write .all object = .ok bytes) :
    Object.ofBytes bytes =
      if object.depth ≤ Limits.maximumDepth then .ok object.condensed.pruned.settled
      else .error .nestingTooDeep := by
  split
  · rename_i nesting
    exact ofBytes_of_nesting ascending framed nesting written
  · rename_i deep
    have refuses := overflows_levels.fields object none
      (fun byte => (none : Option UInt8) == some byte) Limits.maximumDepth [] bytes (fun _ _ => rfl)
      framed ascending nofun (Nat.lt_of_not_le deep) written
    exact refuses.decode

end LedgerWire
