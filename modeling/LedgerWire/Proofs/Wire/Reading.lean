import LedgerWire.Proofs.Bytes
import LedgerWire.Wire.Reader

namespace LedgerWire

/-!
What a reader takes. `Reads reader bytes value` says that the reader takes exactly `bytes` from the
front of its input and answers `value`, whatever follows: such bytes delimit themselves. Readings
compose along the sequence of readers, and a loop composes the readings of its steps.
-/

theorem Octets.ofBytes?_toList {width : Nat} (octets : Octets width) :
    Octets.ofBytes? width octets.toList = some octets := by
  rw [Octets.ofBytes?, dif_pos octets.length_toList]

theorem Octets.toList_of_ofBytes? {width : Nat} {bytes : Bytes} {octets : Octets width}
    (found : Octets.ofBytes? width bytes = some octets) : octets.toList = bytes := by
  simp only [Octets.ofBytes?] at found
  split at found
  · cases found; rfl
  · contradiction

namespace Reader

variable {α β σ : Type} {reader : Reader α} {next : α → Reader β} {taken front back : Bytes}

/-- The reader takes exactly these bytes and answers the value, whatever follows them. -/
def Reads (reader : Reader α) (bytes : Bytes) (value : α) : Prop :=
  ∀ rest, reader.run (bytes ++ rest) = .done value rest

theorem run_bind_done {input rest : Bytes} {value : α}
    (first : reader.run input = .done value rest) :
    (reader >>= next).run input = (next value).run rest := by
  change (reader.bind next).run input = _
  simp only [Reader.bind, first]

theorem run_bind_failed {input rest : Bytes} {cause : DecodeError}
    (first : reader.run input = .failed cause rest) :
    (reader >>= next).run input = .failed cause rest := by
  change (reader.bind next).run input = _
  simp only [Reader.bind, first]

namespace Reads

theorem pure (value : α) : Reads (Pure.pure value) [] value := fun _ => rfl

theorem answer {value result : α} (same : value = result) :
    Reads (Pure.pure value) [] result :=
  same ▸ pure value

/-- Input that starts with two readings of one reader has one value, and one rest. -/
theorem unique {value other : α} {rest left : Bytes} (first : Reads reader front value)
    (second : Reads reader back other) (same : front ++ rest = back ++ left) :
    value = other ∧ rest = left := by
  have outcome := first rest
  rw [same, second left] at outcome
  cases outcome
  exact ⟨rfl, rfl⟩

theorem bind {value : α} {result : β} (first : Reads reader front value)
    (second : Reads (next value) back result) :
    Reads (reader >>= next) (front ++ back) result := by
  intro rest
  rw [List.append_assoc, run_bind_done (first (back ++ rest)), second rest]

/-- A reading whose value is passed to a function that takes nothing more. -/
theorem map {value : α} {result : β} (first : Reads reader taken value)
    (second : Reads (next value) [] result) : Reads (reader >>= next) taken result := by
  simpa only [List.append_nil] using first.bind second

theorem ofExcept (value : α) : Reads (Reader.ofExcept (.ok value)) [] value := pure value

theorem delay {delayed : Unit → Reader α} {value : α} (inner : Reads (delayed ()) taken value) :
    Reads (Reader.delay delayed) taken value :=
  fun rest => inner rest

theorem mapCause {change : DecodeError → DecodeError} {value : α}
    (inner : Reads reader taken value) : Reads (reader.mapCause change) taken value := by
  intro rest
  simp only [Reader.mapCause, inner rest]

theorem byte (context : String) (byte : UInt8) : Reads (Reader.byte context) [byte] byte :=
  fun _ => rfl

/-- A reading that starts with one byte. -/
theorem cons {context : String} {first : UInt8} {result : β} {next : UInt8 → Reader β}
    (second : Reads (next first) back result) :
    Reads (Reader.byte context >>= next) (first :: back) result :=
  (byte context first).bind second

theorem octets {width : Nat} (context : String) (octets : Octets width) :
    Reads (Reader.octets width context) octets.toList octets := by
  intro rest
  have first : (octets.toList ++ rest).take width = octets.toList :=
    List.take_left' octets.length_toList
  have left : (octets.toList ++ rest).drop width = rest := List.drop_left' octets.length_toList
  simp only [Reader.octets, first, left, Octets.ofBytes?_toList]

theorem bytes (context : String) (bytes : Bytes) :
    Reads (Reader.bytes bytes.length context) bytes bytes :=
  (octets context ⟨bytes, rfl⟩).map (pure _)

theorem natural {width number : Nat} (context : String)
    (bound : number < Positional.weight 256 width) :
    Reads (Reader.natural width context) (Bytes.bigEndian width number) number :=
  (octets context (Octets.ofNat width number)).map (answer (Bytes.toNat_bigEndian bound))

theorem uint16 (context : String) (number : UInt16) :
    Reads (Reader.uint16 context) (Bytes.bigEndian 2 number.toNat) number :=
  (natural context number.toNat_lt).map (answer UInt16.ofNat_toNat)

theorem uint32 (context : String) (number : UInt32) :
    Reads (Reader.uint32 context) (Bytes.bigEndian 4 number.toNat) number :=
  (natural context number.toNat_lt).map (answer UInt32.ofNat_toNat)

theorem uint64 (context : String) (number : UInt64) :
    Reads (Reader.uint64 context) (Bytes.bigEndian 8 number.toNat) number :=
  (natural context number.toNat_lt).map (answer UInt64.ofNat_toNat)

end Reads

section Success

variable {input rest : Bytes}

theorem run_bind_eq_done {result : β} (succeeded : (reader >>= next).run input = .done result rest) :
    ∃ value middle, reader.run input = .done value middle ∧
      (next value).run middle = .done result rest := by
  change (reader.bind next).run input = _ at succeeded
  cases first : reader.run input with
  | done value middle =>
      simp only [Reader.bind, first] at succeeded
      exact ⟨value, middle, rfl, succeeded⟩
  | failed cause middle =>
      simp only [Reader.bind, first] at succeeded
      contradiction

theorem decode_eq_ok {value : α} :
    reader.decode input = .ok value ↔ ∃ rest, reader.run input = .done value rest := by
  rw [decode]
  cases reader.run input with
  | done answered rest =>
      constructor
      · intro same
        cases same
        exact ⟨rest, rfl⟩
      · rintro ⟨_, ⟨⟩⟩
        rfl
  | failed cause rest =>
      constructor
      · intro failed
        contradiction
      · rintro ⟨_, ⟨⟩⟩

theorem run_ofExcept_eq_done {computed : Except DecodeError α} {value : α}
    (succeeded : (Reader.ofExcept computed).run input = .done value rest) :
    computed = .ok value ∧ input = rest := by
  cases computed with
  | ok answered => cases succeeded; exact ⟨rfl, rfl⟩
  | error cause => cases succeeded

theorem run_mapCause_eq_done {change : DecodeError → DecodeError} {value : α}
    (succeeded : (reader.mapCause change).run input = .done value rest) :
    reader.run input = .done value rest := by
  simp only [Reader.mapCause] at succeeded
  cases inner : reader.run input with
  | done answered left => rw [inner] at succeeded; exact succeeded
  | failed cause left => rw [inner] at succeeded; contradiction

theorem run_octets_eq_done {width : Nat} {context : String} {octets : Octets width}
    (succeeded : (Reader.octets width context).run input = .done octets rest) :
    input = octets.toList ++ rest := by
  simp only [Reader.octets] at succeeded
  split at succeeded
  · rename_i found
    cases succeeded
    rw [Octets.toList_of_ofBytes? found, List.take_append_drop]
  · contradiction

theorem run_natural_eq_done {width number : Nat} {context : String}
    (succeeded : (Reader.natural width context).run input = .done number rest) :
    ∃ octets : Octets width, number = Bytes.toNat octets.toList ∧
      input = octets.toList ++ rest := by
  obtain ⟨octets, middle, taken, answered⟩ := run_bind_eq_done succeeded
  cases answered
  exact ⟨octets, rfl, run_octets_eq_done taken⟩

end Success

section Loop

variable {atEnd : Option DecodeError} {isEnd : UInt8 → Bool} {step : σ → UInt8 → Reader σ}
  {state middle final : σ}

theorem foldRun_nil :
    foldRun atEnd isEnd step state [] =
      match atEnd with
      | none => .done state []
      | some cause => .failed cause [] := by
  unfold foldRun
  rfl

theorem foldRun_end {last : UInt8} {tail : Bytes} (ends : isEnd last = true) :
    foldRun atEnd isEnd step state (last :: tail) = .done state tail := by
  rw [foldRun.eq_def]
  simp only [ends, if_true]

theorem foldRun_step {first : UInt8} {tail rest : Bytes} (continues : isEnd first = false)
    (taken : (step state first).run tail = .done middle rest) :
    foldRun atEnd isEnd step state (first :: tail) = foldRun atEnd isEnd step middle rest := by
  rw [foldRun.eq_def]
  simp only [continues, Bool.false_eq_true, if_false]
  split
  · rename_i found
    rw [taken] at found
    cases found
    rfl
  · rename_i found
    rw [taken] at found
    contradiction

theorem foldRun_failed {first : UInt8} {tail rest : Bytes} {cause : DecodeError}
    (continues : isEnd first = false) (failed : (step state first).run tail = .failed cause rest) :
    foldRun atEnd isEnd step state (first :: tail) = .failed cause rest := by
  rw [foldRun.eq_def]
  simp only [continues, Bool.false_eq_true, if_false]
  split
  · rename_i taken
    rw [failed] at taken
    cases taken
  · rename_i found
    rw [failed] at found
    cases found
    rfl

/-- A loop without an ending byte takes all of its input. -/
theorem rest_of_foldRun {input rest : Bytes} (never : ∀ byte, isEnd byte = false)
    (succeeded : foldRun atEnd isEnd step state input = .done final rest) : rest = [] := by
  fun_induction foldRun atEnd isEnd step state input with
  | case1 =>
      cases succeeded
      rfl
  | case2 => contradiction
  | case3 state first tail ends => exact absurd ends (Bool.eq_false_iff.mp (never first))
  | case4 state first tail notEnd next left taken ih => exact ih succeeded
  | case5 => contradiction

/-- The loop takes exactly these bytes and passes from one state to another, whatever follows. -/
def Folds (atEnd : Option DecodeError) (isEnd : UInt8 → Bool) (step : σ → UInt8 → Reader σ)
    (state : σ) (taken : Bytes) (final : σ) : Prop :=
  ∀ rest, foldRun atEnd isEnd step state (taken ++ rest) = foldRun atEnd isEnd step final rest

namespace Folds

theorem refl (state : σ) : Folds atEnd isEnd step state [] state := fun _ => rfl

theorem trans (first : Folds atEnd isEnd step state front middle)
    (second : Folds atEnd isEnd step middle back final) :
    Folds atEnd isEnd step state (front ++ back) final := by
  intro rest
  rw [List.append_assoc, first, second]

/-- One step: a byte that does not end the loop, and what the step takes after it. -/
theorem single {first : UInt8} (continues : isEnd first = false)
    (reading : Reads (step state first) taken final) :
    Folds atEnd isEnd step state (first :: taken) final :=
  fun rest => foldRun_step continues (reading rest)

theorem reads {last : UInt8} (run : Folds atEnd isEnd step state taken final)
    (ends : isEnd last = true) :
    Reads (Reader.fold atEnd isEnd step state) (taken ++ [last]) final := by
  intro rest
  change foldRun atEnd isEnd step state (taken ++ [last] ++ rest) = _
  rw [List.append_assoc, run]
  exact foldRun_end ends

/-- A loop that may end with its input. -/
theorem decode (run : Folds none isEnd step state taken final) :
    (Reader.fold none isEnd step state).decode taken = .ok final := by
  have whole := run []
  rw [List.append_nil, foldRun_nil] at whole
  simp only [Reader.decode, Reader.fold, whole, Outcome.toExcept]

end Folds

end Loop

end Reader

end LedgerWire
