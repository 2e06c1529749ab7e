import LedgerWire.Proofs.Wire.Reading

namespace LedgerWire.Reader

/-!
What a reader promises of any input. `Yields reader related` says that whatever value the reader
answers, the bytes that it took from the front of its input are related to that value. Promises
compose along the sequence of readers, and a loop keeps an invariant of the bytes taken so far and
the state.
-/

variable {α β σ : Type} {reader : Reader α} {next : α → Reader β} {related before : Bytes → α → Prop}
  {result : Bytes → β → Prop}

/-- The bytes that the reader takes are related to the value that it answers. -/
def Yields (reader : Reader α) (related : Bytes → α → Prop) : Prop :=
  ∀ input value rest, reader.run input = .done value rest →
    ∃ taken, input = taken ++ rest ∧ related taken value

namespace Yields

theorem mono (yields : Yields reader before) (implies : ∀ taken value, before taken value →
    related taken value) : Yields reader related := by
  intro input value rest succeeded
  obtain ⟨taken, split, holds⟩ := yields input value rest succeeded
  exact ⟨taken, split, implies taken value holds⟩

theorem pure {value : α} (holds : related [] value) : Yields (Pure.pure value) related := by
  intro input value rest succeeded
  cases succeeded
  exact ⟨[], rfl, holds⟩

theorem fail (cause : DecodeError) : Yields (Reader.fail cause) related := by
  intro input value rest succeeded
  cases succeeded

theorem bind (first : Yields reader before)
    (second : ∀ front value, before front value →
      Yields (next value) fun back answer => result (front ++ back) answer) :
    Yields (reader >>= next) result := by
  intro input answer rest succeeded
  obtain ⟨value, middle, firstDone, secondDone⟩ := run_bind_eq_done succeeded
  obtain ⟨front, rfl, related⟩ := first _ _ _ firstDone
  obtain ⟨back, rfl, holds⟩ := second front value related _ _ _ secondDone
  exact ⟨front ++ back, (List.append_assoc front back rest).symm, holds⟩

theorem map {change : α → β} (first : Yields reader before)
    (changed : ∀ taken value, before taken value → result taken (change value)) :
    Yields (reader >>= fun value => Pure.pure (change value)) result :=
  first.bind fun front value holds => pure (by
    rw [List.append_nil]
    exact changed front value holds)

theorem ofExcept (computed : Except DecodeError α) :
    Yields (Reader.ofExcept computed) fun taken value => taken = [] ∧ computed = .ok value := by
  intro input value rest succeeded
  obtain ⟨answered, rfl⟩ := run_ofExcept_eq_done succeeded
  exact ⟨[], rfl, rfl, answered⟩

theorem delay {delayed : Unit → Reader α} (inner : Yields (delayed ()) related) :
    Yields (Reader.delay delayed) related :=
  inner

theorem byte (context : String) : Yields (Reader.byte context) fun taken byte => taken = [byte] := by
  intro input value rest succeeded
  cases input with
  | nil => cases succeeded
  | cons first tail =>
      cases succeeded
      exact ⟨[value], rfl, rfl⟩

theorem octets (width : Nat) (context : String) :
    Yields (Reader.octets width context) fun taken octets => taken = octets.toList :=
  fun _ octets _ succeeded => ⟨octets.toList, run_octets_eq_done succeeded, rfl⟩

theorem bytes (count : Nat) (context : String) :
    Yields (Reader.bytes count context) fun taken bytes => taken = bytes ∧ bytes.length = count :=
  (octets count context).map fun _ octets same => ⟨same, octets.length_toList⟩

theorem natural (width : Nat) (context : String) :
    Yields (Reader.natural width context) fun taken number =>
      taken = Bytes.bigEndian width number ∧ number < Positional.weight 256 width := by
  refine (octets width context).map fun _ octets same => ?_
  have spelled := Bytes.bigEndian_toNat octets.toList
  have bound := Bytes.toNat_lt octets.toList
  rw [octets.length_toList] at spelled bound
  exact ⟨same.trans spelled.symm, bound⟩

theorem uint16 (context : String) :
    Yields (Reader.uint16 context) fun taken number =>
      taken = Bytes.bigEndian 2 number.toNat := by
  refine (natural 2 context).map fun _ number holds => ?_
  rw [UInt16.toNat_ofNat_of_lt' holds.2]
  exact holds.1

theorem uint32 (context : String) :
    Yields (Reader.uint32 context) fun taken number =>
      taken = Bytes.bigEndian 4 number.toNat := by
  refine (natural 4 context).map fun _ number holds => ?_
  rw [UInt32.toNat_ofNat_of_lt' holds.2]
  exact holds.1

theorem uint64 (context : String) :
    Yields (Reader.uint64 context) fun taken number =>
      taken = Bytes.bigEndian 8 number.toNat := by
  refine (natural 8 context).map fun _ number holds => ?_
  rw [UInt64.toNat_ofNat_of_lt' holds.2]
  exact holds.1

section Loop

variable {atEnd : Option DecodeError} {isEnd : UInt8 → Bool} {step : σ → UInt8 → Reader σ}
  {invariant : Bytes → σ → Prop}

/-- What the invariant says of the state in which a loop ends. An ending byte is the last taken. -/
theorem foldRun
    (continues : ∀ body state first, isEnd first = false → invariant body state →
      Yields (step state first) fun more next => invariant (body ++ first :: more) next)
    {state final : σ} {input rest body : Bytes} (holds : invariant body state)
    (succeeded : Reader.foldRun atEnd isEnd step state input = .done final rest) :
    ∃ taken, input = taken ++ rest ∧
      (atEnd = none ∧ invariant (body ++ taken) final ∨
        ∃ more last, taken = more ++ [last] ∧ isEnd last = true ∧ invariant (body ++ more) final) := by
  -- The invariant is about all bytes since the loop began, so `body` grows with each round.
  fun_induction Reader.foldRun atEnd isEnd step state input generalizing body with
  | case1 state isNone =>
      cases succeeded
      exact ⟨[], rfl, Or.inl ⟨isNone, (List.append_nil body).symm ▸ holds⟩⟩
  | case2 => contradiction
  | case3 state first tail ends =>
      cases succeeded
      exact ⟨[first], rfl, Or.inr ⟨[], first, rfl, ends, (List.append_nil body).symm ▸ holds⟩⟩
  | case4 state first tail notEnd next left taken ih =>
      obtain ⟨more, rfl, stepped⟩ :=
        continues body state first (Bool.eq_false_iff.mpr notEnd) holds _ _ _ taken
      obtain ⟨others, rfl, outcome⟩ := ih stepped succeeded
      rw [List.append_assoc] at outcome
      refine ⟨first :: more ++ others, by rw [List.append_assoc]; rfl, ?_⟩
      rcases outcome with atInput | ⟨inside, last, split, ends, final⟩
      · exact Or.inl atInput
      · refine Or.inr ⟨first :: more ++ inside, last, ?_, ends, ?_⟩
        · rw [split, List.append_assoc]
        · rwa [List.append_assoc] at final
  | case5 => contradiction

/-- A loop that keeps an invariant ends with its input, or with a byte of its own. -/
theorem fold {start : σ} (holds : invariant [] start)
    (continues : ∀ body state first, isEnd first = false → invariant body state →
      Yields (step state first) fun more next => invariant (body ++ first :: more) next) :
    Yields (Reader.fold atEnd isEnd step start) fun taken final =>
      atEnd = none ∧ invariant taken final ∨
        ∃ body last, taken = body ++ [last] ∧ isEnd last = true ∧ invariant body final :=
  fun _ _ _ succeeded => foldRun continues holds succeeded

end Loop

end Yields

end LedgerWire.Reader
