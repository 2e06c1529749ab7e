import LedgerWire.Proofs.Wire.Reading

namespace LedgerWire.Reader

/-!
What a reader may know of its input. A local reader looks at nothing past the bytes that it takes,
and where its input is cut inside them it fails or takes all that is left. A loop over local steps
that fails at the end of input delimits itself: what follows has no say in what it takes, not even
that nothing follows, and no cut of what it takes is read.
-/

variable {α β σ : Type} {reader : Reader α} {next : α → Reader β} {input front : Bytes}

/-- On this input the reader fails or takes everything. -/
def Drains (reader : Reader α) (input : Bytes) : Prop :=
  ∀ value rest, reader.run input = .done value rest → rest = []

/-- The reader looks at nothing past what it takes, unless that is everything, and does not stop
short where its input is cut. -/
def Local (reader : Reader α) : Prop :=
  ∀ input value rest, reader.run input = .done value rest →
    ∃ taken, input = taken ++ rest ∧ (rest ≠ [] → Reads reader taken value) ∧
      ∀ front back, taken = front ++ back → back ≠ [] → reader.Drains front

/-- What the reader takes is told from everything that may follow, and from its own cuts. -/
def Delimits (reader : Reader α) : Prop :=
  ∀ input value rest, reader.run input = .done value rest →
    ∃ taken, input = taken ++ rest ∧ taken ≠ [] ∧ Reads reader taken value ∧
      ∀ front back, taken = front ++ back → back ≠ [] → ∃ cause left,
        reader.run front = .failed cause left

/-- What is left of two pieces at a cut: the first and some of the second, or some of the first. -/
theorem cut_cases {back kept cut : Bytes} (whole : front ++ back = kept ++ cut) :
    (∃ more, kept = front ++ more ∧ back = more ++ cut) ∨
      ∃ more, front = kept ++ more ∧ more ≠ [] := by
  rcases List.append_eq_append_iff.mp whole with inSecond | ⟨more, inFirst, left⟩
  · exact Or.inl inSecond
  · cases more with
    | nil => exact Or.inl ⟨[], by rw [inFirst, List.append_nil, List.append_nil], left.symm⟩
    | cons byte more => exact Or.inr ⟨_, inFirst, List.cons_ne_nil byte more⟩

theorem run_nil_eq_done {value : α} {rest : Bytes} (succeeded : reader.run [] = .done value rest) :
    rest = [] := by
  have suffix := reader.rest_suffix []
  rw [succeeded] at suffix
  exact List.suffix_nil.mp suffix

/-- A reader that fails, or takes everything, leaves nothing to the next one. -/
theorem Drains.bind (drains : reader.Drains front) : (reader >>= next).Drains front := by
  intro value rest succeeded
  obtain ⟨first, middle, firstDone, nextDone⟩ := run_bind_eq_done succeeded
  rw [drains first middle firstDone] at nextDone
  exact run_nil_eq_done nextDone

/-- A reader that reads whole what comes before passes the rest of the input on. -/
theorem Reads.drains {taken : Bytes} {value : α} (first : Reads reader taken value)
    (drains : (next value).Drains front) : (reader >>= next).Drains (taken ++ front) := by
  intro result rest succeeded
  rw [run_bind_done (first front)] at succeeded
  exact drains result rest succeeded

namespace Local

theorem pure (value : α) : Local (Pure.pure value) := by
  intro input answered rest succeeded
  cases succeeded
  refine ⟨[], rfl, fun _ => Reads.pure value, fun front back cut some => ?_⟩
  exact absurd (List.append_eq_nil_iff.mp cut.symm).2 some

theorem fail (cause : DecodeError) : Local (Reader.fail cause : Reader α) :=
  fun _ _ _ succeeded => by cases succeeded

theorem ofExcept (computed : Except DecodeError α) : Local (Reader.ofExcept computed) := by
  cases computed with
  | ok value => exact pure value
  | error cause => exact fail cause

theorem delay {delayed : Unit → Reader α} (inner : Local (delayed ())) :
    Local (Reader.delay delayed) :=
  inner

theorem mapCause {change : DecodeError → DecodeError} (inner : Local reader) :
    Local (reader.mapCause change) := by
  intro input value rest succeeded
  obtain ⟨taken, split, reads, drains⟩ := inner input value rest (run_mapCause_eq_done succeeded)
  refine ⟨taken, split, fun some => (reads some).mapCause, fun front back cut some => ?_⟩
  intro answered left answeredDone
  exact drains front back cut some answered left (run_mapCause_eq_done answeredDone)

theorem byte (context : String) : Local (Reader.byte context) := by
  intro input value rest succeeded
  cases input with
  | nil => cases succeeded
  | cons first tail =>
      cases succeeded
      refine ⟨[value], rfl, fun _ => Reads.byte context value, ?_⟩
      intro front back cut some
      cases front with
      | nil => nofun
      | cons head others =>
          have nothing := (List.cons.inj cut).2
          exact absurd (List.append_eq_nil_iff.mp nothing.symm).2 some

theorem octets (width : Nat) (context : String) : Local (Reader.octets width context) := by
  intro input value rest succeeded
  refine ⟨value.toList, run_octets_eq_done succeeded, fun _ => Reads.octets context value, ?_⟩
  intro front back cut some answered left cutDone
  have whole := congrArg List.length (run_octets_eq_done cutDone)
  have width := congrArg List.length cut
  have nonempty := List.length_pos_iff.mpr some
  rw [List.length_append, answered.length_toList] at whole
  rw [List.length_append, value.length_toList] at width
  omega

theorem bind (first : Local reader) (second : ∀ value, Local (next value)) :
    Local (reader >>= next) := by
  intro input result rest succeeded
  obtain ⟨value, middle, firstDone, nextDone⟩ := run_bind_eq_done succeeded
  obtain ⟨front, rfl, frontReads, frontDrains⟩ := first _ _ _ firstDone
  obtain ⟨back, rfl, backReads, backDrains⟩ := second value _ _ _ nextDone
  refine ⟨front ++ back, (List.append_assoc front back rest).symm, ?_, ?_⟩
  · intro some
    exact (frontReads (List.append_ne_nil_of_right_ne_nil back some)).bind (backReads some)
  · intro kept cut whole some
    rcases cut_cases whole with ⟨more, rfl, rfl⟩ | ⟨more, rfl, someMore⟩
    · have followed := List.append_ne_nil_of_right_ne_nil more some
      have reads := frontReads (List.append_ne_nil_of_left_ne_nil followed rest)
      exact reads.drains (backDrains more cut rfl some)
    · exact (frontDrains kept more rfl someMore).bind

theorem map {change : α → β} (inner : Local reader) :
    Local (reader >>= fun value => Pure.pure (change value)) :=
  inner.bind fun value => pure (change value)

theorem bytes (count : Nat) (context : String) : Local (Reader.bytes count context) :=
  (octets count context).map

theorem natural (width : Nat) (context : String) : Local (Reader.natural width context) :=
  (octets width context).map

theorem uint16 (context : String) : Local (Reader.uint16 context) := (natural 2 context).map

theorem uint32 (context : String) : Local (Reader.uint32 context) := (natural 4 context).map

theorem uint64 (context : String) : Local (Reader.uint64 context) := (natural 8 context).map

end Local

section Loop

variable {atEnd : Option DecodeError} {isEnd : UInt8 → Bool} {step : σ → UInt8 → Reader σ}
  {start state final : σ} {rest : Bytes}

/-- On this input the loop fails or, if it may, ends with its input. -/
def Stops (atEnd : Option DecodeError) (isEnd : UInt8 → Bool) (step : σ → UInt8 → Reader σ)
    (state : σ) (input : Bytes) : Prop :=
  ∀ value rest, foldRun atEnd isEnd step state input = .done value rest → atEnd = none ∧ rest = []

theorem stops_nil : Stops atEnd isEnd step state [] := by
  intro value rest succeeded
  rw [foldRun_nil] at succeeded
  cases atEnd with
  | none => cases succeeded; exact ⟨rfl, rfl⟩
  | some cause => cases succeeded

/-- The loop stops where its next step drains the input, or where it stops after that step. -/
theorem stops_cons {first : UInt8} {tail : Bytes} (continues : isEnd first = false)
    (after : ∀ next rest, (step state first).run tail = .done next rest →
      Stops atEnd isEnd step next rest) :
    Stops atEnd isEnd step state (first :: tail) := by
  intro value rest succeeded
  cases taken : (step state first).run tail with
  | done next left =>
      rw [foldRun_step continues taken] at succeeded
      exact after next left taken value rest succeeded
  | failed cause left =>
      rw [foldRun_failed continues taken] at succeeded
      contradiction

/-- What a loop over local steps takes: it is read on its own if anything follows, or if the end of
input is a failure, and the loop stops at each of its cuts. -/
theorem taken_of_foldRun (each : ∀ state first, Local (step state first))
    (succeeded : foldRun atEnd isEnd step state input = .done final rest) :
    ∃ taken, input = taken ++ rest ∧
      (atEnd ≠ none ∨ rest ≠ [] →
        taken ≠ [] ∧ Reads (Reader.fold atEnd isEnd step state) taken final) ∧
      ∀ front back, taken = front ++ back → back ≠ [] → Stops atEnd isEnd step state front := by
  fun_induction Reader.foldRun atEnd isEnd step state input with
  | case1 state isNone =>
      cases succeeded
      refine ⟨[], rfl, ?_, ?_⟩
      · rintro (noEnd | some)
        · exact absurd isNone noEnd
        · exact absurd rfl some
      · intro front back cut some
        exact absurd (List.append_eq_nil_iff.mp cut.symm).2 some
  | case2 => contradiction
  | case3 state first tail ends =>
      cases succeeded
      refine ⟨[first], rfl, fun _ => ⟨List.cons_ne_nil _ _, fun _ => foldRun_end ends⟩, ?_⟩
      intro front back cut some
      cases front with
      | nil => exact stops_nil
      | cons head others =>
          have nothing := (List.cons.inj cut).2
          exact absurd (List.append_eq_nil_iff.mp nothing.symm).2 some
  | case4 state first tail notEnd next left stepped ih =>
      have continues := Bool.eq_false_iff.mpr notEnd
      obtain ⟨round, rfl, roundReads, roundDrains⟩ := each state first _ _ _ stepped
      obtain ⟨others, rfl, othersRead, othersStop⟩ := ih succeeded
      refine ⟨first :: (round ++ others), by rw [List.cons_append, List.append_assoc], ?_, ?_⟩
      · intro delimited
        obtain ⟨some, othersReads⟩ := othersRead delimited
        have reads := roundReads (List.append_ne_nil_of_left_ne_nil some rest)
        refine ⟨List.cons_ne_nil _ _, fun follow => ?_⟩
        change foldRun atEnd isEnd step state (first :: (round ++ others ++ follow)) = _
        rw [List.append_assoc, foldRun_step continues (reads (others ++ follow))]
        exact othersReads follow
      · intro front back cut some
        cases front with
        | nil => exact stops_nil
        | cons head kept =>
            obtain ⟨rfl, whole⟩ := List.cons.inj cut
            refine stops_cons continues fun middle remaining steppedAgain => ?_
            -- The cut falls behind the bytes of this round, or among them.
            rcases cut_cases whole with ⟨more, rfl, rfl⟩ | ⟨more, rfl, someMore⟩
            · have followed := List.append_ne_nil_of_right_ne_nil more some
              have reads := roundReads (List.append_ne_nil_of_left_ne_nil followed rest)
              rw [reads more] at steppedAgain
              cases steppedAgain
              exact othersStop remaining back rfl some
            · rw [roundDrains kept more rfl someMore middle remaining steppedAgain]
              exact stops_nil
  | case5 => contradiction

/-- A loop over local steps that may end with its input is local. -/
theorem Local.fold (each : ∀ state first, Local (step state first)) :
    Local (Reader.fold none isEnd step start) := by
  intro input value rest succeeded
  obtain ⟨taken, split, delimited, stops⟩ := taken_of_foldRun each succeeded
  exact ⟨taken, split, fun some => (delimited (Or.inr some)).2, fun front back cut some answered left
    cutDone => (stops front back cut some answered left cutDone).2⟩

/-- A loop over local steps that may not end with its input delimits itself. -/
theorem Delimits.fold {cause : DecodeError} (each : ∀ state first, Local (step state first)) :
    Delimits (Reader.fold (some cause) isEnd step start) := by
  intro input value rest succeeded
  obtain ⟨taken, split, delimited, stops⟩ := taken_of_foldRun each succeeded
  obtain ⟨some, reads⟩ := delimited (Or.inl (Option.some_ne_none cause))
  refine ⟨taken, split, some, reads, fun front back cut some => ?_⟩
  cases outcome : (Reader.fold (Option.some cause) isEnd step start).run front with
  | done answered left =>
      exact absurd (stops front back cut some answered left outcome).1 (Option.some_ne_none cause)
  | failed found left => exact ⟨found, left, rfl⟩

end Loop

namespace Delimits

theorem toLocal (delimits : Delimits reader) : Local reader := by
  intro input value rest succeeded
  obtain ⟨taken, split, _, reads, cuts⟩ := delimits input value rest succeeded
  refine ⟨taken, split, fun _ => reads, fun front back cut some answered left cutDone => ?_⟩
  obtain ⟨cause, _, failed⟩ := cuts front back cut some
  rw [failed] at cutDone
  contradiction

theorem fail (cause : DecodeError) : Delimits (Reader.fail cause : Reader α) :=
  fun _ _ _ succeeded => by cases succeeded

theorem map {change : α → β} (inner : Delimits reader) :
    Delimits (reader >>= fun value => Pure.pure (change value)) := by
  intro input result rest succeeded
  obtain ⟨value, middle, innerDone, changed⟩ := run_bind_eq_done succeeded
  cases changed
  obtain ⟨taken, split, some, reads, cuts⟩ := inner input value rest innerDone
  refine ⟨taken, split, some, reads.map (Reads.pure _), fun front back cut some => ?_⟩
  obtain ⟨cause, left, failed⟩ := cuts front back cut some
  exact ⟨cause, left, run_bind_failed failed⟩

end Delimits

section Positions

variable {buffer : Bytes} {start stop : Nat} {value : α}

/-- Between two positions of a buffer the reader takes a value, and no other byte has a say in it:
it takes the same from every buffer with the same bytes there, and fails where they are cut off. -/
structure TakesBetween (reader : Reader α) (buffer : Bytes) (start stop : Nat) (value : α) :
    Prop where
  advances : start < stop
  within : stop ≤ buffer.length
  alone : ∀ other : Bytes, other.extract start stop = buffer.extract start stop →
    reader.run (other.drop start) = .done value (other.drop stop)
  cutOff : ∀ other : Bytes, other.length < stop →
    other.drop start = buffer.extract start other.length →
    ∃ cause left, reader.run (other.drop start) = .failed cause left

/-- A reader that delimits itself takes its value between two positions of every buffer. -/
theorem Delimits.takesBetween {rest : Bytes} (delimits : Delimits reader)
    (succeeded : reader.run (buffer.drop start) = .done value rest) :
    ∃ stop, rest = buffer.drop stop ∧ reader.TakesBetween buffer start stop value := by
  obtain ⟨taken, split, some, reads, cuts⟩ := delimits _ _ _ succeeded
  have width : buffer.length - start = taken.length + rest.length := by
    rw [← List.length_drop, split, List.length_append]
  have nonempty := List.length_pos_iff.mpr some
  have between : buffer.extract start (start + taken.length) = taken := by
    rw [List.extract_eq_take_drop, Nat.add_sub_cancel_left, split, List.take_left]
  refine ⟨start + taken.length, ?_, by omega, by omega, ?_, ?_⟩
  · rw [← List.drop_drop, split, List.drop_left]
  · intro other same
    rw [between, List.extract_eq_take_drop, Nat.add_sub_cancel_left] at same
    rw [← List.take_append_drop taken.length (other.drop start), same, List.drop_drop]
    exact reads _
  · intro other short same
    rw [same, List.extract_eq_take_drop, split, List.take_append_of_le_length (by omega)]
    refine cuts _ _ (List.take_append_drop (other.length - start) taken).symm ?_
    rw [← List.length_pos_iff, List.length_drop]
    omega

end Positions

end LedgerWire.Reader
