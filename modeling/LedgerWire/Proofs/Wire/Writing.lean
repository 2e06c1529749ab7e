import LedgerWire.Wire.Output

namespace LedgerWire.Output

/-!
Complete output: joined outputs are complete when both are, and hold the bytes of both. The cause of
joined outputs is the first one's, if it has any.
-/

variable {first second : Output} {bytes front back : Bytes} {cause : EncodeError}

@[simp] theorem ok_append_ok : Output.ok front ++ Output.ok back = .ok (front ++ back) := rfl

theorem ok_inj : Output.ok front = .ok back ↔ front = back :=
  ⟨fun same => congrArg Output.bytes same, congrArg Output.ok⟩

theorem fail_ne_ok : Output.fail cause ≠ .ok bytes := fun same =>
  Option.some_ne_none cause (congrArg Output.cause same)

theorem append_eq_ok :
    first ++ second = .ok bytes ↔
      ∃ front back, first = .ok front ∧ second = .ok back ∧ bytes = front ++ back := by
  constructor
  · intro joined
    obtain ⟨front, firstCause⟩ := first
    obtain ⟨back, secondCause⟩ := second
    cases firstCause with
    | some cause => exact absurd (congrArg Output.cause joined) (Option.some_ne_none cause)
    | none =>
        have complete : secondCause = none := congrArg Output.cause joined
        subst complete
        exact ⟨front, back, rfl, rfl, (congrArg Output.bytes joined).symm⟩
  · rintro ⟨front, back, rfl, rfl, rfl⟩
    exact ok_append_ok

theorem toExcept_eq_ok : first.toExcept = .ok bytes ↔ first = .ok bytes := by
  obtain ⟨front, cause⟩ := first
  cases cause with
  | some cause =>
      constructor
      · intro failed
        contradiction
      · intro failed
        exact absurd (congrArg Output.cause failed) (Option.some_ne_none cause)
  | none =>
      constructor
      · intro complete
        cases complete
        rfl
      · intro complete
        exact congrArg Except.ok (congrArg Output.bytes complete)

theorem ofExcept_eq_ok {computed : Except EncodeError Bytes} :
    ofExcept computed = .ok bytes ↔ computed = .ok bytes := by
  cases computed with
  | error cause => exact ⟨fun failed => absurd failed fail_ne_ok, fun failed => by contradiction⟩
  | ok written =>
      constructor
      · intro same
        exact congrArg Except.ok (ok_inj.mp same)
      · intro same
        cases same
        rfl

@[simp] theorem cause_ok (bytes : Bytes) : (Output.ok bytes).cause = none := rfl

@[simp] theorem cause_fail (cause : EncodeError) : (Output.fail cause).cause = some cause := rfl

@[simp] theorem cause_append (first second : Output) :
    (first ++ second).cause = first.cause.or second.cause := by
  obtain ⟨front, cause⟩ := first
  cases cause with
  | some cause => rfl
  | none => rfl

theorem cause_eq_none : first.cause = none ↔ ∃ bytes, first = .ok bytes := by
  obtain ⟨front, cause⟩ := first
  constructor
  · intro complete
    cases complete
    exact ⟨front, rfl⟩
  · intro ⟨bytes, complete⟩
    rw [complete, cause_ok]

theorem toExcept_eq_error : first.toExcept = .error cause ↔ first.cause = some cause := by
  obtain ⟨front, stopped⟩ := first
  cases stopped with
  | some found => simp [toExcept]
  | none => simp [toExcept]

end LedgerWire.Output
