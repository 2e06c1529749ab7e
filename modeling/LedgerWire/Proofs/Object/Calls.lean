import LedgerWire.Object.Json
import LedgerWire.Proofs.Object.Made

namespace LedgerWire

/-!
Objects under any run of calls. Whatever is inserted, replaced, refused and removed, and in whatever
order, an object holds for each field what the last call left there that had any effect on it, in
the canonical order of its fields. So runs that leave the same values build one object.
-/

/-- Fields go by their type code, and those of one type by their field code. -/
theorem Field.key_lt_iff {left right : Field} :
    left.key < right.key ↔
      left.type.code < right.type.code ∨
        left.type.code = right.type.code ∧ left.code < right.code := by
  have leftSmall := left.code.toNat_lt
  have rightSmall := right.code.toNat_lt
  rw [UInt16.lt_iff_toNat_lt, UInt16.lt_iff_toNat_lt, ← UInt16.toNat_inj, key, key]
  omega

namespace Object

/-- A call that may change an object. -/
inductive Call where
  | insert (field : Field) (value : Value)
  | set (field : Field) (value : Value)
  | remove (field : Field)

namespace Call

def field : Call → Field
  | insert field _ | set field _ | remove field => field

/-- The object after a call. A call that is refused leaves it as it was. -/
def apply (object : Object) : Call → Object
  | insert field value =>
    match object.insert field value with
    | .ok (_, after) => after
    | .error _ => object
  | set field value =>
    match object.set field value with
    | .ok after => after
    | .error _ => object
  | remove field => (object.remove field).2

/-- What a call leaves in its field: a value that the codec takes, or nothing. A call that is
refused has no effect. -/
def effect? : Call → Option (Option Value)
  | insert field value | set field value =>
    if value.fits field.codec then some (some value) else none
  | remove _ => some none

/-- The effect of a call on a field. -/
def effectOn? (target : Field) (call : Call) : Option (Option Value) :=
  if call.field.same target then call.effect? else none

end Call

/-- The object that calls build from the empty one. -/
def run (calls : List Call) : Object :=
  calls.foldl Call.apply []

/-- What the last call with an effect on a field left in it. -/
def lastEffect (calls : List Call) (field : Field) : Option Value :=
  (calls.reverse.findSome? (Call.effectOn? field)).join

section Step

variable {object : Object} {field target : Field} {value : Value} {call : Call} {calls : List Call}

theorem insert_of_fits (fits : value.fits field.codec = true) :
    object.insert field value = .ok (object.get? field, place field value object) :=
  if_pos fits

theorem insert_of_misfit (misfits : value.fits field.codec = false) :
    object.insert field value = .error (.typeMismatch field.name field.codec.expected) :=
  if_neg (Bool.eq_false_iff.mp misfits)

theorem fits_effect (effect : call.effect? = some (some value)) :
    value.fits call.field.codec = true := by
  cases call with
  | insert field written | set field written =>
      simp only [Call.effect?] at effect
      split at effect
      · rename_i fits
        cases effect
        exact fits
      · cases effect
  | remove field => cases effect

/-- A call does to the object what its effect says. -/
theorem apply_eq (object : Object) (call : Call) :
    call.apply object =
      match call.effect? with
      | some (some value) => place call.field value object
      | some none => object.erase call.field
      | none => object := by
  cases call with
  | insert field value | set field value =>
      cases fits : value.fits field.codec with
      | true =>
          simp [Call.apply, Call.effect?, Call.field, Object.set, insert_of_fits fits, fits,
            Except.map]
      | false =>
          simp [Call.apply, Call.effect?, Object.set, insert_of_misfit fits, fits, Except.map]
  | remove field => rfl

/-- A call changes a lookup by its effect on the field. -/
theorem get?_apply (object : Object) (call : Call) (target : Field) :
    (call.apply object).get? target = (call.effectOn? target).getD (object.get? target) := by
  rw [apply_eq, Call.effectOn?, Field.same]
  split
  · rename_i effect
    rw [get?_place, effect]
    by_cases here : call.field.key = target.key <;> simp [here]
  · rename_i effect
    rw [get?_erase, effect]
    by_cases here : call.field.key = target.key <;> simp [here]
  · rename_i effect
    rw [effect, ite_self]
    rfl

theorem effectOn?_of_apart (apart : call.field.key ≠ target.key) :
    call.effectOn? target = none :=
  if_neg fun same => apart (Field.same_iff.mp same)

theorem Ascending.apply (ascending : object.Ascending) (call : Call) :
    Ascending (call.apply object) := by
  rw [apply_eq]
  split
  · exact ascending.place _ _
  · exact ascending.erase _
  · exact ascending

/-- Calls on registered fields keep all fields registered. -/
theorem registered_apply (registered : ∀ entry ∈ object, entry.1.Registered)
    (known : call.field.Registered) : ∀ entry ∈ call.apply object, entry.1.Registered := by
  rw [apply_eq]
  split
  · exact forall_place registered known
  · exact fun entry member => registered entry (mem_erase.mp member).1
  · exact registered

/-- Calls keep every value one that its field's codec takes. -/
theorem fits_apply (fits : ∀ entry ∈ object, entry.2.fits entry.1.codec = true) (call : Call) :
    ∀ entry ∈ call.apply object, entry.2.fits entry.1.codec = true := by
  rw [apply_eq]
  split
  · rename_i value effect
    intro entry member
    rcases mem_place member with rfl | old | ⟨descriptor, old, _, same, rfl⟩
    · exact fits_effect effect
    · exact fits entry old
    · rw [Field.codec_eq_of_key same]
      exact fits_effect effect
  · exact fun entry member => fits entry (mem_erase.mp member).1
  · exact fits

end Step

section Run

variable {calls : List Call}

theorem run_append_singleton (calls : List Call) (call : Call) :
    run (calls ++ [call]) = call.apply (run calls) :=
  List.foldl_append

theorem lastEffect_append_singleton (calls : List Call) (call : Call) (field : Field) :
    lastEffect (calls ++ [call]) field = (call.effectOn? field).getD (lastEffect calls field) := by
  rw [lastEffect, List.reverse_append, List.reverse_singleton, List.singleton_append,
    List.findSome?_cons]
  cases call.effectOn? field <;> rfl

/-- A run leaves in each field what the last call with an effect on it left there. -/
theorem get?_run (calls : List Call) (field : Field) :
    (run calls).get? field = lastEffect calls field := by
  induction calls using List.reverseRecOn with
  | nil => rfl
  | append_singleton calls call ih =>
      rw [run_append_singleton, get?_apply, ih, lastEffect_append_singleton]

/-- Calls on different fields may be exchanged. -/
theorem get?_run_swap (calls : List Call) {first second : Call}
    (apart : first.field.key ≠ second.field.key) (target : Field) :
    (run (calls ++ [first, second])).get? target =
      (run (calls ++ [second, first])).get? target := by
  simp only [run, List.foldl_append, List.foldl_cons, List.foldl_nil, get?_apply]
  by_cases here : first.field.key = target.key
  · have there : second.field.key ≠ target.key := fun same => apart (here.trans same.symm)
    rw [effectOn?_of_apart there, Option.getD_none, Option.getD_none]
  · rw [effectOn?_of_apart here, Option.getD_none, Option.getD_none]

/-- What holds of the empty object and is kept by each call holds after the run. -/
theorem run_keeps {motive : Object → Prop} (empty : motive [])
    (step : ∀ object, motive object → ∀ call ∈ calls, motive (call.apply object)) :
    motive (run calls) :=
  List.foldlRecOn calls Call.apply empty step

theorem ascending_run (calls : List Call) : (run calls).Ascending :=
  run_keeps List.Pairwise.nil fun _ ascending call _ => ascending.apply call

theorem fits_run (calls : List Call) :
    ∀ entry ∈ run calls, entry.2.fits entry.1.codec = true :=
  run_keeps (motive := fun object => ∀ entry ∈ object, entry.2.fits entry.1.codec = true)
    (fun _ => nofun) fun _ fits call _ => fits_apply fits call

theorem registered_run (registered : ∀ call ∈ calls, call.field.Registered) :
    ∀ entry ∈ run calls, entry.1.Registered :=
  run_keeps (motive := fun object => ∀ entry ∈ object, entry.1.Registered)
    (fun _ => nofun) fun _ others call member => registered_apply others (registered call member)

/-- An insertion answers what the run left in the field, or is refused for its codec alone. -/
theorem insert_run (calls : List Call) (field : Field) (value : Value) :
    (run calls).insert field value =
      if value.fits field.codec then
        .ok (lastEffect calls field, run (calls ++ [.insert field value]))
      else .error (.typeMismatch field.name field.codec.expected) := by
  rw [run_append_singleton, apply_eq, ← get?_run]
  cases fits : value.fits field.codec with
  | true => simp [insert_of_fits fits, Call.effect?, Call.field, fits]
  | false => simp [insert_of_misfit fits]

theorem set_run (calls : List Call) (field : Field) (value : Value) :
    (run calls).set field value =
      if value.fits field.codec then .ok (run (calls ++ [.set field value]))
      else .error (.typeMismatch field.name field.codec.expected) := by
  rw [run_append_singleton, apply_eq, set]
  cases fits : value.fits field.codec with
  | true => simp [insert_of_fits fits, Call.effect?, Call.field, fits, Except.map]
  | false => simp [insert_of_misfit fits, Except.map]

theorem remove_run (calls : List Call) (field : Field) :
    (run calls).remove field = (lastEffect calls field, run (calls ++ [.remove field])) := by
  rw [run_append_singleton, ← get?_run]
  rfl

/-- A refused insertion has no effect. -/
theorem run_refused {field : Field} {value : Value} (misfits : value.fits field.codec = false) :
    run (calls ++ [.insert field value]) = run calls := by
  rw [run_append_singleton, apply_eq]
  simp [Call.effect?, misfits]

end Run

/-- A run of calls on registered fields builds a map in canonical order, which holds for each field
what the last call with an effect on it left there. Runs that leave the same values build the same
object, so that it is written alike. -/
theorem run_is_canonical_map (calls : List Call)
    (registered : ∀ call ∈ calls, call.field.Registered) :
    ((run calls).Pairwise fun left right =>
      left.1.type.code < right.1.type.code ∨
        left.1.type.code = right.1.type.code ∧ left.1.code < right.1.code) ∧
    (∀ field, (run calls).get? field = lastEffect calls field) ∧
    (∀ entry ∈ run calls, entry.1.Registered ∧ entry.2.fits entry.1.codec = true) ∧
    (∀ field value,
      (run calls).insert field value =
        (if value.fits field.codec then
          .ok (lastEffect calls field, run (calls ++ [.insert field value]))
        else .error (.typeMismatch field.name field.codec.expected)) ∧
      (run calls).set field value =
        (if value.fits field.codec then .ok (run (calls ++ [.set field value]))
        else .error (.typeMismatch field.name field.codec.expected)) ∧
      (run calls).remove field = (lastEffect calls field, run (calls ++ [.remove field])) ∧
      (value.fits field.codec = false → run (calls ++ [.insert field value]) = run calls)) ∧
    ∀ others : List Call, (∀ call ∈ others, call.field.Registered) →
      (∀ field : Field, field.Registered → (run calls).get? field = (run others).get? field) →
      run calls = run others ∧ (run calls).toBytes = (run others).toBytes ∧
        (run calls).toSigningBytes = (run others).toSigningBytes ∧
        (run calls).toJson = (run others).toJson := by
  refine ⟨?_, get?_run calls, ?_, ?_, ?_⟩
  · exact (ascending_run calls).imp Field.key_lt_iff.mp
  · exact fun entry member => ⟨registered_run registered entry member, fits_run calls entry member⟩
  · intro field value
    exact ⟨insert_run calls field value, set_run calls field value, remove_run calls field,
      run_refused⟩
  · intro others othersRegistered same
    have equal : run calls = run others :=
      (ascending_run calls).eq_of_get? (ascending_run others) (registered_run registered)
        (registered_run othersRegistered) same
    rw [equal]
    exact ⟨rfl, rfl, rfl, rfl⟩

/-- Two numbers, and one that is too narrow for its field. -/
def refusedCalls : List Call :=
  [.insert Fields.sequence (.uint32 7), .insert Fields.flags (.uint32 5),
    .insert Fields.flags (.uint16 9)]

/-- The same numbers in the other order. -/
def exchangedCalls : List Call :=
  [.insert Fields.flags (.uint32 5), .insert Fields.sequence (.uint32 7)]

theorem get?_refusedCalls (field : Field) :
    (run refusedCalls).get? field = (run exchangedCalls).get? field := by
  have codec : Fields.flags.codec = .plain .uint32 := by decide
  have misfits : (Value.uint16 9).fits Fields.flags.codec = false := by
    rw [codec]
    rfl
  have split : refusedCalls =
      [.insert Fields.sequence (.uint32 7), .insert Fields.flags (.uint32 5)] ++
        [.insert Fields.flags (.uint16 9)] := rfl
  have apart : (Call.insert Fields.sequence (.uint32 7)).field.key ≠
      (Call.insert Fields.flags (.uint32 5)).field.key := by
    decide
  rw [split, run_refused misfits]
  exact get?_run_swap [] apart field

theorem run_is_canonical_map_refused :
    run refusedCalls = run exchangedCalls ∧
      (run refusedCalls).toBytes = (run exchangedCalls).toBytes ∧
      (run refusedCalls).get? Fields.flags = lastEffect refusedCalls Fields.flags := by
  have knownFlags : Fields.flags.Registered := Fields.registered_of_mem (by simp [Fields.all])
  have knownSequence : Fields.sequence.Registered := Fields.registered_of_mem (by simp [Fields.all])
  obtain ⟨_, lookups, _, _, determined⟩ := run_is_canonical_map refusedCalls (by
    simp [refusedCalls, Call.field, knownFlags, knownSequence])
  obtain ⟨equal, written, _⟩ := determined exchangedCalls
    (by simp [exchangedCalls, Call.field, knownFlags, knownSequence])
    fun field _ => get?_refusedCalls field
  exact ⟨equal, written, lookups Fields.flags⟩

end Object

end LedgerWire
