import LedgerWire.Object.Wire
import LedgerWire.Proofs.Wire.Framing

namespace LedgerWire

/-!
What the registry promises of its fields: their keys tell them apart, so that a field is found by
the codes in its header; no header but a marker's starts with a marker's byte; fields that hold
objects are serialized; and signatures cover all fields but two.
-/

/-- The registered fields. -/
def Field.Registered (field : Field) : Prop :=
  field ∈ Registry.all

instance (field : Field) : Decidable field.Registered :=
  inferInstanceAs (Decidable (field ∈ Registry.all))

/-- The fields whose headers are the end markers of objects and arrays. -/
def Field.isMarker (field : Field) : Bool :=
  field.same Fields.objectEndMarker || field.same Fields.arrayEndMarker

theorem FieldType.code_isCode (type : FieldType) : Framing.IsCode type.code := by
  constructor <;> cases type <;> decide

/-- The fields that rules name are registered. -/
theorem Fields.registered_of_mem {field : Field} (member : field ∈ Fields.all) :
    field.Registered := by
  have found := List.all_eq_true.mp Fields.registered field member
  exact List.mem_of_find?_eq_some (beq_iff_eq.mp found)

namespace Field

variable {field left right : Field}

theorem same_iff : left.same right = true ↔ left.key = right.key := beq_iff_eq

theorem isSerialized_iff : field.isSerialized = true ↔ Framing.IsCode field.code := by
  rw [isSerialized, Bool.and_eq_true, decide_eq_true_iff, decide_eq_true_iff]
  rfl

namespace Registered

theorem isSerialized_of_object (registered : field.Registered) (isObject : field.type = .object) :
    field.isSerialized = true := by
  have all : ∀ field ∈ Registry.all, field.type = .object → field.isSerialized = true := by
    decide +kernel
  exact all field registered isObject

theorem isSerialized_of_array (registered : field.Registered) (isArray : field.type = .array) :
    field.isSerialized = true := by
  have all : ∀ field ∈ Registry.all, field.type = .array → field.isSerialized = true := by
    decide +kernel
  exact all field registered isArray

theorem isSerialized_of_marker (registered : field.Registered) (marker : field.isMarker = true) :
    field.isSerialized = true := by
  have all : ∀ field ∈ Registry.all, field.isMarker = true → field.isSerialized = true := by
    decide +kernel
  exact all field registered marker

/-- Signatures cover all fields but those that hold them. -/
theorem covered_eq (registered : field.Registered) :
    field.covered = !(field.same Fields.txnSignature || field.same Fields.signers) := by
  have all : ∀ field ∈ Registry.all,
      field.covered = !(field.same Fields.txnSignature || field.same Fields.signers) := by
    decide +kernel
  exact all field registered

/-- The first byte of a header, which is no end marker, and the codes that follow it. -/
theorem header_eq_cons (registered : field.Registered) (serialized : field.isSerialized = true)
    (notMarker : field.isMarker = false) :
    ∃ first more, field.header = first :: more ∧ first ≠ objectEnd ∧ first ≠ arrayEnd := by
  have all : ∀ field ∈ Registry.all, field.isSerialized = true → field.isMarker = false →
      field.header.head? ≠ some objectEnd ∧ field.header.head? ≠ some arrayEnd := by
    decide +kernel
  obtain ⟨notObject, notArray⟩ := all field registered serialized notMarker
  obtain ⟨first, more, split⟩ :=
    List.exists_cons_of_ne_nil (Framing.header_ne_nil field.type.code field.code)
  change field.header = first :: more at split
  rw [split] at notObject notArray
  exact ⟨first, more, split, fun same => notObject (congrArg some same),
    fun same => notArray (congrArg some same)⟩

theorem coded? (registered : field.Registered) :
    Field.coded? field.type.code field.code = some field := by
  have all : ∀ field ∈ Registry.all, Field.coded? field.type.code field.code = some field := by
    decide +kernel
  exact all field registered

theorem eq_of_key (leftRegistered : left.Registered) (rightRegistered : right.Registered)
    (same : left.key = right.key) : left = right := by
  simp only [key] at same
  have leftSmall := left.code.toNat_lt
  have rightSmall := right.code.toNat_lt
  have types : left.type.code = right.type.code := UInt16.toNat_inj.mp (by omega)
  have codes : left.code = right.code := UInt16.toNat_inj.mp (by omega)
  have found := leftRegistered.coded?
  rw [types, codes, rightRegistered.coded?] at found
  exact (Option.some.inj found).symm

end Registered

/-- A serialized registered field is read back from its header. -/
theorem reads_header (registered : field.Registered) (serialized : field.isSerialized = true)
    {first : UInt8} {more : Bytes} (split : field.header = first :: more) :
    Reader.Reads (readFrom first) more field := by
  refine (Framing.reads_headerFrom field.type.code_isCode (isSerialized_iff.mp serialized)
    split).map ?_
  simp only [registered.coded?]
  exact Reader.Reads.pure field

end Field

end LedgerWire
