import LedgerWire.Proofs.Transaction.Signing
import Mathlib.Data.List.Find

namespace LedgerWire

/-!
What the checks of a transaction read. The check before signing reads the transaction's type and
whether the other fields that the type requires are present; signing replaces none of these. So the
check does not depend on what signing replaces, and a transaction that passes it is complete once it
is signed.
-/

namespace Object

variable {transaction left right : Object} {applies : Field → Bool} {type : TransactionType}

section Required

theorem missingField?_eq_none :
    transaction.missingField? type applies = none ↔
      ∀ field, (field, .required) ∈ type.fields → applies field = true →
        transaction.contains field = true := by
  rw [missingField?, Option.map_eq_none_iff, List.find?_eq_none]
  constructor
  · intro none field member needed
    simpa [needed] using none (field, .required) member
  · intro all ⟨field, requirement⟩ member missing
    simp only [Bool.and_eq_true, beq_iff_eq, Bool.not_eq_true'] at missing
    obtain ⟨⟨isRequired, needed⟩, absent⟩ := missing
    have required : (field, .required) ∈ type.fields := isRequired ▸ member
    rw [all field required needed] at absent
    cases absent

theorem checkRequired_eq_ok :
    transaction.checkRequired applies = .ok type ↔
      transaction.requireTransactionType = .ok type ∧
        ∀ field, (field, .required) ∈ type.fields → applies field = true →
          transaction.contains field = true := by
  rw [← missingField?_eq_none]
  constructor
  · intro checked
    obtain ⟨found, known, checked⟩ := bind_eq_ok.mp checked
    split at checked
    · cases checked
    · rename_i complete
      cases checked
      exact ⟨known, complete⟩
  · intro ⟨known, complete⟩
    refine bind_eq_ok.mpr ⟨type, known, ?_⟩
    rw [complete]
    rfl

end Required

section Congruence

theorem requireTransactionType_congr
    (same : left.get? Fields.transactionType = right.get? Fields.transactionType) :
    left.requireTransactionType = right.requireTransactionType := by
  rw [requireTransactionType, requireTransactionType, uint16?, uint16?, same]

theorem missingField?_congr
    (same : ∀ field, (field, .required) ∈ type.fields → applies field = true →
      left.get? field = right.get? field) :
    left.missingField? type applies = right.missingField? type applies := by
  rw [missingField?, missingField?]
  refine congrArg _ (List.find?_congr fun entry member => ?_)
  obtain ⟨field, requirement⟩ := entry
  cases requirement with
  | required =>
      cases needed : applies field with
      | true =>
          rw [contains_eq_isSome, contains_eq_isSome, same field member needed]
      | false => rfl
  | optional | default => rfl

theorem checkRequired_congr
    (kind : left.get? Fields.transactionType = right.get? Fields.transactionType)
    (same : ∀ type : TransactionType, ∀ field, (field, .required) ∈ type.fields →
      applies field = true → left.get? field = right.get? field) :
    left.checkRequired applies = right.checkRequired applies := by
  rw [checkRequired, checkRequired, requireTransactionType_congr kind]
  refine bind_congr fun type => ?_
  rw [missingField?_congr (same type)]

end Congruence

end Object

namespace Transaction

variable {transaction left right : Object} {field : Field} {type : TransactionType}

/-- The fields that signing fills in or drops. -/
def replacedFields : List Field :=
  Object.filledFields ++ [Fields.txnSignature, Fields.signers]

/-- A field that signing leaves as it is. -/
def Kept (field : Field) : Prop :=
  ∀ replaced ∈ replacedFields, replaced.key ≠ field.key

instance (field : Field) : Decidable (Kept field) :=
  inferInstanceAs (Decidable (∀ replaced ∈ replacedFields, replaced.key ≠ field.key))

/-- Transactions that differ at most in what signing replaces. -/
def Agree (left right : Object) : Prop :=
  ∀ field : Field, field.Registered → Kept field → left.get? field = right.get? field

section Tables

theorem registered_of_required (required : (field, .required) ∈ type.fields) :
    field.Registered := by
  have known : ∀ entry ∈ type.fields, entry.1 ∈ Fields.all := by
    cases type <;> decide
  exact Fields.registered_of_mem (known _ required)

/-- Signing fills in the required fields that it does not keep. -/
theorem filled_or_kept (required : (field, .required) ∈ type.fields) :
    field ∈ Object.filledFields ∨ Kept field := by
  have split : ∀ entry ∈ type.fields, entry.2 = .required →
      entry.1 ∈ Object.filledFields ∨ Kept entry.1 := by
    cases type <;> decide
  exact split _ required rfl

theorem kept_transactionType : Kept Fields.transactionType := by decide

theorem kept_account : Kept Fields.account := by decide

theorem transactionType_required (type : TransactionType) :
    (Fields.transactionType, .required) ∈ type.fields :=
  List.mem_append_left _ (by simp [TransactionType.commonFields])

theorem account_required (type : TransactionType) : (Fields.account, .required) ∈ type.fields :=
  List.mem_append_left _ (by simp [TransactionType.commonFields])

end Tables

section Replaced

variable {fee : Amount} {sequence : UInt32} {publicKey signature : Bytes}
  {signingFor : Option Account}

theorem kept_iff :
    Kept field ↔ Fields.fee.key ≠ field.key ∧ Fields.sequence.key ≠ field.key ∧
      Fields.signingPubKey.key ≠ field.key ∧ Fields.txnSignature.key ≠ field.key ∧
      Fields.signers.key ≠ field.key := by
  simp [Kept, replacedFields, Object.filledFields]

theorem needed_iff_kept (required : (field, .required) ∈ type.fields) :
    (!Object.filledFields.any field.same) = true ↔ Kept field := by
  constructor
  · intro needed
    rcases filled_or_kept required with filled | kept
    · have same : Object.filledFields.any field.same = true :=
        List.any_eq_true.mpr ⟨field, filled, Field.same_iff.mpr rfl⟩
      rw [same] at needed
      cases needed
    · exact kept
  · intro kept
    rw [Bool.not_eq_true', List.any_eq_false]
    intro filled member same
    exact kept filled (List.mem_append_left _ member) (Field.same_iff.mp same).symm

theorem get?_signed_of_kept (kept : Kept field) :
    ((filledWith transaction fee sequence publicKey signingFor).place
      (signatureEntry publicKey signature signingFor).1
      (signatureEntry publicKey signature signingFor).2).get? field =
        transaction.get? field := by
  obtain ⟨notFee, notSequence, notKey, notSignature, notSigners⟩ := kept_iff.mp kept
  rw [get?_signed, if_neg notFee, if_neg notSequence, if_neg notKey, if_neg notSignature,
    if_neg notSigners]

/-- Filling in leaves no trace of what it replaces. -/
theorem get?_filledWith_congr (agree : Agree left right) (known : field.Registered) :
    (filledWith left fee sequence publicKey signingFor).get? field =
      (filledWith right fee sequence publicKey signingFor).get? field := by
  rw [get?_filledWith, get?_filledWith]
  refine ite_congr rfl (fun _ => rfl) fun notFee => ?_
  refine ite_congr rfl (fun _ => rfl) fun notSequence => ?_
  refine ite_congr rfl (fun _ => rfl) fun notKey => ?_
  refine ite_congr rfl (fun _ => rfl) fun notDropped => ?_
  obtain ⟨notSignature, notSigners⟩ := not_or.mp notDropped
  exact agree field known (kept_iff.mpr ⟨notFee, notSequence, notKey, notSignature, notSigners⟩)

end Replaced

section Checks

variable {fee : Amount}

theorem checkForSigning_eq_ok :
    transaction.checkForSigning = .ok type ↔ transaction.requireTransactionType = .ok type ∧
      ∀ field, (field, .required) ∈ type.fields → Kept field →
        transaction.contains field = true := by
  rw [Object.checkForSigning, Object.checkRequired_eq_ok]
  refine and_congr_right fun _ => forall_congr' fun field => forall_congr' fun required => ?_
  rw [needed_iff_kept required]

/-- The check before signing does not read what signing replaces. -/
theorem checkForSigning_congr (agree : Agree left right) :
    left.checkForSigning = right.checkForSigning := by
  refine Object.checkRequired_congr ?_ fun type field required needed => ?_
  · have known : Fields.transactionType.Registered :=
      registered_of_required (transactionType_required .payment)
    exact agree _ known kept_transactionType
  · exact agree field (registered_of_required required) ((needed_iff_kept required).mp needed)

/-- A transaction that passes the check before signing has an account. -/
theorem contains_account (checked : transaction.checkForSigning = .ok type) :
    transaction.contains Fields.account = true :=
  (checkForSigning_eq_ok.mp checked).2 Fields.account (account_required type) kept_account

/-- A transaction that keeps its format and may be signed with a fee. -/
def Signable (transaction : Object) (fee : Amount) : Prop :=
  (∃ type, transaction.checkForSigning = .ok type) ∧ fee.isNative = true

/-- How a transaction that is to be signed with a fee breaks its format. -/
def Malformed (transaction : Object) (fee : Amount) (cause : FormatError) : Prop :=
  transaction.checkForSigning = .error cause ∨
    (∃ type, transaction.checkForSigning = .ok type) ∧ fee.isNative = false ∧
      cause = .nonNativeFee Fields.fee.name

/-- The account is not missed once the check before signing has passed. -/
theorem checkSignable_of_checked (checked : transaction.checkForSigning = .ok type) :
    checkSignable transaction fee =
      if fee.isNative then .ok () else .error (.nonNativeFee Fields.fee.name) := by
  rw [checkSignable, checked, contains_account checked]
  cases fee.isNative with
  | true => rfl
  | false => rfl

theorem checkSignable_of_refused {cause : FormatError}
    (refused : transaction.checkForSigning = .error cause) :
    checkSignable transaction fee = .error cause := by
  rw [checkSignable, refused]
  rfl

theorem checkSignable_eq_ok :
    checkSignable transaction fee = .ok () ↔ Signable transaction fee := by
  cases checked : transaction.checkForSigning with
  | error cause => simp [checkSignable_of_refused checked, Signable, checked]
  | ok type =>
      rw [checkSignable_of_checked checked]
      cases native : fee.isNative with
      | true => simp [Signable, checked, native]
      | false => simp [Signable, native]

theorem checkSignable_eq_error {cause : FormatError} :
    checkSignable transaction fee = .error cause ↔ Malformed transaction fee cause := by
  cases checked : transaction.checkForSigning with
  | error cause => simp [checkSignable_of_refused checked, Malformed, checked]
  | ok type =>
      rw [checkSignable_of_checked checked]
      cases native : fee.isNative with
      | true => simp [Malformed, checked, native]
      | false => simp [Malformed, checked, native, eq_comm]

end Checks

end Transaction

end LedgerWire
