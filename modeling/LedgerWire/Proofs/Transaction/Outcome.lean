import LedgerWire.Proofs.Object.Faults
import LedgerWire.Proofs.Transaction.Checking

namespace LedgerWire.Transaction

/-!
How signing ends. A transaction breaks its format, or what would be signed cannot be written, or the
signer refuses, or what the signer answers is too long to be sent; otherwise it is signed and
complete. Nothing else can go wrong: the fields that signing fills in take their values, and a
transaction that passes the check before signing has an account.
-/

variable {transaction : Object} {fee : Amount} {sequence : UInt32} {signer : Signer}
  {publicKey signature : Bytes} {signingFor : Option Account} {result : SignedTransaction}

section Attaching

/-- Why a signature cannot be sent, if it cannot. On behalf of an account, the key is sent beside
it. -/
def oversized? (publicKey signature : Bytes) (signingFor : Option Account) : Option EncodeError :=
  if signingFor.isSome ∧ 918744 < publicKey.length then
    some (.fieldTooLong Fields.signingPubKey.name publicKey.length)
  else if 918744 < signature.length then
    some (.fieldTooLong Fields.txnSignature.name signature.length)
  else none

theorem oversized?_eq_none :
    oversized? publicKey signature signingFor = none ↔
      signature.length ≤ 918744 ∧ (signingFor.isSome = true → publicKey.length ≤ 918744) := by
  rw [oversized?]
  split
  · rename_i longKey
    simp [longKey]
  · rename_i shortKey
    split
    · rename_i longSignature
      simp [longSignature]
    · rename_i shortSignature
      have bounded (some : signingFor.isSome = true) : publicKey.length ≤ 918744 :=
        Nat.le_of_not_lt fun long => shortKey ⟨some, long⟩
      exact iff_of_true rfl ⟨Nat.le_of_not_lt shortSignature, bounded⟩

/-- The entry of one of several signers is written unless its key or its signature is too long. -/
theorem cause_signerFieldsOf (account : Account) (publicKey signature : Bytes) :
    (Object.write .all (signerFieldsOf account publicKey signature)).cause =
      oversized? publicKey signature (some account) := by
  have keyWritten : Fields.signingPubKey.isSerialized = true := by decide
  have signatureWritten : Fields.txnSignature.isSerialized = true := by decide
  rw [signerFieldsOf, Object.cause_write_cons (fits_signingPubKey publicKey),
    Object.cause_write_cons (fits_txnSignature signature),
    Object.cause_write_cons (fits_account account), if_pos keyWritten, if_pos signatureWritten,
    Value.cause_writeRaw_blob, Value.cause_writeRaw_blob, Value.cause_writeRaw_account, oversized?,
    ite_self, Object.write]
  simp only [Option.isSome_some, true_and, Output.cause_ok, Option.or_none]
  split <;> rfl

/-- Attached, a signature stops the writing of a transaction only if it cannot be sent. -/
theorem cause_signatureEntry (publicKey signature : Bytes) (signingFor : Option Account) :
    ((signatureEntry publicKey signature signingFor).2.writeRaw
      (signatureEntry publicKey signature signingFor).1).cause =
        oversized? publicKey signature signingFor := by
  cases signingFor with
  | none =>
      rw [signatureEntry, Value.cause_writeRaw_blob, oversized?]
      simp
  | some account =>
      rw [← cause_signerFieldsOf, signatureEntry]
      simp [Value.writeRaw, Elements.writeEach]

theorem fits_signatureEntry (publicKey signature : Bytes) (signingFor : Option Account) :
    (signatureEntry publicKey signature signingFor).2.fits
      (signatureEntry publicKey signature signingFor).1.codec = true := by
  cases signingFor with
  | none => exact fits_txnSignature signature
  | some account => exact fits_signers _

theorem isSerialized_signatureEntry (publicKey signature : Bytes) (signingFor : Option Account) :
    (signatureEntry publicKey signature signingFor).1.isSerialized = true := by
  have signatureWritten : Fields.txnSignature.isSerialized = true := by decide
  have signersWritten : Fields.signers.isSerialized = true := by decide
  cases signingFor with
  | none => exact signatureWritten
  | some account => exact signersWritten

/-- What was signed can be sent exactly when its signature can. -/
theorem cause_signed {signingBytes : Bytes}
    (registered : ∀ entry ∈ transaction, entry.1.Registered)
    (written : Object.toSigningBytes
      (filledWith transaction fee sequence publicKey signingFor) = .ok signingBytes) :
    (Object.write .all
      ((filledWith transaction fee sequence publicKey signingFor).place
        (signatureEntry publicKey signature signingFor).1
        (signatureEntry publicKey signature signingFor).2)).cause =
      oversized? publicKey signature signingFor := by
  have unsigned := unsigned_filledWith transaction fee sequence publicKey signingFor
  have absent : ∀ entry ∈ filledWith transaction fee sequence publicKey signingFor,
      entry.1.key ≠ (signatureEntry publicKey signature signingFor).1.key := by
    intro entry member
    cases signingFor with
    | none => exact (unsigned entry member).1
    | some account => exact (unsigned entry member).2
  have complete := Output.toExcept_eq_ok.mp written
  rw [write_signing_eq_all (registered_filledWith registered) unsigned] at complete
  rw [Object.cause_write_place absent (Output.cause_eq_none.mpr ⟨signingBytes, complete⟩)
    (fits_signatureEntry publicKey signature signingFor)
    (isSerialized_signatureEntry publicKey signature signingFor),
    cause_signatureEntry]

end Attaching

section Endings

/-- The digest that is signed, once fee, sequence and key are filled in. -/
def signingDigest (filled : Object) (signingFor : Option Account) : Except EncodeError (Hash 32) :=
  filled.toSigningBytes.map fun signingBytes =>
    sha512Half (signingPreimage signingBytes signingFor)

/-- The ways in which signing ends, by the step that decides. -/
inductive Ends (transaction filled : Object) (fee : Amount) (signer : Signer)
    (signingFor : Option Account) : Except SignError SignedTransaction → Prop
  | malformed {cause : FormatError} (broken : Malformed transaction fee cause) :
      Ends transaction filled fee signer signingFor (.error (.malformedTransaction cause))
  | unwritable {cause : EncodeError} (signable : Signable transaction fee)
      (unwritten : filled.toSigningBytes = .error cause) :
      Ends transaction filled fee signer signingFor (.error (.serialization cause))
  | refused {digest : Hash 32} {reason : String} (signable : Signable transaction fee)
      (digested : signingDigest filled signingFor = .ok digest)
      (refused : signer.sign digest = .error reason) :
      Ends transaction filled fee signer signingFor (.error (.signingFailed reason))
  | unsendable {digest : Hash 32} {signature : Bytes} {cause : EncodeError}
      (signable : Signable transaction fee)
      (digested : signingDigest filled signingFor = .ok digest)
      (made : signer.sign digest = .ok signature)
      (oversized : oversized? signer.publicKey signature signingFor = some cause) :
      Ends transaction filled fee signer signingFor (.error (.serialization cause))
  | signed {digest : Hash 32} {signature : Bytes} {result : SignedTransaction}
      (signable : Signable transaction fee)
      (digested : signingDigest filled signingFor = .ok digest)
      (made : signer.sign digest = .ok signature)
      (sendable : oversized? signer.publicKey signature signingFor = none) :
      Ends transaction filled fee signer signingFor (.ok result)

theorem prepare_of_malformed {cause : FormatError} (broken : Malformed transaction fee cause) :
    prepare transaction fee sequence signer signingFor = .error (.malformedTransaction cause) := by
  refine bind_eq_error.mpr (Or.inl (mapError_eq_error.mpr ⟨cause, ?_, rfl⟩))
  exact checkSignable_eq_error.mpr broken

section Steps

variable (signable : Signable transaction fee)
include signable

theorem prepare_of_unwritable {cause : EncodeError}
    (unwritten : Object.toSigningBytes
      (filledWith transaction fee sequence signer.publicKey signingFor) = .error cause) :
    prepare transaction fee sequence signer signingFor = .error (.serialization cause) := by
  rw [prepare_of_checked (checkSignable_eq_ok.mpr signable)]
  exact bind_eq_error.mpr (Or.inl (mapError_eq_error.mpr ⟨cause, unwritten, rfl⟩))

variable {digest : Hash 32}
  (digested : signingDigest (filledWith transaction fee sequence signer.publicKey signingFor)
    signingFor = .ok digest)
include digested

theorem prepare_of_refused {reason : String} (refused : signer.sign digest = .error reason) :
    prepare transaction fee sequence signer signingFor = .error (.signingFailed reason) := by
  obtain ⟨signingBytes, written, rfl⟩ := map_eq_ok.mp digested
  rw [prepare_of_checked (checkSignable_eq_ok.mpr signable)]
  refine bind_eq_error.mpr (Or.inr ⟨_, mapError_eq_ok.mpr written, ?_⟩)
  exact bind_eq_error.mpr (Or.inl (mapError_eq_error.mpr ⟨reason, refused, rfl⟩))

variable (made : signer.sign digest = .ok signature)
  (registered : ∀ entry ∈ transaction, entry.1.Registered)
include made registered

theorem prepare_of_oversized {cause : EncodeError}
    (oversized : oversized? signer.publicKey signature signingFor = some cause) :
    prepare transaction fee sequence signer signingFor = .error (.serialization cause) := by
  obtain ⟨signingBytes, written, rfl⟩ := map_eq_ok.mp digested
  have unsent := Output.toExcept_eq_error.mpr ((cause_signed registered written).trans oversized)
  rw [prepare_of_checked (checkSignable_eq_ok.mpr signable)]
  refine bind_eq_error.mpr (Or.inr ⟨_, mapError_eq_ok.mpr written, ?_⟩)
  refine bind_eq_error.mpr (Or.inr ⟨_, mapError_eq_ok.mpr made, ?_⟩)
  exact bind_eq_error.mpr (Or.inl (mapError_eq_error.mpr ⟨cause, unsent, rfl⟩))

theorem exists_prepare (sendable : oversized? signer.publicKey signature signingFor = none) :
    ∃ result, prepare transaction fee sequence signer signingFor = .ok result := by
  obtain ⟨signingBytes, written, rfl⟩ := map_eq_ok.mp digested
  obtain ⟨blob, complete⟩ :=
    Output.cause_eq_none.mp ((cause_signed registered written).trans sendable)
  exact ⟨_, prepare_of_steps (checkSignable_eq_ok.mpr signable) written made
    (Output.toExcept_eq_ok.mpr complete)⟩

end Steps

theorem prepare_ends (registered : ∀ entry ∈ transaction, entry.1.Registered) :
    Ends transaction (filledWith transaction fee sequence signer.publicKey signingFor) fee signer
      signingFor (prepare transaction fee sequence signer signingFor) := by
  cases checked : checkSignable transaction fee with
  | error cause =>
      have broken := checkSignable_eq_error.mp checked
      rw [prepare_of_malformed broken]
      exact .malformed broken
  | ok _ =>
      have signable := checkSignable_eq_ok.mp checked
      cases digested : signingDigest
        (filledWith transaction fee sequence signer.publicKey signingFor) signingFor with
      | error cause =>
          have unwritten := map_eq_error.mp digested
          rw [prepare_of_unwritable signable unwritten]
          exact .unwritable signable unwritten
      | ok digest =>
          cases made : signer.sign digest with
          | error reason =>
              rw [prepare_of_refused signable digested made]
              exact .refused signable digested made
          | ok signature =>
              cases sendable : oversized? signer.publicKey signature signingFor with
              | some cause =>
                  rw [prepare_of_oversized signable digested made registered sendable]
                  exact .unsendable signable digested made sendable
              | none =>
                  obtain ⟨result, prepared⟩ :=
                    exists_prepare signable digested made registered sendable
                  rw [prepared]
                  exact .signed signable digested made sendable

section Classified

variable (registered : ∀ entry ∈ transaction, entry.1.Registered)
include registered

theorem prepare_malformed_iff {cause : FormatError} :
    prepare transaction fee sequence signer signingFor = .error (.malformedTransaction cause) ↔
      Malformed transaction fee cause := by
  refine ⟨fun failed => ?_, prepare_of_malformed⟩
  have ends := failed ▸ prepare_ends registered
  cases ends with
  | malformed broken => exact broken

theorem prepare_serialization_iff {cause : EncodeError} :
    prepare transaction fee sequence signer signingFor = .error (.serialization cause) ↔
      Signable transaction fee ∧
        (Object.toSigningBytes (filledWith transaction fee sequence signer.publicKey signingFor) =
            .error cause ∨
          ∃ digest signature,
            signingDigest (filledWith transaction fee sequence signer.publicKey signingFor)
              signingFor = .ok digest ∧
            signer.sign digest = .ok signature ∧
            oversized? signer.publicKey signature signingFor = some cause) := by
  constructor
  · intro failed
    have ends := failed ▸ prepare_ends registered
    cases ends with
    | unwritable signable unwritten => exact ⟨signable, Or.inl unwritten⟩
    | unsendable signable digested made oversized =>
        exact ⟨signable, Or.inr ⟨_, _, digested, made, oversized⟩⟩
  · intro ⟨signable, reason⟩
    cases reason with
    | inl unwritten => exact prepare_of_unwritable signable unwritten
    | inr unsendable =>
        obtain ⟨digest, signature, digested, made, oversized⟩ := unsendable
        exact prepare_of_oversized signable digested made registered oversized

theorem prepare_signingFailed_iff {reason : String} :
    prepare transaction fee sequence signer signingFor = .error (.signingFailed reason) ↔
      Signable transaction fee ∧ ∃ digest,
        signingDigest (filledWith transaction fee sequence signer.publicKey signingFor)
          signingFor = .ok digest ∧
        signer.sign digest = .error reason := by
  constructor
  · intro failed
    have ends := failed ▸ prepare_ends registered
    cases ends with
    | refused signable digested refused => exact ⟨signable, _, digested, refused⟩
  · intro ⟨signable, digest, digested, refused⟩
    exact prepare_of_refused signable digested refused

theorem exists_prepare_iff :
    (∃ result, prepare transaction fee sequence signer signingFor = .ok result) ↔
      Signable transaction fee ∧ ∃ digest signature,
        signingDigest (filledWith transaction fee sequence signer.publicKey signingFor)
          signingFor = .ok digest ∧
        signer.sign digest = .ok signature ∧ signature.length ≤ 918744 ∧
          (signingFor.isSome = true → signer.publicKey.length ≤ 918744) := by
  constructor
  · intro ⟨result, prepared⟩
    have ends := prepared ▸ prepare_ends registered
    cases ends with
    | signed signable digested made sendable =>
        exact ⟨signable, _, _, digested, made, oversized?_eq_none.mp sendable⟩
  · intro ⟨signable, digest, signature, digested, made, short⟩
    exact exists_prepare signable digested made registered (oversized?_eq_none.mpr short)

/-- Filling in and attaching a signature never fail. -/
theorem prepare_ne_invalidField (cause : ValueError) :
    prepare transaction fee sequence signer signingFor ≠ .error (.invalidField cause) := by
  intro failed
  have ends := failed ▸ prepare_ends registered
  cases ends

end Classified

end Endings

section Complete

theorem contains_filled {field : Field} (filled : field ∈ Object.filledFields) :
    Object.contains ((filledWith transaction fee sequence publicKey signingFor).place
      (signatureEntry publicKey signature signingFor).1
      (signatureEntry publicKey signature signingFor).2) field = true := by
  rw [Object.contains_eq_isSome, get?_signed]
  simp only [Object.filledFields, List.mem_cons, List.not_mem_nil, or_false] at filled
  rcases filled with rfl | rfl | rfl
  · rw [if_pos rfl]
    rfl
  · have notFee : Fields.fee.key ≠ Fields.sequence.key := by decide
    rw [if_neg notFee, if_pos rfl]
    rfl
  · have notFee : Fields.fee.key ≠ Fields.signingPubKey.key := by decide
    have notSequence : Fields.sequence.key ≠ Fields.signingPubKey.key := by decide
    rw [if_neg notFee, if_neg notSequence, if_pos rfl]
    rfl

/-- A signed transaction is complete, and of the type that it was checked for. -/
theorem checkComplete_signed
    (prepared : prepare transaction fee sequence signer signingFor = .ok result) :
    ∃ type, transaction.checkForSigning = .ok type ∧
      result.transaction.checkComplete = .ok type := by
  obtain ⟨checked, _, signature, _, _, _, _, attached, _⟩ := prepare_eq_ok prepared
  obtain ⟨⟨type, passed⟩, native⟩ := checkSignable_eq_ok.mp checked
  obtain ⟨known, present⟩ := checkForSigning_eq_ok.mp passed
  have kind : result.transaction.requireTransactionType = .ok type := by
    rw [← known, attached]
    exact Object.requireTransactionType_congr (get?_signed_of_kept kept_transactionType)
  have whole (field : Field) (required : (field, .required) ∈ type.fields) :
      result.transaction.contains field = true := by
    rw [attached]
    rcases filled_or_kept required with filled | kept
    · exact contains_filled filled
    · rw [Object.contains_eq_isSome, get?_signed_of_kept kept, ← Object.contains_eq_isSome]
      exact present field required kept
  have required : result.transaction.checkRequired (fun _ => true) = .ok type :=
    Object.checkRequired_eq_ok.mpr ⟨kind, fun field required _ => whole field required⟩
  have paid : result.transaction.amount? Fields.fee = some fee := by
    rw [attached, Object.amount?, get?_signed, if_pos rfl]
  refine ⟨type, passed, ?_⟩
  rw [Object.checkComplete, required]
  simp only [paid, native]
  rfl

end Complete

/-- How signing ends, and that it can end in no other way: every step that fails is named with what
makes it fail. Whether what would be signed can be written does not depend on how it is signed. -/
theorem prepare_outcome (transaction : Object) (fee : Amount) (sequence : UInt32) (signer : Signer)
    (signingFor : Option Account) (registered : ∀ entry ∈ transaction, entry.1.Registered) :
    ∃ filled, fill transaction fee sequence signer.publicKey signingFor = .ok filled ∧
    (∀ cause, prepare transaction fee sequence signer signingFor =
        .error (.malformedTransaction cause) ↔ Malformed transaction fee cause) ∧
    (∀ cause, prepare transaction fee sequence signer signingFor = .error (.serialization cause) ↔
      Signable transaction fee ∧ (filled.toSigningBytes = .error cause ∨
        ∃ digest signature, signingDigest filled signingFor = .ok digest ∧
          signer.sign digest = .ok signature ∧
          oversized? signer.publicKey signature signingFor = some cause)) ∧
    (∀ cause sign, Signable transaction fee → filled.toSigningBytes = .error cause →
      prepare transaction fee sequence ⟨signer.publicKey, sign⟩ signingFor =
        .error (.serialization cause)) ∧
    (∀ reason, prepare transaction fee sequence signer signingFor =
        .error (.signingFailed reason) ↔
      Signable transaction fee ∧ ∃ digest, signingDigest filled signingFor = .ok digest ∧
        signer.sign digest = .error reason) ∧
    ((∃ result, prepare transaction fee sequence signer signingFor = .ok result) ↔
      Signable transaction fee ∧ ∃ digest signature,
        signingDigest filled signingFor = .ok digest ∧ signer.sign digest = .ok signature ∧
        signature.length ≤ 918744 ∧
          (signingFor.isSome = true → signer.publicKey.length ≤ 918744)) ∧
    (∀ cause, prepare transaction fee sequence signer signingFor ≠ .error (.invalidField cause)) ∧
    (∀ type, transaction.checkForSigning = .ok type →
      transaction.contains Fields.account = true) ∧
    ∀ result, prepare transaction fee sequence signer signingFor = .ok result →
      ∃ type, transaction.checkForSigning = .ok type ∧
        result.transaction.checkComplete = .ok type := by
  refine ⟨_, fill_eq _ _ _ _ _, fun _ => prepare_malformed_iff registered,
    fun _ => prepare_serialization_iff registered, ?_,
    fun _ => prepare_signingFailed_iff registered, exists_prepare_iff registered,
    prepare_ne_invalidField registered, fun _ => contains_account, fun _ => checkComplete_signed⟩
  intro cause sign signable unwritten
  exact prepare_of_unwritable signable unwritten

/-- A signer that refuses every digest. -/
def lockedSigner : Signer :=
  ⟨[0xED, 0x01], fun _ => .error "locked"⟩

theorem signable_accountSettings : Signable accountSettings tenDrops :=
  ⟨⟨.accountSet, by decide +kernel⟩, by decide +kernel⟩

theorem prepare_outcome_accountSettings :
    prepare accountSettings tenDrops 7 lockedSigner none = .error (.signingFailed "locked") ∧
      ∃ result, prepare accountSettings tenDrops 7 constantSigner (some Account.one) = .ok result ∧
        result.transaction.checkComplete = .ok .accountSet := by
  have registered : ∀ entry ∈ accountSettings, entry.1.Registered := by decide +kernel
  constructor
  · obtain ⟨filled, filledIn, _, _, _, refused, _⟩ :=
      prepare_outcome accountSettings tenDrops 7 lockedSigner none registered
    obtain ⟨digest, digested⟩ : ∃ digest, signingDigest filled none = .ok digest := by
      rw [fill_eq, Except.ok.injEq] at filledIn
      rw [← filledIn]
      exact exists_of_isOk (by decide +kernel)
    exact (refused "locked").mpr ⟨signable_accountSettings, digest, digested, rfl⟩
  · obtain ⟨_, _, _, _, _, _, _, _, _, complete⟩ :=
      prepare_outcome accountSettings tenDrops 7 constantSigner (some Account.one) registered
    obtain ⟨result, prepared⟩ := exists_prepare_accountSettings
    obtain ⟨type, checked, whole⟩ := complete result prepared
    have isAccountSet : accountSettings.checkForSigning = .ok .accountSet := by decide +kernel
    rw [isAccountSet] at checked
    cases checked
    exact ⟨result, prepared, whole⟩

end LedgerWire.Transaction
