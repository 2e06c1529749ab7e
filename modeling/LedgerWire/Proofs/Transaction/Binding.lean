import LedgerWire.Proofs.Object.Made
import LedgerWire.Proofs.Object.Wire
import LedgerWire.Proofs.Transaction.Checking

namespace LedgerWire

/-!
What is digested for a signature binds the transaction and the mode. The prefixes keep single
signing, multiple signing and identifiers apart, the account of a multiple signature is a suffix of
fixed width, and the signed bytes are read back as the transaction, so no two transactions share
them unless they agree in every field that is written.
-/

namespace Object

/-- Pruning keeps every field that has a wire form. -/
theorem get?_pruned (object : Object) {field : Field} (serialized : field.isSerialized = true) :
    object.pruned.get? field = (object.get? field).map Value.pruned := by
  induction object with
  | nil => rfl
  | cons entry rest ih =>
      obtain ⟨descriptor, value⟩ := entry
      rw [pruned, get?_cons]
      cases kept : descriptor.isSerialized with
      | true =>
          rw [if_pos rfl, get?_cons, ih]
          split <;> rfl
      | false =>
          have apart : descriptor.key ≠ field.key := by
            intro same
            rw [Field.isSerialized_eq_of_key same, serialized] at kept
            contradiction
          rw [if_neg Bool.false_ne_true, if_neg apart]
          exact ih

/-- Equal objects hold equal values in every field. -/
theorem rel_get?_of_same {left right : Object} (equal : same left right = true) (field : Field) :
    Option.Rel (fun left right => left.same right = true) (left.get? field)
      (right.get? field) := by
  induction left generalizing right with
  | nil =>
      cases right with
      | nil => exact .none
      | cons entry rest => contradiction
  | cons entry rest ih =>
      cases right with
      | nil => contradiction
      | cons other others =>
          rw [same, Bool.and_eq_true, Bool.and_eq_true, Field.same_iff] at equal
          obtain ⟨⟨sameField, sameValue⟩, sameRest⟩ := equal
          rw [get?_cons, get?_cons, sameField]
          split
          · exact .some sameValue
          · exact ih sameRest

theorem Shaped.short {object : Object} (shaped : object.Shaped) :
    object.pruned.All fun _ value => value.Short :=
  (shaped.entries.mono fun _ _ known => known.toShort).pruned fun _ _ short => short.pruned

/-- Objects that the wire cannot tell apart hold equal values in every field that is written. -/
theorem rel_get?_of_settled_eq {left right : Object} (leftShaped : left.Shaped)
    (rightShaped : right.Shaped) (equal : left.pruned.settled = right.pruned.settled)
    {field : Field} (serialized : field.isSerialized = true) :
    Option.Rel (fun left right => left.pruned.same right.pruned = true) (left.get? field)
      (right.get? field) := by
  have whole := same_of_settled_eq equal leftShaped.short rightShaped.short
  have related := rel_get?_of_same whole field
  rw [get?_pruned left serialized, get?_pruned right serialized] at related
  cases leftFound : left.get? field with
  | none =>
      cases rightFound : right.get? field with
      | none => exact .none
      | some rightValue =>
          rw [leftFound, rightFound] at related
          cases related
  | some leftValue =>
      cases rightFound : right.get? field with
      | none =>
          rw [leftFound, rightFound] at related
          cases related
      | some rightValue =>
          rw [leftFound, rightFound] at related
          cases related with
          | some equalValues => exact .some equalValues

end Object

theorem Account.toBytes_inj {left right : Account} (same : left.toBytes = right.toBytes) :
    left = right := by
  obtain ⟨⟨leftBytes, _⟩⟩ := left
  obtain ⟨⟨rightBytes, _⟩⟩ := right
  cases same
  rfl

namespace Transaction

section Preimages

variable {left right blob : Bytes} {leftFor rightFor : Option Account}

theorem signingPreimage_inj
    (same : signingPreimage left leftFor = signingPreimage right rightFor) :
    leftFor = rightFor ∧ left = right := by
  cases leftFor with
  | none =>
      cases rightFor with
      | none => exact ⟨rfl, List.append_cancel_left same⟩
      | some account => simp [signingPreimage, singlePrefix, multiplePrefix] at same
  | some account =>
      cases rightFor with
      | none => simp [signingPreimage, singlePrefix, multiplePrefix] at same
      | some other =>
          have width : account.toBytes.length = other.toBytes.length := by
            rw [Account.toBytes, Account.toBytes, account.octets.length_toList,
              other.octets.length_toList]
          obtain ⟨bodies, suffixes⟩ := List.append_inj' same width
          exact ⟨congrArg some (Account.toBytes_inj suffixes), List.append_cancel_left bodies⟩

theorem signingPreimage_ne_identifierPreimage (signingBytes : Bytes)
    (signingFor : Option Account) (blob : Bytes) :
    signingPreimage signingBytes signingFor ≠ identifierPreimage blob := by
  intro same
  cases signingFor <;>
    simp [signingPreimage, identifierPreimage, singlePrefix, multiplePrefix, identifierPrefix]
      at same

end Preimages

section Binding

variable {transaction : Object} {fee : Amount} {sequence : UInt32} {publicKey : Bytes}
  {signingFor : Option Account} {signer : Signer} {result : SignedTransaction}

/-- What `prepare` digests for the signature. -/
def signingInput (transaction : Object) (fee : Amount) (sequence : UInt32) (publicKey : Bytes)
    (signingFor : Option Account) : Except SignError Bytes := do
  let filled ← (fill transaction fee sequence publicKey signingFor).mapError .invalidField
  let signingBytes ← (Object.toSigningBytes filled).mapError .serialization
  pure (signingPreimage signingBytes signingFor)

theorem signingInput_of_written {signingBytes : Bytes}
    (written : Object.toSigningBytes
      (filledWith transaction fee sequence publicKey signingFor) = .ok signingBytes) :
    signingInput transaction fee sequence publicKey signingFor =
      .ok (signingPreimage signingBytes signingFor) := by
  refine bind_eq_ok.mpr ⟨_, mapError_eq_ok.mpr (fill_eq _ _ _ _ _), ?_⟩
  exact bind_eq_ok.mpr ⟨_, mapError_eq_ok.mpr written, rfl⟩

theorem isNative_of_checkSignable (checked : checkSignable transaction fee = .ok ()) :
    fee.isNative = true :=
  (checkSignable_eq_ok.mp checked).2

theorem shaped_fee (built : fee.Built) (isNative : fee.isNative = true) :
    (Value.amount fee).Shaped Fields.fee where
  fits := fits_fee fee
  ascending := nofun
  built := by
    rintro _ ⟨⟩
    exact built
  registered := Fields.registered_of_mem (by simp [Fields.all])
  notMarker := by decide
  wrapped := nofun
  named := nofun
  short := by
    rintro _ ⟨⟩ isUnbounded
    obtain ⟨_, _, _, bounded⟩ := built.valid.native isNative
    rw [bounded] at isUnbounded
    contradiction

theorem shaped_sequence (sequence : UInt32) : (Value.uint32 sequence).Shaped Fields.sequence :=
  Value.shaped_of_isAtom rfl (fits_sequence sequence)
    (Fields.registered_of_mem (by simp [Fields.all])) (by decide)

theorem shaped_signingPubKey (key : Bytes) : (Value.blob key).Shaped Fields.signingPubKey :=
  Value.shaped_of_isAtom rfl (fits_signingPubKey key)
    (Fields.registered_of_mem (by simp [Fields.all])) (by decide)

theorem shaped_filledWith (shaped : transaction.Shaped) (built : fee.Built)
    (isNative : fee.isNative = true) :
    (filledWith transaction fee sequence publicKey signingFor).Shaped := by
  have withFee := shaped.place (shaped_fee built isNative) trivial rfl
  have withSequence := withFee.place (shaped_sequence sequence) trivial rfl
  have withKey := withSequence.place
    (shaped_signingPubKey (if signingFor.isSome then [] else publicKey)) trivial rfl
  exact (withKey.erase Fields.txnSignature).erase Fields.signers

/-- The signed bytes are read back as the transaction that is signed. -/
theorem ofBytes_signingBytes {signingBytes : Bytes} (shaped : transaction.Shaped)
    (built : fee.Built) (isNative : fee.isNative = true)
    (written : Object.toSigningBytes
      (filledWith transaction fee sequence publicKey signingFor) = .ok signingBytes) :
    Object.ofBytes signingBytes =
      .ok (filledWith transaction fee sequence publicKey signingFor).pruned.settled := by
  have filledShaped : (filledWith transaction fee sequence publicKey signingFor).Shaped :=
    shaped_filledWith shaped built isNative
  have registered := filledShaped.registered
  apply Object.ofBytes_of_write filledShaped
  rw [← write_signing_eq_all registered (unsigned_filledWith _ _ _ _ _)]
  exact Output.toExcept_eq_ok.mp written

/-- Outside the fields of signatures, a signed transaction is the one that was signed. -/
theorem get?_signed_eq_filledWith (transaction : Object) (fee : Amount) (sequence : UInt32)
    (publicKey signature : Bytes) (signingFor : Option Account) {field : Field}
    (notSignature : field.key ≠ Fields.txnSignature.key)
    (notSigners : field.key ≠ Fields.signers.key) :
    ((filledWith transaction fee sequence publicKey signingFor).place
        (signatureEntry publicKey signature signingFor).1
        (signatureEntry publicKey signature signingFor).2).get? field =
      (filledWith transaction fee sequence publicKey signingFor).get? field := by
  rw [Object.get?_place]
  cases signingFor with
  | none => exact if_neg fun same => notSignature same.symm
  | some account => exact if_neg fun same => notSigners same.symm

end Binding

/-- Transactions with one preimage are signed in one mode and agree in every field that is written,
the signatures apart. -/
theorem signing_preimage_binds (left right : Object) (leftFee rightFee : Amount)
    (leftSequence rightSequence : UInt32) (leftSigner rightSigner : Signer)
    (leftFor rightFor : Option Account) (leftResult rightResult : SignedTransaction)
    (leftShaped : left.Shaped) (rightShaped : right.Shaped) (leftBuilt : leftFee.Built)
    (rightBuilt : rightFee.Built)
    (leftPrepared : prepare left leftFee leftSequence leftSigner leftFor = .ok leftResult)
    (rightPrepared : prepare right rightFee rightSequence rightSigner rightFor = .ok rightResult) :
    ∃ leftInput rightInput,
      signingInput left leftFee leftSequence leftSigner.publicKey leftFor = .ok leftInput ∧
      signingInput right rightFee rightSequence rightSigner.publicKey rightFor = .ok rightInput ∧
      leftResult.signingHash = sha512Half leftInput ∧
      rightResult.signingHash = sha512Half rightInput ∧
      (leftInput = rightInput → leftFor = rightFor ∧
        ∀ field : Field, field.isSerialized = true → field.key ≠ Fields.txnSignature.key →
          field.key ≠ Fields.signers.key →
          Option.Rel (fun left right => left.pruned.same right.pruned = true)
            (leftResult.transaction.get? field) (rightResult.transaction.get? field)) ∧
      ∀ signingBytes signingFor blob,
        signingPreimage signingBytes signingFor ≠ identifierPreimage blob := by
  obtain ⟨leftChecked, leftBytes, leftSignature, _, leftWritten, leftHash, _, leftAttached, _⟩ :=
    prepare_eq_ok leftPrepared
  obtain ⟨rightChecked, rightBytes, rightSignature, _, rightWritten, rightHash, _, rightAttached,
    _⟩ := prepare_eq_ok rightPrepared
  refine ⟨_, _, signingInput_of_written leftWritten, signingInput_of_written rightWritten, leftHash,
    rightHash, ?_, signingPreimage_ne_identifierPreimage⟩
  intro same
  obtain ⟨sameMode, sameBytes⟩ := signingPreimage_inj same
  refine ⟨sameMode, fun field serialized notSignature notSigners => ?_⟩
  have leftNative := isNative_of_checkSignable leftChecked
  have rightNative := isNative_of_checkSignable rightChecked
  have leftRead := ofBytes_signingBytes leftShaped leftBuilt leftNative leftWritten
  have rightRead := ofBytes_signingBytes rightShaped rightBuilt rightNative rightWritten
  -- The bytes are read as one object, to which both transactions settle.
  rw [sameBytes, rightRead] at leftRead
  rw [leftAttached, rightAttached, get?_signed_eq_filledWith _ _ _ _ _ _ notSignature notSigners,
    get?_signed_eq_filledWith _ _ _ _ _ _ notSignature notSigners]
  exact Object.rel_get?_of_settled_eq (shaped_filledWith leftShaped leftBuilt leftNative)
    (shaped_filledWith rightShaped rightBuilt rightNative) (Except.ok.inj leftRead).symm serialized

/-- The same settings, not signed before, with an identifier that has no wire form. -/
def identifiedSettings : Object :=
  [(Fields.transactionType, .uint16 3),
    (⟨"hash", .hash256, 257, true⟩, .hash256 (Octets.zero 32)),
    (Fields.account, .account Account.one)]

theorem shaped_accountSettings : accountSettings.Shaped := by
  have type : (Value.uint16 3).Shaped Fields.transactionType :=
    Value.shaped_of_isAtom rfl (by decide) (Fields.registered_of_mem (by simp [Fields.all]))
      (by decide)
  have signature : (Value.blob [9]).Shaped Fields.txnSignature :=
    Value.shaped_of_isAtom rfl (by decide) (Fields.registered_of_mem (by simp [Fields.all]))
      (by decide)
  have account : (Value.account Account.one).Shaped Fields.account :=
    Value.shaped_of_isAtom rfl (by decide) (Fields.registered_of_mem (by simp [Fields.all]))
      (by decide)
  exact ⟨by decide, ⟨type, trivial, signature, trivial, account, trivial, trivial⟩, by decide⟩

theorem shaped_identifiedSettings : identifiedSettings.Shaped := by
  have type : (Value.uint16 3).Shaped Fields.transactionType :=
    Value.shaped_of_isAtom rfl (by decide) (Fields.registered_of_mem (by simp [Fields.all]))
      (by decide)
  have hash : (Value.hash256 (Octets.zero 32)).Shaped ⟨"hash", .hash256, 257, true⟩ :=
    Value.shaped_of_isAtom rfl (by decide) (by decide +kernel) (by decide)
  have account : (Value.account Account.one).Shaped Fields.account :=
    Value.shaped_of_isAtom rfl (by decide) (Fields.registered_of_mem (by simp [Fields.all]))
      (by decide)
  exact ⟨by decide, ⟨type, trivial, hash, trivial, account, trivial, trivial⟩, by decide⟩

theorem signing_preimage_binds_settings :
    ∃ leftResult rightResult,
      prepare accountSettings tenDrops 7 constantSigner (some Account.one) = .ok leftResult ∧
      prepare identifiedSettings tenDrops 7 constantSigner (some Account.one) = .ok rightResult ∧
      Option.Rel (fun left right => left.pruned.same right.pruned = true)
        (leftResult.transaction.get? Fields.account)
        (rightResult.transaction.get? Fields.account) := by
  obtain ⟨leftResult, leftPrepared⟩ := exists_prepare_accountSettings
  obtain ⟨rightResult, rightPrepared⟩ := exists_prepare_constantSigner identifiedSettings
    (some Account.one) (by decide +kernel) (by decide +kernel) (by decide +kernel)
  have built : tenDrops.Built := @Amount.Built.drops .primary 10 _ (by decide +kernel)
  have sameInput : signingInput accountSettings tenDrops 7 constantSigner.publicKey
      (some Account.one) = signingInput identifiedSettings tenDrops 7 constantSigner.publicKey
      (some Account.one) := by
    decide +kernel
  obtain ⟨leftInput, rightInput, leftMade, rightMade, _, _, binds, _⟩ :=
    signing_preimage_binds accountSettings identifiedSettings tenDrops tenDrops 7 7 constantSigner
      constantSigner (some Account.one) (some Account.one) leftResult rightResult
      shaped_accountSettings shaped_identifiedSettings built built leftPrepared rightPrepared
  rw [sameInput, rightMade] at leftMade
  obtain ⟨_, agree⟩ := binds (Except.ok.inj leftMade).symm
  exact ⟨leftResult, rightResult, leftPrepared, rightPrepared,
    agree Fields.account (by decide) (by decide) (by decide)⟩

end Transaction

end LedgerWire
