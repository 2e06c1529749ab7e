import LedgerWire.Proofs.Object.Map
import LedgerWire.Proofs.Text.Hex
import LedgerWire.Proofs.Wire.Writing
import LedgerWire.Transaction.Sign

namespace LedgerWire.Transaction

/-!
What is signed is what is sent. A signed transaction is the given one with fee, sequence and key
filled in and its signatures replaced, and stripped of its signatures its wire form is the byte
string that was signed: the fields that a signature covers are all the fields that are left.
-/

variable {transaction filled signed : Object} {fee : Amount} {sequence : UInt32}
  {publicKey signature : Bytes} {signingFor : Option Account} {signer : Signer}
  {result : SignedTransaction}

section Codecs

theorem fits_of_codec {field : Field} {value : Value} (type : FieldType)
    (codec : field.codec = .plain type) (fits : value.fits (.plain type) = true) :
    value.fits field.codec = true :=
  codec ▸ fits

theorem fits_fee (fee : Amount) : (Value.amount fee).fits Fields.fee.codec = true :=
  fits_of_codec .amount (by decide) rfl

theorem fits_sequence (sequence : UInt32) :
    (Value.uint32 sequence).fits Fields.sequence.codec = true :=
  fits_of_codec .uint32 (by decide) rfl

theorem fits_signingPubKey (key : Bytes) :
    (Value.blob key).fits Fields.signingPubKey.codec = true :=
  fits_of_codec .blob (by decide) rfl

theorem fits_txnSignature (signature : Bytes) :
    (Value.blob signature).fits Fields.txnSignature.codec = true :=
  fits_of_codec .blob (by decide) rfl

theorem fits_account (account : Account) :
    (Value.account account).fits Fields.account.codec = true :=
  fits_of_codec .account (by decide) rfl

theorem fits_signer (fields : Object) : (Value.object fields).fits Fields.signer.codec = true :=
  fits_of_codec .object (by decide) rfl

theorem fits_signers (elements : Elements) :
    (Value.array elements).fits Fields.signers.codec = true :=
  fits_of_codec .array (by decide) rfl

end Codecs

section Steps

/-- The transaction that is signed. -/
def filledWith (transaction : Object) (fee : Amount) (sequence : UInt32) (publicKey : Bytes)
    (signingFor : Option Account) : Object :=
  let key := if signingFor.isSome then [] else publicKey
  (((transaction.place Fields.fee (.amount fee)).place Fields.sequence (.uint32 sequence)).place
    Fields.signingPubKey (.blob key)).erase Fields.txnSignature |>.erase Fields.signers

theorem fill_eq (transaction : Object) (fee : Amount) (sequence : UInt32) (publicKey : Bytes)
    (signingFor : Option Account) :
    fill transaction fee sequence publicKey signingFor =
      .ok (filledWith transaction fee sequence publicKey signingFor) := by
  simp only [fill]
  rw [Object.set_of_fits (fits_fee fee)]
  refine bind_eq_ok.mpr ⟨_, rfl, ?_⟩
  rw [Object.set_of_fits (fits_sequence sequence)]
  refine bind_eq_ok.mpr ⟨_, rfl, ?_⟩
  rw [Object.set_of_fits (fits_signingPubKey _)]
  exact bind_eq_ok.mpr ⟨_, rfl, rfl⟩

/-- The entry of one of several signers, in canonical order. -/
def signerFieldsOf (account : Account) (publicKey signature : Bytes) : Object :=
  [(Fields.signingPubKey, .blob publicKey), (Fields.txnSignature, .blob signature),
    (Fields.account, .account account)]

theorem signerEntry_eq (account : Account) (publicKey signature : Bytes) :
    signerEntry account publicKey signature =
      .ok (signerFieldsOf account publicKey signature) := by
  simp only [signerEntry]
  rw [Object.set_of_fits (fits_account account)]
  refine bind_eq_ok.mpr ⟨_, rfl, ?_⟩
  rw [Object.set_of_fits (fits_signingPubKey publicKey)]
  refine bind_eq_ok.mpr ⟨_, rfl, ?_⟩
  rw [Object.set_of_fits (fits_txnSignature signature)]
  have keyFirst : Fields.signingPubKey.key < Fields.account.key := by decide
  have signatureFirst : Fields.txnSignature.key < Fields.account.key := by decide
  have keyBefore : ¬ Fields.txnSignature.key < Fields.signingPubKey.key := by decide
  have keyApart : Fields.txnSignature.key ≠ Fields.signingPubKey.key := by decide
  rw [Object.place, Object.place, if_pos keyFirst, Object.place, if_neg keyBefore,
    if_neg keyApart, Object.place, if_pos signatureFirst]
  rfl

/-- The field that a signature is added in, and its value. -/
def signatureEntry (publicKey signature : Bytes) : Option Account → Field × Value
  | none => (Fields.txnSignature, .blob signature)
  | some account =>
    (Fields.signers,
      .array [[(Fields.signer, .object (signerFieldsOf account publicKey signature))]])

theorem attach_eq (transaction : Object) (publicKey signature : Bytes)
    (signingFor : Option Account) :
    attach transaction publicKey signature signingFor =
      .ok (transaction.place (signatureEntry publicKey signature signingFor).1
        (signatureEntry publicKey signature signingFor).2) := by
  cases signingFor with
  | none => exact Object.set_of_fits (fits_txnSignature signature)
  | some account =>
      simp only [attach, Object.wrap]
      simp only [signerEntry_eq]
      refine bind_eq_ok.mpr ⟨_, rfl, ?_⟩
      rw [Object.set_of_fits (fits_signer _)]
      exact bind_eq_ok.mpr ⟨_, rfl, Object.set_of_fits (fits_signers _)⟩

/-- What follows a check that passed: filling in and attaching cannot fail. -/
theorem prepare_of_checked (checked : checkSignable transaction fee = .ok ()) :
    prepare transaction fee sequence signer signingFor = (do
      let filled := filledWith transaction fee sequence signer.publicKey signingFor
      let signingBytes ← (Object.toSigningBytes filled).mapError .serialization
      let signingHash := sha512Half (signingPreimage signingBytes signingFor)
      let signature ← (signer.sign signingHash).mapError .signingFailed
      let entry := signatureEntry signer.publicKey signature signingFor
      let blob ← (Object.toBytes (filled.place entry.1 entry.2)).mapError .serialization
      pure ⟨filled.place entry.1 entry.2, Text.Hex.encode blob,
        sha512Half (identifierPreimage blob), signingHash⟩) := by
  simp only [prepare, checked, fill_eq, attach_eq]
  rfl

/-- The steps of a successful preparation. -/
theorem prepare_eq_ok
    (prepared : prepare transaction fee sequence signer signingFor = .ok result) :
    checkSignable transaction fee = .ok () ∧ ∃ signingBytes signature blob,
      Object.toSigningBytes (filledWith transaction fee sequence signer.publicKey signingFor) =
        .ok signingBytes ∧
      result.signingHash = sha512Half (signingPreimage signingBytes signingFor) ∧
      signer.sign result.signingHash = .ok signature ∧
      result.transaction =
        (filledWith transaction fee sequence signer.publicKey signingFor).place
          (signatureEntry signer.publicKey signature signingFor).1
          (signatureEntry signer.publicKey signature signingFor).2 ∧
      result.transaction.toBytes = .ok blob ∧ result.blob = Text.Hex.encode blob ∧
      result.hash = sha512Half (identifierPreimage blob) := by
  obtain ⟨_, passed, _⟩ := bind_eq_ok.mp prepared
  have checked := mapError_eq_ok.mp passed
  rw [prepare_of_checked checked] at prepared
  obtain ⟨signingBytes, written, prepared⟩ := bind_eq_ok.mp prepared
  obtain ⟨signature, made, prepared⟩ := bind_eq_ok.mp prepared
  obtain ⟨blob, sent, prepared⟩ := bind_eq_ok.mp prepared
  rw [mapError_eq_ok] at written made sent
  cases prepared
  exact ⟨checked, signingBytes, signature, blob, written, rfl, made, rfl, sent, rfl, rfl⟩

/-- A preparation whose steps succeed. -/
theorem prepare_of_steps {signingBytes blob : Bytes}
    (checked : checkSignable transaction fee = .ok ())
    (written : Object.toSigningBytes
      (filledWith transaction fee sequence signer.publicKey signingFor) = .ok signingBytes)
    (made : signer.sign (sha512Half (signingPreimage signingBytes signingFor)) = .ok signature)
    (sent : Object.toBytes
      ((filledWith transaction fee sequence signer.publicKey signingFor).place
        (signatureEntry signer.publicKey signature signingFor).1
        (signatureEntry signer.publicKey signature signingFor).2) = .ok blob) :
    prepare transaction fee sequence signer signingFor = .ok
      ⟨(filledWith transaction fee sequence signer.publicKey signingFor).place
          (signatureEntry signer.publicKey signature signingFor).1
          (signatureEntry signer.publicKey signature signingFor).2,
        Text.Hex.encode blob, sha512Half (identifierPreimage blob),
        sha512Half (signingPreimage signingBytes signingFor)⟩ := by
  rw [prepare_of_checked checked]
  refine bind_eq_ok.mpr ⟨_, mapError_eq_ok.mpr written, ?_⟩
  refine bind_eq_ok.mpr ⟨_, mapError_eq_ok.mpr made, ?_⟩
  exact bind_eq_ok.mpr ⟨_, mapError_eq_ok.mpr sent, rfl⟩

end Steps

section Contents

theorem keys :
    Fields.fee.key = 393224 ∧ Fields.sequence.key = 131076 ∧ Fields.signingPubKey.key = 458755 ∧
      Fields.txnSignature.key = 458756 ∧ Fields.signers.key = 983043 := by
  decide

theorem get?_filledWith (transaction : Object) (fee : Amount) (sequence : UInt32)
    (publicKey : Bytes) (signingFor : Option Account) (field : Field) :
    (filledWith transaction fee sequence publicKey signingFor).get? field =
      if Fields.fee.key = field.key then some (.amount fee)
      else if Fields.sequence.key = field.key then some (.uint32 sequence)
      else if Fields.signingPubKey.key = field.key then
        some (.blob (if signingFor.isSome then [] else publicKey))
      else if Fields.txnSignature.key = field.key ∨ Fields.signers.key = field.key then none
      else transaction.get? field := by
  obtain ⟨feeKey, sequenceKey, publicKeyKey, signatureKey, signersKey⟩ := keys
  rw [filledWith, Object.get?_erase, Object.get?_erase, Object.get?_place, Object.get?_place,
    Object.get?_place, feeKey, sequenceKey, publicKeyKey, signatureKey, signersKey]
  split_ifs <;> first | rfl | omega

/-- What holds of all fields of a transaction, and of those that are filled in, holds of all fields
of the filled-in transaction. -/
theorem forall_filledWith {known : Field → Prop} (all : ∀ entry ∈ transaction, known entry.1)
    (knownFee : known Fields.fee) (knownSequence : known Fields.sequence)
    (knownKey : known Fields.signingPubKey) :
    ∀ entry ∈ filledWith transaction fee sequence publicKey signingFor, known entry.1 :=
  Object.forall_erase (Object.forall_erase (Object.forall_place (Object.forall_place
    (Object.forall_place all knownFee) knownSequence) knownKey))

theorem registered_filledWith (registered : ∀ entry ∈ transaction, entry.1.Registered) :
    ∀ entry ∈ filledWith transaction fee sequence publicKey signingFor, entry.1.Registered :=
  forall_filledWith registered (Fields.registered_of_mem (by simp [Fields.all]))
    (Fields.registered_of_mem (by simp [Fields.all]))
    (Fields.registered_of_mem (by simp [Fields.all]))

theorem unsigned_filledWith (transaction : Object) (fee : Amount) (sequence : UInt32)
    (publicKey : Bytes) (signingFor : Option Account) :
    ∀ entry ∈ filledWith transaction fee sequence publicKey signingFor,
      entry.1.key ≠ Fields.txnSignature.key ∧ entry.1.key ≠ Fields.signers.key := by
  intro entry member
  obtain ⟨kept, notSigners⟩ := Object.mem_erase.mp member
  exact ⟨(Object.mem_erase.mp kept).2, notSigners⟩

/-- Without signatures, what is signed of an object is the whole of its wire form. -/
theorem write_signing_eq_all {object : Object}
    (registered : ∀ entry ∈ object, entry.1.Registered)
    (unsigned : ∀ entry ∈ object,
      entry.1.key ≠ Fields.txnSignature.key ∧ entry.1.key ≠ Fields.signers.key) :
    Object.write .signing object = Object.write .all object := by
  induction object with
  | nil => rfl
  | cons entry rest ih =>
      have others := ih (fun entry member => registered entry (List.mem_cons_of_mem _ member))
        fun entry member => unsigned entry (List.mem_cons_of_mem _ member)
      obtain ⟨noSignature, noSigners⟩ := unsigned entry List.mem_cons_self
      have covered : entry.1.covered = true := by
        rw [(registered entry List.mem_cons_self).covered_eq, Field.same, Field.same,
          beq_eq_false_iff_ne.mpr noSignature, beq_eq_false_iff_ne.mpr noSigners]
        rfl
      have admitted : FieldFilter.admits .signing entry.1 = FieldFilter.admits .all entry.1 := by
        rw [FieldFilter.admits, FieldFilter.admits, Field.isSigned, covered, Bool.and_true]
      obtain ⟨field, value⟩ := entry
      rw [Object.write, Object.write, admitted, others]

/-- Stripped of its signatures, a signed transaction is the one that was signed. -/
theorem stripped_eq (transaction : Object) (fee : Amount) (sequence : UInt32)
    (publicKey signature : Bytes) (signingFor : Option Account) :
    (((filledWith transaction fee sequence publicKey signingFor).place
        (signatureEntry publicKey signature signingFor).1
        (signatureEntry publicKey signature signingFor).2).erase
      Fields.txnSignature).erase Fields.signers =
    filledWith transaction fee sequence publicKey signingFor := by
  have unsigned := unsigned_filledWith transaction fee sequence publicKey signingFor
  generalize filledWith transaction fee sequence publicKey signingFor = filled at unsigned ⊢
  cases signingFor with
  | none =>
      rw [signatureEntry, Object.erase_place fun entry member => (unsigned entry member).1]
      exact Object.erase_of_absent fun entry member => (unsigned entry member).2
  | some account =>
      have noSignature (value : Value) :
          ∀ entry ∈ filled.place Fields.signers value, entry.1.key ≠ Fields.txnSignature.key := by
        intro entry member
        rcases Object.key_of_mem_place member with isSigners | ⟨old, found, same⟩
        · rw [isSigners]
          decide
        · rw [← same]
          exact (unsigned old found).1
      rw [signatureEntry, Object.erase_of_absent (noSignature _)]
      exact Object.erase_place fun entry member => (unsigned entry member).2

theorem signatureEntry_registered (publicKey signature : Bytes) (signingFor : Option Account) :
    (signatureEntry publicKey signature signingFor).1.Registered := by
  cases signingFor with
  | none => exact Fields.registered_of_mem (by simp [signatureEntry, Fields.all])
  | some account => exact Fields.registered_of_mem (by simp [signatureEntry, Fields.all])

theorem ascending_filledWith (ascending : transaction.Ascending) :
    (filledWith transaction fee sequence publicKey signingFor).Ascending :=
  ((((ascending.place _ _).place _ _).place _ _).erase _).erase _

/-- A signed transaction has the given fee, sequence and key, the new signature in place of any
other, and every other field as it was. -/
theorem get?_signed (transaction : Object) (fee : Amount) (sequence : UInt32)
    (publicKey signature : Bytes) (signingFor : Option Account) (field : Field) :
    ((filledWith transaction fee sequence publicKey signingFor).place
      (signatureEntry publicKey signature signingFor).1
      (signatureEntry publicKey signature signingFor).2).get? field =
        if Fields.fee.key = field.key then some (.amount fee)
        else if Fields.sequence.key = field.key then some (.uint32 sequence)
        else if Fields.signingPubKey.key = field.key then
          some (.blob (if signingFor.isSome then [] else publicKey))
        else if Fields.txnSignature.key = field.key then
          if signingFor.isSome then none else some (.blob signature)
        else if Fields.signers.key = field.key then
          signingFor.map fun account =>
            .array [[(Fields.signer, .object (signerFieldsOf account publicKey signature))]]
        else transaction.get? field := by
  obtain ⟨feeKey, sequenceKey, publicKeyKey, signatureKey, signersKey⟩ := keys
  rw [Object.get?_place, get?_filledWith]
  cases signingFor with
  | none =>
      rw [signatureEntry, feeKey, sequenceKey, publicKeyKey, signatureKey, signersKey]
      split_ifs <;> first | rfl | omega | contradiction
  | some account =>
      rw [signatureEntry, feeKey, sequenceKey, publicKeyKey, signatureKey, signersKey]
      split_ifs <;> first | rfl | omega | contradiction

end Contents

/-- What is signed is what is sent. The transaction's identifier is the digest of `TXN`, NUL and the
wire form; what is signed is the digest of `STX`, NUL and the wire form without signatures, or of
`SMT`, NUL, that form and the account that is signed for. -/
theorem prepare_signs_what_is_sent (transaction : Object) (fee : Amount) (sequence : UInt32)
    (signer : Signer) (signingFor : Option Account) (result : SignedTransaction)
    (registered : ∀ entry ∈ transaction, entry.1.Registered)
    (prepared : prepare transaction fee sequence signer signingFor = .ok result) :
    ∃ signature blob signingBytes, signer.sign result.signingHash = .ok signature ∧
      (∀ field, result.transaction.get? field =
        if Fields.fee.key = field.key then some (.amount fee)
        else if Fields.sequence.key = field.key then some (.uint32 sequence)
        else if Fields.signingPubKey.key = field.key then
          some (.blob (if signingFor.isSome then [] else signer.publicKey))
        else if Fields.txnSignature.key = field.key then
          if signingFor.isSome then none else some (.blob signature)
        else if Fields.signers.key = field.key then
          signingFor.map fun account =>
            .array [[(Fields.signer, .object (signerFieldsOf account signer.publicKey signature))]]
        else transaction.get? field) ∧
      (transaction.Ascending → result.transaction.Ascending) ∧
      (∀ entry ∈ result.transaction, entry.1.Registered) ∧
      result.transaction.toBytes = .ok blob ∧
      result.blob = String.ofList (blob.flatMap fun byte =>
        [(byte.toNat / 16).digitChar.toUpper, (byte.toNat % 16).digitChar.toUpper]) ∧
      result.hash = sha512Half ([0x54, 0x58, 0x4E, 0x00] ++ blob) ∧
      ((result.transaction.erase Fields.txnSignature).erase Fields.signers).toBytes =
        .ok signingBytes ∧
      result.signingHash = sha512Half
        (signingFor.elim ([0x53, 0x54, 0x58, 0x00] ++ signingBytes) fun account =>
          [0x53, 0x4D, 0x54, 0x00] ++ signingBytes ++ account.octets.toList) := by
  obtain ⟨_, signingBytes, signature, blob, written, signingHash, made, attached, sent, hexadecimal,
    hash⟩ := prepare_eq_ok prepared
  have whole := write_signing_eq_all (registered_filledWith registered)
    (unsigned_filledWith transaction fee sequence signer.publicKey signingFor)
  refine ⟨signature, blob, signingBytes, made, ?_, ?_, ?_, sent, ?_, hash, ?_, ?_⟩
  · intro field
    rw [attached]
    exact get?_signed transaction fee sequence signer.publicKey signature signingFor field
  · intro ascending
    rw [attached]
    exact (ascending_filledWith ascending).place _ _
  · rw [attached]
    exact Object.forall_place (registered_filledWith registered)
      (signatureEntry_registered signer.publicKey signature signingFor)
  · rw [hexadecimal, Text.Hex.encode_eq]
  · rw [attached, stripped_eq]
    simp only [Object.toSigningBytes] at written
    rw [whole] at written
    exact written
  · rw [signingHash]
    cases signingFor with
    | none => rfl
    | some account => rfl

/-- An account's settings, signed before. -/
def accountSettings : Object :=
  [(Fields.transactionType, .uint16 3), (Fields.txnSignature, .blob [9]),
    (Fields.account, .account Account.one)]

def tenDrops : Amount :=
  ⟨⟨false, 1, -5⟩, NativeAsset.primary.currency, Account.zero, false⟩

/-- A signer whose signatures are all the same. -/
def constantSigner : Signer :=
  ⟨[0xED, 0x01], fun _ => .ok [0x02]⟩

theorem exists_prepare_constantSigner (transaction : Object) (signingFor : Option Account)
    (checked : (checkSignable transaction tenDrops).isOk = true)
    (written : (Object.toSigningBytes (filledWith transaction tenDrops 7
      constantSigner.publicKey signingFor)).isOk = true)
    (sent : (Object.toBytes ((filledWith transaction tenDrops 7
      constantSigner.publicKey signingFor).place
        (signatureEntry constantSigner.publicKey [0x02] signingFor).1
        (signatureEntry constantSigner.publicKey [0x02] signingFor).2)).isOk = true) :
    ∃ result, prepare transaction tenDrops 7 constantSigner signingFor = .ok result := by
  obtain ⟨_, checked⟩ := exists_of_isOk checked
  obtain ⟨signingBytes, written⟩ := exists_of_isOk written
  obtain ⟨blob, sent⟩ := exists_of_isOk sent
  exact ⟨_, prepare_of_steps checked written rfl sent⟩

/-- The transaction that `constantSigner` signs. -/
theorem transaction_of_constantSigner
    (prepared : prepare transaction tenDrops 7 constantSigner signingFor = .ok result) :
    result.transaction = (filledWith transaction tenDrops 7 constantSigner.publicKey
      signingFor).place
        (signatureEntry constantSigner.publicKey [0x02] signingFor).1
        (signatureEntry constantSigner.publicKey [0x02] signingFor).2 := by
  obtain ⟨_, _, signature, _, _, _, made, attached, _⟩ := prepare_eq_ok prepared
  cases made
  exact attached

theorem exists_prepare_accountSettings :
    ∃ result, prepare accountSettings tenDrops 7 constantSigner (some Account.one) = .ok result :=
  exists_prepare_constantSigner accountSettings (some Account.one) (by decide +kernel)
    (by decide +kernel) (by decide +kernel)

/-- The wire form of the settings, with ten drops, sequence 7 and these fields of a signature. -/
def settingsBytes (signatureFields : Bytes) : Bytes :=
  [0x12, 0x00, 0x03, 0x24, 0x00, 0x00, 0x00, 0x07, 0x68, 0x40, 0x00, 0x00, 0x00, 0x00, 0x00, 0x00,
    0x0A] ++ signatureFields ++ [0x81, 0x14] ++ List.replicate 19 0x00 ++ [0x01]

/-- The settings signed by themselves, and on behalf of an account. -/
theorem prepare_signs_what_is_sent_accountSettings :
    (∃ result,
      prepare accountSettings tenDrops 7 constantSigner none = .ok result ∧
      constantSigner.sign result.signingHash = .ok [0x02] ∧
      result.blob = "120003240000000768400000000000000A7302ED01740102" ++
        "81140000000000000000000000000000000000000001" ∧
      result.hash = sha512Half ([0x54, 0x58, 0x4E, 0x00] ++
        settingsBytes [0x73, 0x02, 0xED, 0x01, 0x74, 0x01, 0x02]) ∧
      result.hash.toHex = "83B625B398EE4DEE7247B6C7535C868146F150BD9ABBDF8B02DBCEA063C87676" ∧
      ((result.transaction.erase Fields.txnSignature).erase Fields.signers).toBytes =
        .ok (settingsBytes [0x73, 0x02, 0xED, 0x01]) ∧
      result.signingHash = sha512Half ([0x53, 0x54, 0x58, 0x00] ++
        settingsBytes [0x73, 0x02, 0xED, 0x01]) ∧
      result.signingHash.toHex =
        "6F4D21AB547440CAAE9036FFFF212BC5F8BD2057874C8EA1E351C85972679C95") ∧
    ∃ result,
      prepare accountSettings tenDrops 7 constantSigner (some Account.one) = .ok result ∧
      constantSigner.sign result.signingHash = .ok [0x02] ∧
      result.blob = "120003240000000768400000000000000A7300" ++
        "81140000000000000000000000000000000000000001F3E0107302ED01740102" ++
        "81140000000000000000000000000000000000000001E1F1" ∧
      result.hash = sha512Half ([0x54, 0x58, 0x4E, 0x00] ++ settingsBytes [0x73, 0x00] ++
        [0xF3, 0xE0, 0x10, 0x73, 0x02, 0xED, 0x01, 0x74, 0x01, 0x02, 0x81, 0x14] ++
        List.replicate 19 0x00 ++ [0x01, 0xE1, 0xF1]) ∧
      result.hash.toHex = "95C2954A8F2B2CAE9C95EE419D2B149CC6CF87556AE27F070BB842857D5F6A74" ∧
      ((result.transaction.erase Fields.txnSignature).erase Fields.signers).toBytes =
        .ok (settingsBytes [0x73, 0x00]) ∧
      result.signingHash = sha512Half ([0x53, 0x4D, 0x54, 0x00] ++ settingsBytes [0x73, 0x00] ++
        List.replicate 19 0x00 ++ [0x01]) ∧
      result.signingHash.toHex =
        "99658C517B8A810EE13FFE286B420389278BF6030B87BA17AB68679748033F2C" := by
  have registered : ∀ entry ∈ accountSettings, entry.1.Registered := by decide +kernel
  constructor
  · obtain ⟨result, prepared⟩ := exists_prepare_constantSigner accountSettings none
      (by decide +kernel) (by decide +kernel) (by decide +kernel)
    have sent : result.transaction.toBytes =
        .ok (settingsBytes [0x73, 0x02, 0xED, 0x01, 0x74, 0x01, 0x02]) := by
      rw [transaction_of_constantSigner prepared]
      decide +kernel
    have unsigned : ((result.transaction.erase Fields.txnSignature).erase Fields.signers).toBytes =
        .ok (settingsBytes [0x73, 0x02, 0xED, 0x01]) := by
      rw [transaction_of_constantSigner prepared]
      decide +kernel
    obtain ⟨_, _, _, _, _, _, _, whole, digits, identified, stripped, hashed⟩ :=
      prepare_signs_what_is_sent accountSettings tenDrops 7 constantSigner none result registered
        prepared
    cases sent.symm.trans whole
    cases unsigned.symm.trans stripped
    refine ⟨result, prepared, rfl, ?_, identified, ?_, unsigned, hashed, ?_⟩
    · rw [digits]
      decide +kernel
    · rw [identified]
      decide +kernel
    · rw [hashed]
      decide +kernel
  · obtain ⟨result, prepared⟩ := exists_prepare_accountSettings
    have sent : result.transaction.toBytes = .ok (settingsBytes [0x73, 0x00] ++
        [0xF3, 0xE0, 0x10, 0x73, 0x02, 0xED, 0x01, 0x74, 0x01, 0x02, 0x81, 0x14] ++
        List.replicate 19 0x00 ++ [0x01, 0xE1, 0xF1]) := by
      rw [transaction_of_constantSigner prepared]
      decide +kernel
    have unsigned : ((result.transaction.erase Fields.txnSignature).erase Fields.signers).toBytes =
        .ok (settingsBytes [0x73, 0x00]) := by
      rw [transaction_of_constantSigner prepared]
      decide +kernel
    obtain ⟨_, _, _, _, _, _, _, whole, digits, identified, stripped, hashed⟩ :=
      prepare_signs_what_is_sent accountSettings tenDrops 7 constantSigner (some Account.one) result
        registered prepared
    cases sent.symm.trans whole
    cases unsigned.symm.trans stripped
    refine ⟨result, prepared, rfl, ?_, ?_, ?_, unsigned, ?_, ?_⟩
    · rw [digits]
      decide +kernel
    · rw [identified]
      rfl
    · rw [identified]
      decide +kernel
    · rw [hashed]
      rfl
    · rw [hashed]
      decide +kernel

end LedgerWire.Transaction
