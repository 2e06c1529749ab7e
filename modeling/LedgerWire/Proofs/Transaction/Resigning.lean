import LedgerWire.Proofs.Transaction.Checking

namespace LedgerWire.Transaction

/-!
Signing again. What an earlier signing left behind, and whatever else stands in the fields that
signing replaces, has no influence: transactions that agree on all other fields are signed alike or
refused alike. So a signed transaction may be signed again, in the same way with the same result or
in another way as if it had never been signed.
-/

variable {left right transaction : Object} {fee : Amount} {sequence : UInt32} {publicKey : Bytes}
  {signer : Signer} {signingFor : Option Account} {result : SignedTransaction}

section Congruence

variable (agree : Agree left right)
include agree

theorem checkSignable_congr (fee : Amount) : checkSignable left fee = checkSignable right fee := by
  have known : Fields.account.Registered := registered_of_required (account_required .payment)
  have account : left.contains Fields.account = right.contains Fields.account := by
    rw [Object.contains_eq_isSome, Object.contains_eq_isSome, agree _ known kept_account]
  rw [checkSignable, checkSignable, checkForSigning_congr agree, account]

variable (leftAscending : left.Ascending) (rightAscending : right.Ascending)
  (leftRegistered : ∀ entry ∈ left, entry.1.Registered)
  (rightRegistered : ∀ entry ∈ right, entry.1.Registered)
include leftAscending rightAscending leftRegistered rightRegistered

/-- Filled in, transactions that agree are the same. -/
theorem filledWith_congr :
    filledWith left fee sequence publicKey signingFor =
      filledWith right fee sequence publicKey signingFor :=
  (ascending_filledWith leftAscending).eq_of_get? (ascending_filledWith rightAscending)
    (registered_filledWith leftRegistered) (registered_filledWith rightRegistered)
    fun _ known => get?_filledWith_congr agree known

theorem prepare_congr :
    prepare left fee sequence signer signingFor = prepare right fee sequence signer signingFor := by
  have filled : filledWith left fee sequence signer.publicKey signingFor =
      filledWith right fee sequence signer.publicKey signingFor :=
    filledWith_congr agree leftAscending rightAscending leftRegistered rightRegistered
  rw [prepare, prepare, checkSignable_congr agree, fill_eq, fill_eq, filled]

end Congruence

section Signed

variable (prepared : prepare transaction fee sequence signer signingFor = .ok result)
include prepared

theorem exists_signature :
    ∃ signature, result.transaction =
      (filledWith transaction fee sequence signer.publicKey signingFor).place
        (signatureEntry signer.publicKey signature signingFor).1
        (signatureEntry signer.publicKey signature signingFor).2 := by
  obtain ⟨_, _, signature, _, _, _, _, attached, _⟩ := prepare_eq_ok prepared
  exact ⟨signature, attached⟩

theorem agree_signed : Agree result.transaction transaction := by
  obtain ⟨signature, attached⟩ := exists_signature prepared
  intro field _ kept
  rw [attached, get?_signed_of_kept kept]

theorem ascending_signed (ascending : transaction.Ascending) : result.transaction.Ascending := by
  obtain ⟨signature, attached⟩ := exists_signature prepared
  rw [attached]
  exact (ascending_filledWith ascending).place _ _

theorem registered_signed (registered : ∀ entry ∈ transaction, entry.1.Registered) :
    ∀ entry ∈ result.transaction, entry.1.Registered := by
  obtain ⟨signature, attached⟩ := exists_signature prepared
  rw [attached]
  exact Object.forall_place (registered_filledWith registered)
    (signatureEntry_registered signer.publicKey signature signingFor)

end Signed

/-- Signing does not depend on what it replaces, so it may be repeated: a signed transaction is
signed as the transaction that it came from is. -/
theorem prepare_ignores_replaced (left right : Object) (fee : Amount) (sequence : UInt32)
    (signer : Signer) (signingFor : Option Account)
    (leftAscending : left.Ascending) (rightAscending : right.Ascending)
    (leftRegistered : ∀ entry ∈ left, entry.1.Registered)
    (rightRegistered : ∀ entry ∈ right, entry.1.Registered)
    (agree : ∀ field : Field, field.Registered →
      (∀ replaced ∈ [Fields.fee, Fields.sequence, Fields.signingPubKey, Fields.txnSignature,
        Fields.signers], replaced.key ≠ field.key) → left.get? field = right.get? field) :
    prepare left fee sequence signer signingFor = prepare right fee sequence signer signingFor ∧
    ∀ result, prepare left fee sequence signer signingFor = .ok result →
      prepare result.transaction fee sequence signer signingFor = .ok result ∧
      ∀ other, prepare result.transaction fee sequence signer other =
        prepare left fee sequence signer other := by
  refine ⟨prepare_congr agree leftAscending rightAscending leftRegistered rightRegistered, ?_⟩
  intro result prepared
  have again (other : Option Account) :
      prepare result.transaction fee sequence signer other =
        prepare left fee sequence signer other :=
    prepare_congr (agree_signed prepared) (ascending_signed prepared leftAscending) leftAscending
      (registered_signed prepared leftRegistered) leftRegistered
  exact ⟨(again signingFor).trans prepared, again⟩

/-- An account's settings with a fee, a sequence, a key and signers of an earlier signing. -/
def staleSettings : Object :=
  [(Fields.transactionType, .uint16 3), (Fields.sequence, .uint32 99), (Fields.fee, .amount tenDrops),
    (Fields.signingPubKey, .blob [1]), (Fields.account, .account Account.one),
    (Fields.signers, .array [])]

theorem agree_staleSettings : Agree staleSettings accountSettings := by
  intro field _ kept
  obtain ⟨notFee, notSequence, notKey, notSignature, notSigners⟩ := kept_iff.mp kept
  simp only [staleSettings, accountSettings, Object.get?_cons, Object.get?_nil, if_neg notFee,
    if_neg notSequence, if_neg notKey, if_neg notSignature, if_neg notSigners]

theorem prepare_ignores_replaced_staleSettings :
    ∃ result,
      prepare staleSettings tenDrops 7 constantSigner (some Account.one) = .ok result ∧
      prepare result.transaction tenDrops 7 constantSigner (some Account.one) = .ok result ∧
      prepare result.transaction tenDrops 7 constantSigner none =
        prepare staleSettings tenDrops 7 constantSigner none := by
  obtain ⟨same, repeated⟩ := prepare_ignores_replaced staleSettings accountSettings tenDrops 7
    constantSigner (some Account.one) (by decide +kernel) (by decide +kernel) (by decide +kernel)
    (by decide +kernel) agree_staleSettings
  obtain ⟨result, prepared⟩ := exists_prepare_accountSettings
  have again := same.trans prepared
  obtain ⟨unchanged, others⟩ := repeated result again
  exact ⟨result, again, unchanged, others none⟩

end LedgerWire.Transaction
