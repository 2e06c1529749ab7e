import LedgerWire.Proofs.Object.Entered
import LedgerWire.Proofs.Object.Nesting
import LedgerWire.Proofs.Transaction.Binding

namespace LedgerWire

open Reader

/-!
What is sent can be read. A transaction that was entered, and that names no end marker, stays one
whose bytes delimit themselves when it is filled in and signed; so its blob is read back as what the
wire keeps of it, unless it nests deeper than readers go. An end marker among its fields is signed
like any other field, and the blob is refused where the marker stands.
-/

namespace Object

/-- Entered objects without end markers are framed at every level. -/
theorem Entered.framed {object : Object} (entered : object.Entered)
    (unmarked : object.All fun field _ => field.isMarker = false) :
    object.All Value.Framed := by
  have known := (entered.made.stored.and entered.registered).and (unmarked.and entered.wrapping)
  exact known.mono fun _ _ ⟨⟨stored, registered⟩, notMarker, wrapping⟩ =>
    ⟨stored, registered, notMarker, wrapping⟩

/-- Framed objects can be entered. -/
theorem entered_of_framed {object : Object} (ascending : object.Ascending)
    (framed : object.All Value.Framed) : object.Entered where
  made := made_of_stored ascending (framed.mono fun _ _ entry => entry.toStored)
    (framed.mono fun _ _ entry => entry.wrapped)
  registered := framed.mono fun _ _ entry => entry.registered
  wrapping := framed.mono fun _ _ entry => entry.wrapped

theorem All.placeFramed {object : Object} {field : Field} {value : Value}
    (all : object.All Value.Framed) (here : value.Framed field)
    (inside : value.All Value.Framed) : (object.place field value).All Value.Framed :=
  all.place here inside fun _ _ known same =>
    known.registered.eq_of_key here.registered same ▸ here

section Markers

variable {field : Field} {levels : Nat} {done : Object}

/-- The header of an end marker is refused where readers expect no end. -/
theorem refuses_marker {atEnd : Option DecodeError} {isEnd : UInt8 → Bool}
    (never : ∀ byte, isEnd byte = false) (registered : field.Registered)
    (marker : field.isMarker = true) (bytes : Bytes) :
    Refuses (Reader.fold atEnd isEnd (readField (Value.readBelow levels)) done)
      (field.header ++ bytes) (.malformedEncoding .strayEndMarker) := by
  have serialized := registered.isSerialized_of_marker marker
  obtain ⟨first, more, split⟩ :=
    List.exists_cons_of_ne_nil (Framing.header_ne_nil field.type.code field.code)
  change field.header = first :: more at split
  simp only [Field.isMarker] at marker
  rw [split]
  refine Refuses.fold (never first) ?_
  refine (Field.reads_header registered serialized split).bindRefuses ?_
  rw [marker]
  exact Refuses.fail _ _

/-- An end marker behind fields that delimit themselves is written, and refused when it is read. -/
theorem ofBytes_of_marker {front back : Object} {value : Value} {bytes : Bytes}
    (ascending : front.Ascending) (framed : front.All Value.Framed)
    (nesting : front.depth ≤ Limits.maximumDepth) (registered : field.Registered)
    (marker : field.isMarker = true)
    (written : Object.write .all (front ++ (field, value) :: back) = .ok bytes) :
    Object.ofBytes bytes = .error (.malformedEncoding .strayEndMarker) := by
  obtain ⟨before, _, frontWritten, markerWritten, rfl⟩ := write_append written
  have admitted : FieldFilter.admits .all field = true := registered.isSerialized_of_marker marker
  rw [Object.write, if_pos admitted] at markerWritten
  obtain ⟨_, after, entryWritten, _, rfl⟩ := Output.append_eq_ok.mp markerWritten
  obtain ⟨header, inside, headerWritten, _, rfl⟩ := Output.append_eq_ok.mp entryWritten
  rw [← Output.ok_inj.mp headerWritten, List.append_assoc field.header]
  have folds := readsBack_levels.fields front none _ Limits.maximumDepth [] before
    (fun _ _ => rfl) framed ascending (List.forall_mem_nil _) nesting frontWritten
  exact (folds.refuses (refuses_marker (fun _ => rfl) registered marker _)).decode

end Markers

end Object

/-- The keys of end markers are above all that signing fills in, but below that of the signers. -/
theorem Field.key_of_marker {field : Field} (marker : field.isMarker = true) :
    Fields.txnSignature.key < field.key ∧ field.key < Fields.signers.key := by
  rcases (Bool.or_eq_true _ _).mp marker with isEnd | isEnd
  · rw [same_iff.mp isEnd]
    decide
  · rw [same_iff.mp isEnd]
    decide

namespace Transaction

variable {transaction : Object} {fee : Amount} {sequence : UInt32} {publicKey signature : Bytes}
  {signingFor : Option Account} {signer : Signer} {result : SignedTransaction}

theorem framed_signingPubKey (key : Bytes) : (Value.blob key).Framed Fields.signingPubKey :=
  (shaped_signingPubKey key).toFramed

theorem framed_filledWith (framed : transaction.All Value.Framed) (built : fee.Built)
    (isNative : fee.isNative = true) :
    (filledWith transaction fee sequence publicKey signingFor).All Value.Framed := by
  have withFee := framed.placeFramed (shaped_fee built isNative).toFramed trivial
  have withSequence := withFee.placeFramed (shaped_sequence sequence).toFramed trivial
  have withKey := withSequence.placeFramed
    (framed_signingPubKey (if signingFor.isSome then [] else publicKey)) trivial
  exact (withKey.erase Fields.txnSignature).erase Fields.signers

theorem framed_txnSignature (signature : Bytes) :
    (Value.blob signature).Framed Fields.txnSignature :=
  (Value.shaped_of_isAtom rfl (fits_txnSignature signature)
    (Fields.registered_of_mem (by simp [Fields.all])) (by decide)).toFramed

theorem framed_account (account : Account) : (Value.account account).Framed Fields.account :=
  (Value.shaped_of_isAtom rfl (fits_account account)
    (Fields.registered_of_mem (by simp [Fields.all])) (by decide)).toFramed

theorem ascending_signerFieldsOf (account : Account) (publicKey signature : Bytes) :
    (signerFieldsOf account publicKey signature).Ascending := by
  have keyFirst : Fields.signingPubKey.key < Fields.txnSignature.key := by decide
  have signatureSecond : Fields.txnSignature.key < Fields.account.key := by decide
  have keyBefore := Nat.lt_trans keyFirst signatureSecond
  simp [signerFieldsOf, Object.Ascending, keyFirst, signatureSecond, keyBefore]

theorem framed_signer (account : Account) (publicKey signature : Bytes) :
    (Value.object (signerFieldsOf account publicKey signature)).Framed Fields.signer where
  fits := fits_signer _
  ascending fields same := by
    cases same
    exact ascending_signerFieldsOf account publicKey signature
  built := nofun
  registered := Fields.registered_of_mem (by simp [Fields.all])
  notMarker := by decide
  wrapped := nofun

theorem framed_signers {wrapper : Field} {inner : Object} :
    (Value.array [[(wrapper, .object inner)]]).Framed Fields.signers where
  fits := fits_signers _
  ascending := nofun
  built := nofun
  registered := Fields.registered_of_mem (by simp [Fields.all])
  notMarker := by decide
  wrapped elements same element member := by
    cases same
    exact ⟨wrapper, inner, List.mem_singleton.mp member⟩

/-- The field that a signature is added in is framed, and so is everything inside it. -/
theorem framed_signatureEntry (publicKey signature : Bytes) (signingFor : Option Account) :
    (signatureEntry publicKey signature signingFor).2.Framed
        (signatureEntry publicKey signature signingFor).1 ∧
      (signatureEntry publicKey signature signingFor).2.All Value.Framed := by
  cases signingFor with
  | none => exact ⟨framed_txnSignature signature, trivial⟩
  | some account =>
      have fields : Object.All Value.Framed (signerFieldsOf account publicKey signature) :=
        ⟨framed_signingPubKey publicKey, trivial, framed_txnSignature signature, trivial,
          framed_account account, trivial, trivial⟩
      exact ⟨framed_signers, ⟨framed_signer account publicKey signature, fields, trivial⟩, trivial⟩

/-- What is read of the blob of a framed transaction. -/
theorem ofHex_blob (ascending : transaction.Ascending) (framed : transaction.All Value.Framed)
    (built : fee.Built)
    (prepared : prepare transaction fee sequence signer signingFor = .ok result) :
    Object.ofHex result.blob =
      if result.transaction.depth ≤ Limits.maximumDepth then
        .ok result.transaction.condensed.pruned.settled
      else .error .nestingTooDeep := by
  obtain ⟨checked, _, signature, blob, _, _, _, attached, sent, hexadecimal, _⟩ :=
    prepare_eq_ok prepared
  obtain ⟨entryFramed, entryInside⟩ := framed_signatureEntry signer.publicKey signature signingFor
  have filledFramed : (filledWith transaction fee sequence signer.publicKey signingFor).All
      Value.Framed :=
    framed_filledWith framed built (isNative_of_checkSignable checked)
  have signedFramed := filledFramed.placeFramed entryFramed entryInside
  have signedAscending : result.transaction.Ascending := by
    rw [attached]
    exact (ascending_filledWith ascending).place _ _
  rw [← attached] at signedFramed
  rw [hexadecimal, Object.ofHex_encode]
  exact Object.ofBytes_of_framed signedAscending signedFramed (Output.toExcept_eq_ok.mp sent)

/-- Whatever is signed is read back as what the wire keeps of it, unless it nests too deep. -/
theorem prepare_emits_readable (transaction : Object) (fee : Amount) (sequence : UInt32)
    (signer : Signer) (signingFor : Option Account) (result : SignedTransaction)
    (entered : transaction.Entered ∨ ∃ json, Object.ofJson json = .ok transaction)
    (unmarked : transaction.All fun field _ => field.isMarker = false) (built : fee.Built)
    (prepared : prepare transaction fee sequence signer signingFor = .ok result) :
    Object.ofHex result.blob =
      if result.transaction.depth ≤ Limits.maximumDepth then
        .ok result.transaction.condensed.pruned.settled
      else .error .nestingTooDeep := by
  have whole : transaction.Entered := by
    rcases entered with direct | ⟨json, read⟩
    · exact direct
    · exact Object.entered_ofJson read
  exact ofHex_blob whole.made.ascending (whole.framed unmarked) built prepared

theorem built_tenDrops : tenDrops.Built :=
  @Amount.Built.drops .primary 10 _ (by decide +kernel)

theorem framed_accountSettings : accountSettings.All Value.Framed :=
  shaped_accountSettings.entries.mono fun _ _ entry => entry.toFramed

theorem prepare_emits_readable_accountSettings :
    ∃ result, prepare accountSettings tenDrops 7 constantSigner (some Account.one) = .ok result ∧
      Object.ofHex result.blob = .ok result.transaction.condensed.pruned.settled := by
  obtain ⟨result, prepared⟩ := exists_prepare_accountSettings
  have entered := Object.entered_of_framed shaped_accountSettings.ascending framed_accountSettings
  have unmarked := framed_accountSettings.mono fun _ _ entry => entry.notMarker
  have read := prepare_emits_readable accountSettings tenDrops 7 constantSigner (some Account.one)
    result (Or.inl entered) unmarked built_tenDrops prepared
  have shallow : result.transaction.depth ≤ Limits.maximumDepth := by
    rw [transaction_of_constantSigner prepared]
    decide +kernel
  rw [if_pos shallow] at read
  exact ⟨result, prepared, read⟩

section Marked

variable {front back : Object} {field : Field} {value : Value}

theorem filledWith_append (above : ∀ entry ∈ back, Fields.txnSignature.key < entry.1.key) :
    filledWith (front ++ back) fee sequence publicKey signingFor =
      filledWith front fee sequence publicKey signingFor ++ back.erase Fields.signers := by
  have beyond {field : Field} (below : field.key ≤ Fields.txnSignature.key) :
      ∀ entry ∈ back, field.key < entry.1.key := fun entry member =>
    Nat.lt_of_le_of_lt below (above entry member)
  have unsigned : back.erase Fields.txnSignature = back :=
    Object.erase_of_absent fun entry member => Nat.ne_of_gt (above entry member)
  simp only [filledWith]
  rw [Object.place_append_of_above (beyond (by decide)),
    Object.place_append_of_above (beyond (by decide)),
    Object.place_append_of_above (beyond (by decide))]
  simp only [Object.erase, List.filter_append] at unsigned ⊢
  rw [unsigned]

theorem depth_filledWith_le {bound : Nat} (shallow : transaction.depth ≤ bound) :
    (filledWith transaction fee sequence publicKey signingFor).depth ≤ bound := by
  have withFee := @Object.depth_place_le _ Fields.fee (.amount fee) _ shallow (Nat.zero_le _)
  have withSequence := @Object.depth_place_le _ Fields.sequence (.uint32 sequence) _ withFee
    (Nat.zero_le _)
  have withKey := @Object.depth_place_le _ Fields.signingPubKey
    (.blob (if signingFor.isSome then [] else publicKey)) _ withSequence (Nat.zero_le _)
  exact (Object.depth_erase_le _ _).trans ((Object.depth_erase_le _ _).trans withKey)

/-- A transaction with an end marker keeps it when it is signed, behind fields that delimit
themselves. -/
theorem exists_signed_marked (ascending : Object.Ascending (front ++ (field, value) :: back))
    (framed : front.All Value.Framed) (nesting : front.depth ≤ Limits.maximumDepth)
    (marker : field.isMarker = true) (built : fee.Built) (isNative : fee.isNative = true) :
    ∃ before after, before.Ascending ∧ before.All Value.Framed ∧
      before.depth ≤ Limits.maximumDepth ∧
      (filledWith (front ++ (field, value) :: back) fee sequence publicKey signingFor).place
          (signatureEntry publicKey signature signingFor).1
          (signatureEntry publicKey signature signingFor).2 =
        before ++ (field, value) :: after := by
  obtain ⟨beyond, within⟩ := Field.key_of_marker marker
  obtain ⟨frontAscending, tailAscending, apart⟩ := List.pairwise_append.mp ascending
  have behind := (List.pairwise_cons.mp tailAscending).1
  have above : ∀ entry ∈ (field, value) :: back, Fields.txnSignature.key < entry.1.key :=
    List.forall_mem_cons.mpr ⟨beyond, fun entry member => beyond.trans (behind entry member)⟩
  have kept : Object.erase ((field, value) :: back) Fields.signers =
      (field, value) :: Object.erase back Fields.signers :=
    List.filter_cons_of_pos (by simp [Field.same, Nat.ne_of_lt within])
  have filledAscending := @ascending_filledWith _ fee sequence publicKey signingFor frontAscending
  have filledFramed := @framed_filledWith _ _ sequence publicKey signingFor framed built isNative
  have filledNesting := @depth_filledWith_le _ fee sequence publicKey signingFor _ nesting
  rw [filledWith_append above, kept]
  -- A signature by itself is placed before the marker, a list of signers behind it.
  cases signingFor with
  | none =>
      refine ⟨_, Object.erase back Fields.signers,
        filledAscending.place Fields.txnSignature (.blob signature),
        filledFramed.placeFramed (framed_txnSignature signature) trivial,
        Object.depth_place_le filledNesting (Nat.zero_le _), ?_⟩
      rw [← kept]
      exact Object.place_append_of_above fun entry member =>
        above entry (Object.mem_erase.mp member).1
  | some account =>
      have below : ∀ entry ∈ filledWith front fee sequence publicKey (some account),
          entry.1.key < Fields.signers.key :=
        @forall_filledWith _ _ _ _ _ (fun field => field.key < Fields.signers.key)
          (fun entry member =>
            (apart entry member (field, value) List.mem_cons_self).trans within)
          (by decide) (by decide) (by decide)
      rw [signatureEntry, Object.place_append_of_below below, Object.place,
        if_neg (Nat.lt_asymm within), if_neg (Nat.ne_of_gt within)]
      exact ⟨_, _, filledAscending, filledFramed, filledNesting, rfl⟩

/-- However it is signed, the blob of a transaction with an end marker is refused. -/
theorem ofHex_marked (ascending : Object.Ascending (front ++ (field, value) :: back))
    (framed : front.All Value.Framed) (nesting : front.depth ≤ Limits.maximumDepth)
    (registered : field.Registered) (marker : field.isMarker = true) (built : fee.Built)
    (prepared : prepare (front ++ (field, value) :: back) fee sequence signer signingFor =
      .ok result) :
    Object.ofHex result.blob = .error (.malformedEncoding .strayEndMarker) := by
  obtain ⟨checked, _, signature, blob, _, _, _, attached, sent, hexadecimal, _⟩ :=
    prepare_eq_ok prepared
  obtain ⟨before, after, beforeAscending, beforeFramed, shallow, split⟩ :=
    exists_signed_marked ascending framed nesting marker built (isNative_of_checkSignable checked)
  rw [attached, split] at sent
  rw [hexadecimal, Object.ofHex_encode]
  exact Object.ofBytes_of_marker beforeAscending beforeFramed shallow registered marker
    (Output.toExcept_eq_ok.mp sent)

end Marked

section Unreadable

/-- The field that holds a transaction's effects. -/
def metadata : Field := ⟨"TransactionMetaData", .object, 2, true⟩

/-- Objects inside each other. -/
def nested : Nat → Object
  | 0 => []
  | levels + 1 => [(metadata, .object (nested levels))]

def deepSettings : Object :=
  accountSettings ++ [(metadata, .object (nested 64))]

def pathlessSettings : Object :=
  accountSettings ++ [(Fields.paths, .pathSet [[]])]

/-- Settings with an empty object where readers look for an end. -/
def markedSettings : Object :=
  accountSettings ++ [(Fields.objectEndMarker, .object [])]

theorem ascending_nested (levels : Nat) : (nested levels).Ascending := by
  cases levels with
  | zero => exact List.Pairwise.nil
  | succ levels => exact List.pairwise_singleton _ _

theorem framed_metadata (levels : Nat) : (Value.object (nested levels)).Framed metadata where
  fits := fits_of_codec .object (by decide) rfl
  ascending fields same := by
    cases same
    exact ascending_nested levels
  built := nofun
  registered := by decide +kernel
  notMarker := by decide
  wrapped := nofun

theorem framed_nested (levels : Nat) : (nested levels).All Value.Framed := by
  induction levels with
  | zero => trivial
  | succ levels ih => exact ⟨framed_metadata levels, ih, trivial⟩

theorem framed_deepSettings : deepSettings.All Value.Framed :=
  framed_accountSettings.snoc (framed_metadata 64) (framed_nested 64)

theorem framed_pathlessSettings : pathlessSettings.All Value.Framed := by
  have paths : (Value.pathSet [[]]).Framed Fields.paths :=
    ⟨⟨by decide, nofun, nofun⟩, Fields.registered_of_mem (by simp [Fields.all]), by decide, nofun⟩
  exact framed_accountSettings.snoc paths trivial

theorem entered_markedSettings : markedSettings.Entered := by
  have settings := Object.entered_of_framed shaped_accountSettings.ascending framed_accountSettings
  have set : Object.set accountSettings Fields.objectEndMarker (.object []) =
      .ok markedSettings := by
    rw [Object.set_of_fits (fits_of_codec .object (by decide) rfl), Object.place_last (by decide)]
    rfl
  exact settings.set (by decide +kernel) Object.Entered.empty.value set

/-- Settings that nest too deep are signed and cannot be read, nor can settings with an end marker,
and an empty path is signed and lost. -/
theorem prepare_signs_unreadable :
    (deepSettings.Entered ∧ ∃ result,
      prepare deepSettings tenDrops 7 constantSigner (some Account.one) = .ok result ∧
      Object.ofHex result.blob = .error .nestingTooDeep) ∧
    (markedSettings.Entered ∧ ∃ result,
      prepare markedSettings tenDrops 7 constantSigner (some Account.one) = .ok result ∧
      Object.ofHex result.blob = .error (.malformedEncoding .strayEndMarker)) ∧
    pathlessSettings.Entered ∧ ∃ result read,
      prepare pathlessSettings tenDrops 7 constantSigner (some Account.one) = .ok result ∧
      Object.ofHex result.blob = .ok read ∧
      Object.same read result.transaction.pruned.settled = false := by
  have deepAscending : deepSettings.Ascending := by decide
  have markedAscending : markedSettings.Ascending := by decide
  have pathlessAscending : pathlessSettings.Ascending := by decide
  refine ⟨⟨Object.entered_of_framed deepAscending framed_deepSettings, ?_⟩,
    ⟨entered_markedSettings, ?_⟩,
    Object.entered_of_framed pathlessAscending framed_pathlessSettings, ?_⟩
  · obtain ⟨result, prepared⟩ := exists_prepare_constantSigner deepSettings (some Account.one)
      (by decide +kernel) (by decide +kernel) (by decide +kernel)
    have deep : ¬ result.transaction.depth ≤ Limits.maximumDepth := by
      rw [transaction_of_constantSigner prepared]
      decide +kernel
    have read := ofHex_blob deepAscending framed_deepSettings built_tenDrops prepared
    rw [if_neg deep] at read
    exact ⟨result, prepared, read⟩
  · obtain ⟨result, prepared⟩ := exists_prepare_constantSigner markedSettings (some Account.one)
      (by decide +kernel) (by decide +kernel) (by decide +kernel)
    have read := ofHex_marked markedAscending framed_accountSettings (by decide +kernel)
      (by decide +kernel) (by decide) built_tenDrops prepared
    exact ⟨result, prepared, read⟩
  · obtain ⟨result, prepared⟩ := exists_prepare_constantSigner pathlessSettings (some Account.one)
      (by decide +kernel) (by decide +kernel) (by decide +kernel)
    have shallow : result.transaction.depth ≤ Limits.maximumDepth := by
      rw [transaction_of_constantSigner prepared]
      decide +kernel
    have read := ofHex_blob pathlessAscending framed_pathlessSettings built_tenDrops prepared
    rw [if_pos shallow] at read
    refine ⟨result, _, prepared, read, ?_⟩
    rw [transaction_of_constantSigner prepared]
    decide +kernel

end Unreadable

end Transaction

end LedgerWire
