import LedgerWire.Account.Basic
import LedgerWire.Proofs.Success
import LedgerWire.Proofs.Text.Base58
import LedgerWire.Proofs.Wire.Reading

namespace LedgerWire.Account

open Text

/-!
Addresses read back. A text is read as an account exactly when it is the account's address: it
decodes to the version, the account's bytes and a checksum of both, and only one text decodes to
them. Of the digest behind the checksum nothing is used but its width, so that the digest is a
variable here.
-/

section Digest

variable (digest : Bytes → Octets 32)

/-- The checksum of a payload under a digest. -/
def checksumUnder (payload : Bytes) : Bytes :=
  (digest (digest payload).toList).toList.take 4

def addressUnder (account : Account) : String :=
  let payload := addressVersion :: account.toBytes
  Base58.encode (payload ++ checksumUnder digest payload)

def checkedPayloadUnder (text : String) : Except AddressCause Bytes :=
  match Base58.decode? text with
  | none => .error .invalidDigit
  | some bytes =>
    if bytes.length < 5 then .error .tooShort
    else
      let payload := bytes.take (bytes.length - 4)
      if checksumUnder digest payload = bytes.drop (bytes.length - 4) then .ok payload
      else .error .checksumMismatch

def parseUnder (address : String) : Except ValueError Account :=
  match checkedPayloadUnder digest address >>= ofPayload with
  | .ok account => .ok account
  | .error cause => .error (.malformedAddress address cause)

variable {digest : Bytes → Octets 32} {text : String} {payload : Bytes} {account : Account}

theorem length_checksumUnder (digest : Bytes → Octets 32) (payload : Bytes) :
    (checksumUnder digest payload).length = 4 := by
  rw [checksumUnder, List.length_take, (digest _).length_toList]
  rfl

/-- A payload is taken from a text that encodes it together with its checksum. -/
theorem checkedPayloadUnder_eq_ok_iff :
    checkedPayloadUnder digest text = .ok payload ↔
      payload ≠ [] ∧ Base58.encode (payload ++ checksumUnder digest payload) = text := by
  constructor
  · intro checked
    unfold checkedPayloadUnder at checked
    split at checked
    · contradiction
    · rename_i bytes decoded
      split at checked
      · contradiction
      · rename_i long
        simp only at checked
        split at checked
        · rename_i sum
          cases checked
          constructor
          · intro empty
            have length := congrArg List.length empty
            rw [List.length_take, List.length_nil] at length
            omega
          · rw [sum, List.take_append_drop]
            exact Base58.decode?_eq_some_iff.mp decoded
        · contradiction
  · rintro ⟨nonempty, rfl⟩
    have sum := length_checksumUnder digest payload
    have positive := List.length_pos_iff.mpr nonempty
    have whole : (payload ++ checksumUnder digest payload).length - 4 = payload.length := by
      rw [List.length_append, sum, Nat.add_sub_cancel]
    simp only [checkedPayloadUnder, Base58.decode?_encode, whole, List.take_left, List.drop_left]
    rw [if_neg (by rw [List.length_append]; omega), if_pos trivial]

theorem ofPayload_eq_ok_iff :
    ofPayload payload = .ok account ↔ payload = addressVersion :: account.toBytes := by
  constructor
  · intro built
    unfold ofPayload at built
    split at built
    · contradiction
    · rename_i version body
      split at built
      · contradiction
      · rename_i current
        split at built
        · rename_i octets found
          cases built
          rw [not_not.mp current, toBytes, Octets.toList_of_ofBytes? found]
        · contradiction
  · rintro rfl
    have octets : Octets.ofBytes? 20 account.toBytes = some account.octets := by
      rw [toBytes, Octets.ofBytes?_toList]
    simp [ofPayload, octets]

theorem parseUnder_eq_ok_iff :
    parseUnder digest text = .ok account ↔ account.addressUnder digest = text := by
  have read : parseUnder digest text = .ok account ↔
      (checkedPayloadUnder digest text >>= ofPayload) = .ok account := by
    unfold parseUnder
    cases checkedPayloadUnder digest text >>= ofPayload <;> simp
  rw [read, bind_eq_ok]
  constructor
  · rintro ⟨payload, checked, built⟩
    rw [ofPayload_eq_ok_iff.mp built] at checked
    exact (checkedPayloadUnder_eq_ok_iff.mp checked).2
  · intro spelled
    refine ⟨_, checkedPayloadUnder_eq_ok_iff.mpr ⟨?_, spelled⟩, ofPayload_eq_ok_iff.mpr rfl⟩
    exact List.cons_ne_nil _ _

end Digest

theorem toAddress_eq : toAddress = addressUnder Sha256.digest := rfl

theorem parse_eq : parse = parseUnder Sha256.digest := rfl

theorem parse_toAddress (account : Account) : parse account.toAddress = .ok account := by
  rw [parse_eq, toAddress_eq]
  exact parseUnder_eq_ok_iff.mpr rfl

/-- Accounts and accepted texts correspond one to one: a text is read as an account exactly when it
is the account's address. Any other digest in the place of SHA-256 would do as well. -/
theorem read_from_own_address (text : String) (account : Account) :
    (parse text = .ok account ↔ account.toAddress = text) ∧
      ∀ digest : Bytes → Octets 32,
        parseUnder digest text = .ok account ↔ account.addressUnder digest = text := by
  refine ⟨?_, fun digest => parseUnder_eq_ok_iff⟩
  rw [parse_eq, toAddress_eq]
  exact parseUnder_eq_ok_iff

example : one.toAddress = "rrrrrrrrrrrrrrrrrrrrBZbvji" := by decide +kernel

end LedgerWire.Account
