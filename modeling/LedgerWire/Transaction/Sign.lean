import LedgerWire.Object.Wire
import LedgerWire.Transaction.Check

namespace LedgerWire

/-!
Signing. A transaction's fee, sequence and public key are filled in, its signatures are dropped,
and a digest of what remains is signed. Each kind of digest has a prefix of its own, and a
signature on behalf of an account also covers that account.
-/

/-- What signs: a public key and a signature for every digest. -/
structure Signer where
  publicKey : Bytes
  sign : Hash 32 → Except String Bytes

structure SignedTransaction where
  transaction : Object
  /-- The wire form in hexadecimal. -/
  blob : String
  hash : Hash 32
  /-- The digest that was signed. -/
  signingHash : Hash 32

namespace Transaction

/-- `STX` and NUL, before what one signer signs. -/
def singlePrefix : Bytes := [0x53, 0x54, 0x58, 0x00]

/-- `SMT` and NUL, before what one of several signers signs. -/
def multiplePrefix : Bytes := [0x53, 0x4D, 0x54, 0x00]

/-- `TXN` and NUL, before the wire form that identifies a transaction. -/
def identifierPrefix : Bytes := [0x54, 0x58, 0x4E, 0x00]

/-- What is digested for a signature, on behalf of an account if one is given. -/
def signingPreimage (signingBytes : Bytes) (signingFor : Option Account) : Bytes :=
  match signingFor with
  | none => singlePrefix ++ signingBytes
  | some account => multiplePrefix ++ signingBytes ++ account.toBytes

/-- What is digested for a transaction's identifier. -/
def identifierPreimage (blob : Bytes) : Bytes :=
  identifierPrefix ++ blob

/-- Fills in fee, sequence and public key, and drops signatures. The key is left empty in a
signature on behalf of an account. -/
def fill (transaction : Object) (fee : Amount) (sequence : UInt32) (publicKey : Bytes)
    (signingFor : Option Account) : Except ValueError Object := do
  let withFee ← Object.set transaction Fields.fee (.amount fee)
  let withSequence ← Object.set withFee Fields.sequence (.uint32 sequence)
  let withKey ← Object.set withSequence Fields.signingPubKey
    (.blob (if signingFor.isSome then [] else publicKey))
  pure ((Object.erase withKey Fields.txnSignature).erase Fields.signers)

def signerEntry (account : Account) (publicKey signature : Bytes) : Except ValueError Object := do
  let withAccount ← Object.set [] Fields.account (.account account)
  let withKey ← Object.set withAccount Fields.signingPubKey (.blob publicKey)
  Object.set withKey Fields.txnSignature (.blob signature)

/-- Adds a signature: by itself, or in the only entry of a list of signers. -/
def attach (transaction : Object) (publicKey signature : Bytes) (signingFor : Option Account) :
    Except ValueError Object := do
  match signingFor with
  | none => Object.set transaction Fields.txnSignature (.blob signature)
  | some account =>
    let element ← Object.wrap Fields.signer (← signerEntry account publicKey signature)
    Object.set transaction Fields.signers (.array [element])

/-- Checks a transaction that is to be signed with a fee. -/
def checkSignable (transaction : Object) (fee : Amount) : Except FormatError Unit := do
  let _ ← transaction.checkForSigning
  unless fee.isNative do
    throw (.nonNativeFee Fields.fee.name)
  unless transaction.contains Fields.account do
    throw (.missingField Fields.account.name)

def prepare (transaction : Object) (fee : Amount) (sequence : UInt32) (signer : Signer)
    (signingFor : Option Account) : Except SignError SignedTransaction := do
  (checkSignable transaction fee).mapError .malformedTransaction
  let filled ← (fill transaction fee sequence signer.publicKey signingFor).mapError .invalidField
  let signingBytes ← (Object.toSigningBytes filled).mapError .serialization
  let signingHash := sha512Half (signingPreimage signingBytes signingFor)
  let signature ← (signer.sign signingHash).mapError .signingFailed
  let signed ← (attach filled signer.publicKey signature signingFor).mapError .invalidField
  let blob ← (Object.toBytes signed).mapError .serialization
  pure ⟨signed, Text.Hex.encode blob, sha512Half (identifierPreimage blob), signingHash⟩

end Transaction

end LedgerWire
