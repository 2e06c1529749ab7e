import LedgerWire.Hash
import LedgerWire.Signature.Edwards
import LedgerWire.Transaction.Sign

namespace LedgerWire

open Edwards

/-!
Deterministic Ed25519 signatures, and the signer that they give.
-/

structure Ed25519Key where
  secret : Octets 32
deriving DecidableEq

namespace Ed25519Key

/-- The number of a digest, modulo the group's order. -/
def challenge (message : Bytes) : Nat :=
  Bytes.toNatLittleEndian (Sha512.digest message).toList % order

/-- The digest of the secret: 32 bytes for the scalar, and 32 that make nonces. -/
def expanded (key : Ed25519Key) : Bytes :=
  (Sha512.digest key.secret.toList).toList

/-- The secret scalar: a multiple of eight, with the second highest bit its highest. -/
def scalar (key : Ed25519Key) : Nat :=
  let number := Bytes.toNatLittleEndian (key.expanded.take 32)
  number % Positional.weight 2 254 / 8 * 8 + Positional.weight 2 254

/-- The public point, encoded. -/
def verifyingBytes (key : Ed25519Key) : Bytes :=
  (Point.base.scale key.scalar).encode.toList

/-- The signature of a message: an encoded nonce point and a scalar. -/
def sign (key : Ed25519Key) (message : Bytes) : Bytes :=
  let verifying := key.verifyingBytes
  let nonce := challenge (key.expanded.drop 32 ++ message)
  let point := (Point.base.scale nonce).encode.toList
  let response := (nonce + challenge (point ++ verifying ++ message) * key.scalar) % order
  point ++ Bytes.littleEndian 32 response

/-- Whether 64 bytes are a signature of a message: the scalar has to be reduced, and the nonce
point has to be, as encoded, what scalar and challenge say. -/
def verify (key : Ed25519Key) (message signature : Bytes) : Bool :=
  if signature.length ≠ 64 then false
  else
    let point := signature.take 32
    let response := Bytes.toNatLittleEndian (signature.drop 32)
    if order ≤ response then false
    else
      let factor := challenge (point ++ key.verifyingBytes ++ message)
      let expected :=
        (Point.base.scale response).add ((Point.base.scale key.scalar).negate.scale factor)
      expected.encode.toList == point

/-- The byte that marks an Ed25519 key among public keys. -/
def keyMark : UInt8 := 0xED

/-- The public key as transactions hold it. -/
def publicKey (key : Ed25519Key) : Bytes :=
  keyMark :: key.verifyingBytes

/-- The key of a passphrase: its secret is half a digest of the first sixteen bytes of the
passphrase's digest. -/
def ofPassphrase (passphrase : String) : Ed25519Key :=
  ⟨sha512Half ((Sha512.digest (Bytes.ofText passphrase)).toList.take 16)⟩

def signer (key : Ed25519Key) : Signer where
  publicKey := key.publicKey
  sign hash := .ok (key.sign hash.toList)

def debugText (key : Ed25519Key) : String :=
  "Ed25519Signer(" ++ Text.Hex.encode key.publicKey ++ ")"

end Ed25519Key

end LedgerWire
