import LedgerWire.Digest.Sha256
import LedgerWire.Error.Value
import LedgerWire.Text.Base58

namespace LedgerWire

open Text

/-!
Account identifiers of 160 bits and their addresses. An address is the base-58 text of a version
byte, the identifier and a checksum, the first four bytes of a double SHA-256 digest.
-/

structure Account where
  octets : Octets 20
deriving DecidableEq

namespace Account

def addressVersion : UInt8 := 0

def toBytes (account : Account) : Bytes :=
  account.octets.toList

def ofBytes (bytes : Bytes) : Except ValueError Account :=
  match Octets.ofBytes? 20 bytes with
  | some octets => .ok ⟨octets⟩
  | none => .error (.invalidLength "AccountID" 20 bytes.length)

/-- The account of a small number, in the low bytes. -/
def ofNat (number : Nat) : Account :=
  ⟨Octets.ofNat 20 number⟩

/-- The issuer of native amounts. -/
def zero : Account := ofNat 0

/-- The neutral account. -/
def one : Account := ofNat 1

/-- The checksum of an address's payload. -/
def checksum (payload : Bytes) : Bytes :=
  (Sha256.digest (Sha256.digest payload).toList).toList.take 4

def toAddress (account : Account) : String :=
  let payload := addressVersion :: account.toBytes
  Base58.encode (payload ++ checksum payload)

def checkedPayload (text : String) : Except AddressCause Bytes :=
  match Base58.decode? text with
  | none => .error .invalidDigit
  | some bytes =>
    if bytes.length < 5 then .error .tooShort
    else
      let payload := bytes.take (bytes.length - 4)
      if checksum payload = bytes.drop (bytes.length - 4) then .ok payload
      else .error .checksumMismatch

def ofPayload : Bytes → Except AddressCause Account
  | [] => .error .emptyPayload
  | version :: body =>
    if version ≠ addressVersion then .error .unexpectedVersion
    else
      match Octets.ofBytes? 20 body with
      | some octets => .ok ⟨octets⟩
      | none => .error .payloadWidth

def parse (address : String) : Except ValueError Account :=
  match checkedPayload address >>= ofPayload with
  | .ok account => .ok account
  | .error cause => .error (.malformedAddress address cause)

def debugText (account : Account) : String :=
  "AccountId(" ++ account.toAddress ++ ")"

def compare (left right : Account) : Ordering :=
  left.octets.compare right.octets

end Account

end LedgerWire
