import LedgerWire.Bytes
import LedgerWire.Positional

namespace LedgerWire.Text.Base58

/-!
Base-58 text of byte strings over the ledger's alphabet. The bytes are read as one number in
base 256 and written in base 58; since neither numeral keeps leading zeros, each leading zero
byte is written as one zero digit.
-/

def alphabet : List Char :=
  "rpshnaf39wBUDNEGHJKLM4PQRST7VWXYZ2bcdeCg65jkm8oFqi1tuvAxyz".toList

def digit (value : Nat) : Char :=
  alphabet.getD value 'r'

def digitValue? (character : Char) : Option Nat :=
  alphabet.findIdx? (· == character)

/-- How many zeros lead a list of digits. -/
def leadingZeros (digits : List Nat) : Nat :=
  (digits.takeWhile (· == 0)).length

/-- Rewrites digits in another base, keeping the leading zeros one for one. -/
def rebase (source target : Nat) (digits : List Nat) : List Nat :=
  List.replicate (leadingZeros digits) 0 ++
    Positional.digits target (Positional.value source digits)

def encode (bytes : Bytes) : String :=
  String.ofList ((rebase 256 58 (bytes.map UInt8.toNat)).map digit)

/-- The bytes of a text all of whose characters are digits. -/
def decode? (text : String) : Option Bytes :=
  (text.toList.mapM digitValue?).map fun digits => (rebase 58 256 digits).map UInt8.ofNat

end LedgerWire.Text.Base58
