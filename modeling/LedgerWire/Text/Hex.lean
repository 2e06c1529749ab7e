import LedgerWire.Bytes
import LedgerWire.Text.Quoted

namespace LedgerWire.Text

/-!
Hexadecimal text of byte strings: two digits a byte, written in upper case and read in either.
-/

/-- Why a text is not hexadecimal. -/
inductive HexError where
  | oddLength
  | badDigit (byte : UInt8) (position : Nat)
deriving DecidableEq, Repr

/-- A refused byte is shown as the character with that code point. -/
def HexError.message : HexError → String
  | .oddLength => "Odd number of digits"
  | .badDigit byte position =>
    "Invalid character " ++ quotedChar (Char.ofNat byte.toNat) ++
      " at position " ++ toString position

namespace Hex

/-- The upper-case digit of a value below sixteen. -/
def digit (value : Nat) : Char :=
  if value < 10 then Char.ofNat ('0'.toNat + value) else Char.ofNat ('A'.toNat + (value - 10))

/-- The two digits of a byte. -/
def byteDigits (byte : UInt8) : List Char :=
  [digit (byte.toNat / 16), digit (byte.toNat % 16)]

def encode (bytes : Bytes) : String :=
  String.ofList (bytes.flatMap byteDigits)

/-- The value of an ASCII digit of either case. -/
def nibble? (byte : UInt8) : Option UInt8 :=
  if 48 ≤ byte ∧ byte ≤ 57 then some (byte - 48)
  else if 65 ≤ byte ∧ byte ≤ 70 then some (byte - 55)
  else if 97 ≤ byte ∧ byte ≤ 102 then some (byte - 87)
  else none

/-- Reads pairs of digits, `position` being the place of the first; `done` holds the bytes read
so far, latest first. -/
def decodePairs (position : Nat) (done : Bytes) : Bytes → Except HexError Bytes
  | [] => .ok done.reverse
  | [_] => .error .oddLength
  | high :: low :: rest =>
    match nibble? high, nibble? low with
    | none, _ => .error (.badDigit high position)
    | some _, none => .error (.badDigit low (position + 1))
    | some highValue, some lowValue =>
      decodePairs (position + 2) ((highValue * 16 + lowValue) :: done) rest

/-- Reads hexadecimal text. An odd number of bytes is found before any bad digit. -/
def decode (text : String) : Except HexError Bytes :=
  let bytes := Bytes.ofText text
  if bytes.length % 2 = 1 then .error .oddLength else decodePairs 0 [] bytes

end Hex

/-- The sixteen upper-case hexadecimal digits of a 64-bit number. -/
def hexWord (number : Nat) : String :=
  Hex.encode (Bytes.bigEndian 8 number)

end LedgerWire.Text
