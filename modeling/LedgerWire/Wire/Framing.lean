import LedgerWire.Wire.Output
import LedgerWire.Wire.Reader

namespace LedgerWire.Framing

/-!
Length prefixes and field headers. A length takes one byte up to 192, two up to 12480 and three up
to the maximum; the first byte tells which. A header takes one byte when type and field code are
both below 16; a code that is not follows in a byte of its own, its half of the first byte being
zero.
-/

/-- The prefix of a length that has one. -/
def lengthBytes (length : Nat) : Bytes :=
  if length ≤ Limits.oneByteLength then [UInt8.ofNat length]
  else if length ≤ Limits.twoByteLength then
    let excess := length - (Limits.oneByteLength + 1)
    [UInt8.ofNat (193 + excess / 256), UInt8.ofNat (excess % 256)]
  else
    let excess := length - (Limits.twoByteLength + 1)
    [UInt8.ofNat (241 + excess / 65536), UInt8.ofNat (excess / 256 % 256),
      UInt8.ofNat (excess % 256)]

def lengthPrefix (field : String) (length : Nat) : Output :=
  if length ≤ Limits.maximumLength then .ok (lengthBytes length)
  else .fail (.fieldTooLong field length)

def lengthPrefixed (field : String) (bytes : Bytes) : Output :=
  lengthPrefix field bytes.length ++ .ok bytes

def readLength : Reader Nat := do
  let first := (← Reader.byte "length prefix").toNat
  if first ≤ 192 then
    return first
  else if first ≤ 240 then
    let second := (← Reader.byte "length prefix").toNat
    return Limits.oneByteLength + 1 + (first - 193) * 256 + second
  else if first ≤ 254 then
    let second := (← Reader.byte "length prefix").toNat
    let third := (← Reader.byte "length prefix").toNat
    let length := Limits.twoByteLength + 1 + (first - 241) * 65536 + second * 256 + third
    if length ≤ Limits.maximumLength then
      return length
    else
      Reader.fail (.malformedEncoding .lengthAboveMaximum)
  else
    Reader.fail (.invalidLengthByte (UInt8.ofNat first))

def readLengthPrefixed (context : String) : Reader Bytes := do
  Reader.bytes (← readLength) context

/-- The header of a type code and a field code, by their low bytes. -/
def header (typeCode fieldCode : UInt16) : Bytes :=
  if typeCode < 16 then
    if fieldCode < 16 then [typeCode.toUInt8 * 16 + fieldCode.toUInt8]
    else [typeCode.toUInt8 * 16, fieldCode.toUInt8]
  else
    if fieldCode < 16 then [fieldCode.toUInt8, typeCode.toUInt8]
    else [0, typeCode.toUInt8, fieldCode.toUInt8]

/-- Reads a code that has a byte of its own. -/
def readExtended (context : String) (tooSmall : FramingCause) : Reader UInt16 := do
  let byte ← Reader.byte context
  if byte < 16 then
    Reader.fail (.malformedEncoding tooSmall)
  else
    return byte.toUInt16

/-- Reads a code from its half of the first byte or, that half being zero, from a byte of its
own. -/
def readCode (half : UInt8) (context : String) (tooSmall : FramingCause) : Reader UInt16 :=
  if half = 0 then readExtended context tooSmall else Reader.pure half.toUInt16

/-- Reads the header that starts with a given byte. -/
def readHeaderFrom (first : UInt8) : Reader (UInt16 × UInt16) := do
  let typeCode ← readCode (first / 16) "field header type" .smallExtendedType
  let fieldCode ← readCode (first % 16) "field header field" .smallExtendedField
  return (typeCode, fieldCode)

def readHeader : Reader (UInt16 × UInt16) := do
  readHeaderFrom (← Reader.byte "field header")

end LedgerWire.Framing
