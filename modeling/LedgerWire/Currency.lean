import LedgerWire.Double
import LedgerWire.Error.Value

namespace LedgerWire

open Text

/-!
Currency identifiers of 160 bits. In the ISO form every byte is zero except a three-byte code at
offsets 12 to 14 and a flag at offset 19; the zero code names one of the two native assets, told
apart by the flag. Other identifiers are demurrage currencies, when they start with a one, or
opaque hashes.
-/

/-- The two assets that need no issuer. -/
inductive NativeAsset where
  | primary
  | secondary
deriving DecidableEq, Repr

def NativeAsset.symbol : NativeAsset → String
  | .primary => "VRP"
  | .secondary => "VBC"

structure Currency where
  octets : Octets 20
deriving DecidableEq

/-- A currency whose balances lose value over time. -/
structure Demurrage where
  code : Octets 3
  /-- When interest starts to accrue, in seconds since the ledger's epoch. -/
  start : UInt32
  /-- The time, in seconds, in which the value falls by a factor of e. -/
  rate : Double
deriving DecidableEq

inductive CurrencyKind where
  | native (asset : NativeAsset)
  | iso (code : Octets 3)
  | demurrage (parameters : Demurrage)
  | hash
deriving DecidableEq

namespace Currency

def toBytes (currency : Currency) : Bytes :=
  currency.octets.toList

def ofBytes (bytes : Bytes) : Except ValueError Currency :=
  match Octets.ofBytes? 20 bytes with
  | some octets => .ok ⟨octets⟩
  | none => .error (.invalidLength "Currency" 20 bytes.length)

def byteAt (currency : Currency) (offset : Nat) : UInt8 :=
  currency.toBytes.getD offset 0

/-- The `width` bytes from `offset` on. -/
def slice (currency : Currency) (offset width : Nat) (inside : offset + width ≤ 20) :
    Octets width :=
  ⟨(currency.toBytes.drop offset).take width, by
    have length : currency.toBytes.length = 20 := currency.octets.length_toList
    simp [length]
    omega⟩

def ofCode (code : Octets 3) (flag : UInt8) : Currency :=
  ⟨⟨List.replicate 12 0 ++ code.toList ++ List.replicate 4 0 ++ [flag], by
    simp [code.length_toList]⟩⟩

end Currency

def NativeAsset.currency : NativeAsset → Currency
  | .primary => Currency.ofCode (Octets.zero 3) 0
  | .secondary => Currency.ofCode (Octets.zero 3) 1

namespace Currency

def isoCode (currency : Currency) : Octets 3 :=
  currency.slice 12 3 (by decide)

def isoFlag (currency : Currency) : UInt8 :=
  currency.byteAt 19

/-- Whether all bytes but the code's and the flag are zero. -/
def isIsoForm (currency : Currency) : Bool :=
  (currency.toBytes.take 12).all (· == 0) && ((currency.toBytes.drop 15).take 4).all (· == 0)

/-- The parameters in an identifier's first sixteen bytes, after the leading one. -/
def demurrageOf (currency : Currency) : Demurrage where
  code := currency.slice 1 3 (by decide)
  start := UInt32.ofNat (Bytes.toNat (currency.slice 4 4 (by decide)).toList)
  rate := ⟨UInt64.ofNat (Bytes.toNat (currency.slice 8 8 (by decide)).toList)⟩

def kind (currency : Currency) : CurrencyKind :=
  if currency.isIsoForm then
    if currency.isoCode.isZero then
      .native (if currency.isoFlag = 0 then .primary else .secondary)
    else .iso currency.isoCode
  else if currency.byteAt 0 = 1 then .demurrage currency.demurrageOf
  else .hash

def nativeAsset? (currency : Currency) : Option NativeAsset :=
  match currency.kind with
  | .native asset => some asset
  | _ => none

def isNative (currency : Currency) : Bool :=
  currency.nativeAsset?.isSome

/-- Whether two identifiers name one currency. Those in ISO form are told apart by code and flag,
others by all their bytes. -/
def same (left right : Currency) : Bool :=
  if left.isIsoForm && right.isIsoForm then
    left.isoCode == right.isoCode && left.isoFlag == right.isoFlag
  else left == right

/-- Whether a byte is an ASCII character with a glyph. -/
def isGraphic (byte : UInt8) : Bool :=
  0x21 ≤ byte && byte ≤ 0x7E

/-- The symbol of a native asset, a code that can be printed, or else all bytes in hexadecimal. -/
def toText (currency : Currency) : String :=
  match currency.kind with
  | .native asset => asset.symbol
  | .iso code =>
    if code.toList.all isGraphic then
      String.ofList (code.toList.map fun byte => Char.ofNat byte.toNat)
    else Hex.encode currency.toBytes
  | _ => Hex.encode currency.toBytes

def debugText (currency : Currency) : String :=
  "Currency(" ++ currency.toText ++ ")"

/-- The bytes of a text of three ASCII characters. -/
def code? (text : String) : Option (Octets 3) :=
  if text.toList.all (·.toNat < 128) then Octets.ofBytes? 3 (Bytes.ofText text) else none

/-- Reads forty hexadecimal digits, a native symbol or a three-character code, in this order. -/
def parse (text : String) : Except ValueError Currency :=
  if text.utf8ByteSize = 40 then
    match Hex.decode text with
    | .ok bytes => ofBytes bytes
    | .error _ => .error (.invalidCurrencyCode text)
  else if text = NativeAsset.primary.symbol then .ok NativeAsset.primary.currency
  else if text = NativeAsset.secondary.symbol then .ok NativeAsset.secondary.currency
  else
    match code? text with
    | some code => .ok (ofCode code 0)
    | none => .error (.invalidCurrencyCode text)

/-- The identifier of a demurrage currency: a one, the code, the start and the rate. -/
def ofDemurrage (parameters : Demurrage) : Currency :=
  ⟨⟨[1] ++ parameters.code.toList ++ Bytes.bigEndian 4 parameters.start.toNat ++
      Bytes.bigEndian 8 parameters.rate.bits.toNat ++ List.replicate 4 0, by
    simp [parameters.code.length_toList]⟩⟩

def demurrage (code : String) (start : UInt32) (rate : Double) : Except ValueError Currency :=
  match code? code with
  | some octets => .ok (ofDemurrage ⟨octets, start, rate⟩)
  | none => .error (.invalidCurrencyCode code)

end Currency

end LedgerWire
