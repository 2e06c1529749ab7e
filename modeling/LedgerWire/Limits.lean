namespace LedgerWire.Limits

/-!
The numbers that bound the ledger's formats. Decoding limits keep hostile input from exhausting
a reader.
-/

def version : String := "0.1.0"

/-- The longest byte string with a one-byte length prefix. -/
def oneByteLength : Nat := 192

/-- The longest byte string with a two-byte length prefix. -/
def twoByteLength : Nat := 12480

/-- The longest byte string with any length prefix. -/
def maximumLength : Nat := 918744

def maximumDepth : Nat := 64

/-- Drops in one display unit of a native asset. -/
def dropsPerUnit : Nat := 1000000

/-- Fractional digits of a native value in display units. -/
def nativeScale : Int := 6

/-- The largest native value, in drops. -/
def maximumDrops : Nat := 100000000000 * dropsPerUnit

/-- Native values of early ledgers, in drops, that are admitted beyond the maximum. -/
def historicalDrops : List Nat := [1000000000000000000]

/-- Significant digits of an issued amount. -/
def issuedPrecision : Nat := 16

def minimumMantissa : Nat := 1000000000000000

def maximumMantissa : Nat := 9999999999999999

def minimumExponent : Int := -96

def maximumExponent : Int := 80

/-- What is added to an issued amount's exponent on the wire. -/
def exponentBias : Int := 97

/-- The largest magnitude of a read decimal's leading-digit exponent. -/
def decimalExponent : Nat := 1000

/-- Significant digits of a decimal's mantissa when read from text. -/
def decimalPrecision : Nat := 38

/-- Significant digits of a quality. -/
def qualityPrecision : Nat := 34

/-- The weight of the bit that marks an issued amount. -/
def issuedBit : Nat := 0x8000000000000000

/-- The weight of the bit that marks a non-negative amount. -/
def positiveBit : Nat := 0x4000000000000000

/-- The weight of the bit that marks the secondary native asset. -/
def secondaryBit : Nat := 0x2000000000000000

/-- The largest number that the drops bits hold. -/
def dropsMask : Nat := secondaryBit - 1

/-- The weight of the lowest bit of an issued amount's exponent. -/
def exponentUnit : Nat := 0x40000000000000

/-- The largest number that the mantissa bits hold. -/
def mantissaMask : Nat := exponentUnit - 1

end LedgerWire.Limits
