import LedgerWire.Decimal.Basic
import LedgerWire.Error.Value
import LedgerWire.Text.Integer

namespace LedgerWire.Decimal

open Text

/-!
Decimal text: plain or scientific notation is read, and either can be written.
-/

/-- The digits of a number; none for zero. -/
def digitText (number : Nat) : List Char :=
  (Positional.digits 10 number).map Hex.digit

/-- Plain notation, without an exponent and without trailing zeros after the point. -/
def plain (decimal : Decimal) : String :=
  if decimal.isZero then "0"
  else
    let digits := digitText decimal.mantissa
    let point := digits.length + decimal.exponent
    let unsigned :=
      if 0 ≤ decimal.exponent then digits ++ List.replicate decimal.exponent.toNat '0'
      else if 0 < point then digits.take point.toNat ++ '.' :: digits.drop point.toNat
      else '0' :: '.' :: (List.replicate (-point).toNat '0' ++ digits)
    String.ofList (if decimal.negative then '-' :: unsigned else unsigned)

/-- The mantissa and the exponent, of bounded length for every number. -/
def scientific (decimal : Decimal) : String :=
  if decimal.isZero then "0"
  else
    let sign := if decimal.negative then "-" else ""
    sign ++ String.ofList (digitText decimal.mantissa) ++ "e" ++ toString decimal.exponent

def debugText (decimal : Decimal) : String :=
  "Decimal(" ++ decimal.scientific ++ ")"

/-- Reads the digits of `text` after those that gave `mantissa` and `pending`, the count of zeros
read since the last nonzero digit. -/
def readDigits (text : String) (mantissa pending : Nat) :
    List Char → Except ValueError (Nat × Nat)
  | [] => .ok (mantissa, pending)
  | character :: rest =>
    match digitValue? 10 character with
    | none => .error (.malformedAmount (.invalidDecimal text))
    | some 0 => readDigits text mantissa (if mantissa = 0 then pending else pending + 1) rest
    | some digit =>
      let longer := mantissa * Positional.weight 10 (pending + 1) + digit
      if longer < Positional.weight 10 Limits.decimalPrecision then readDigits text longer 0 rest
      else .error (.precision text .tooManyDigits)

def isExponentMark (character : Char) : Bool :=
  character == 'e' || character == 'E'

/-- Whether an exponent fits its word. -/
def inExponentRange (exponent : Int) : Bool :=
  minimumExponent ≤ exponent && exponent ≤ maximumExponent

/-- Reads `-1.5`, `2e-7` or `1E+3`: an optional sign, digits with at most one point, and an
optional exponent. -/
def parse (text : String) : Except ValueError Decimal := do
  let malformed := ValueError.malformedAmount (.invalidDecimal text)
  let (negative, body) := match text.toList with
    | '-' :: rest => (true, rest)
    | '+' :: rest => (false, rest)
    | other => (false, other)
  let number := body.takeWhile (!isExponentMark ·)
  let whole := number.takeWhile (· != '.')
  let fraction := (number.dropWhile (· != '.')).drop 1
  if whole.isEmpty && fraction.isEmpty then
    throw malformed
  let (mantissa, pending) ← readDigits text 0 0 (whole ++ fraction)
  let written ← match body.dropWhile (!isExponentMark ·) with
    | [] => pure 0
    | _ :: literal => match signed? 32 literal with
      | some exponent => pure exponent
      | none => throw malformed
  let raised := written + pending
  let exponent := raised - fraction.length
  unless inExponentRange fraction.length && inExponentRange raised && inExponentRange exponent do
    throw malformed
  let decimal := normal negative mantissa exponent
  if Limits.decimalExponent < decimal.leadingExponent.natAbs then
    throw (.precision text .decimalExponentRange)
  pure decimal

end LedgerWire.Decimal
