import LedgerWire.Object.Json

namespace LedgerWire

/-!
Single values as whole documents: identifiers as JSON strings, and accounts as binary records, a
length of eight bytes, least significant first, before the account's bytes.
-/

inductive DocumentError where
  | expectedString (found : String)
  | unexpectedEnd
  | value (cause : ValueError)
deriving DecidableEq, Repr

def DocumentError.message : DocumentError → String
  | .expectedString found => "invalid type: " ++ found ++ ", expected a string"
  | .unexpectedEnd => "io error: unexpected end of file"
  | .value cause => cause.message

namespace Document

/-- What a JSON value is, as messages say it. -/
def describe : Json → String
  | .null => "null"
  | .bool value => "boolean `" ++ toString value ++ "`"
  | .number (.integer value) => "integer `" ++ toString value ++ "`"
  | .number (.double value) => "floating point `" ++ value.text ++ "`"
  | .string text => "string " ++ Text.quoted text
  | .array _ => "sequence"
  | .object _ => "map"

/-- Reads the text of a document that is a string. -/
def readWith {α : Type} (read : String → Except ValueError α) (json : Json) :
    Except DocumentError α :=
  match json with
  | .string text => (read text).mapError .value
  | other => .error (.expectedString (describe other))

def account (json : Json) : Except DocumentError Account :=
  readWith Account.parse json

def currency (json : Json) : Except DocumentError Currency :=
  readWith Currency.parse json

def hash (width : Nat) (json : Json) : Except DocumentError (Hash width) :=
  readWith (Hash.parse width) json

def amount (json : Json) : Except DocumentError Amount :=
  (Amount.ofJson json).mapError .value

def object (json : Json) : Except DocumentError Object :=
  (Object.ofJson json).mapError .value

def accountRecord (account : Account) : Bytes :=
  Bytes.littleEndian 8 account.toBytes.length ++ account.toBytes

/-- Reads the binary record of an account; what follows it is passed over. -/
def ofAccountRecord (record : Bytes) : Except DocumentError Account :=
  if record.length < 8 then .error .unexpectedEnd
  else
    let length := Bytes.toNatLittleEndian (record.take 8)
    let body := record.drop 8
    if body.length < length then .error .unexpectedEnd
    else (Account.ofBytes (body.take length)).mapError .value

end Document

end LedgerWire
