import LedgerWire.Amount.Basic

namespace LedgerWire.Amount

/-!
The text of amounts: `value/currency` for native amounts, in display units, and
`value/currency/issuer` for issued ones. A lone number is read as drops of the primary asset.
-/

def toText (amount : Amount) : String :=
  let denominated := amount.value.plain ++ "/" ++ amount.currency.toText
  if amount.isNative then denominated else denominated ++ "/" ++ amount.issuer.toAddress

def debugText (amount : Amount) : String :=
  "Amount(" ++ amount.toText ++ ")"

/-- The parts of a text between its slashes; one more than there are slashes. -/
def slashParts : List Char → List (List Char)
  | [] => [[]]
  | '/' :: rest => [] :: slashParts rest
  | character :: rest =>
    match slashParts rest with
    | [] => [[character]]
    | part :: parts => (character :: part) :: parts

def parse (text : String) : Except ValueError Amount :=
  match (slashParts text.toList).map String.ofList with
  | [drops] => parseDrops drops
  | [value, currency] => do
    match (← Currency.parse currency).nativeAsset? with
    | some asset => native asset (← Decimal.parse value)
    | none => throw (.malformedAmount (.missingIssuer text))
  | [value, currency, issuer] => do
    issued (← Decimal.parse value) (← Currency.parse currency) (← Account.parse issuer)
  | _ => .error (.malformedAmount (.unrecognised text))

end LedgerWire.Amount
