import LedgerWire.Amount.Text
import LedgerWire.Json.Basic

namespace LedgerWire.Amount

/-!
Amounts in JSON. An amount of the primary asset is its drops as a string; other amounts are objects
of value and currency and, if issued, the issuer.
-/

def toJson (amount : Amount) : Json :=
  let value := ("value", Json.string amount.value.plain)
  let currency := ("currency", Json.string amount.currency.toText)
  match amount.nativeAsset? with
  | some .primary =>
    match amount.drops? with
    | some drops => .string (toString drops)
    | none => Json.ofMembers [currency, value]
  | some .secondary => Json.ofMembers [currency, value]
  | none => Json.ofMembers [currency, value, ("issuer", .string amount.issuer.toAddress)]

/-- The text of an object's member; a number counts as its text. -/
def memberText (members : List (String × Json)) (key : String) : Except ValueError String :=
  match Json.lookup members key with
  | some (.string text) => .ok text
  | some (.number number) => .ok number.toText
  | some _ => .error (.malformedAmount (.memberNotText key))
  | none => .error (.malformedAmount (.missingMember key))

/-- Reads an amount: drops as a string or a number, or an object. The issuer of a native amount
is passed over. -/
def ofJson (json : Json) : Except ValueError Amount :=
  match json with
  | .string drops => parseDrops drops
  | .number number =>
    match number.toSigned? with
    | some drops => ofDrops .primary drops
    | none => .error (.malformedAmount (.invalidDropsNumber number.toText))
  | .object members => do
    let value ← Decimal.parse (← memberText members "value")
    let currency ← Currency.parse (← memberText members "currency")
    match currency.nativeAsset? with
    | some asset => native asset value
    | none => issued value currency (← Account.parse (← memberText members "issuer"))
  | _ => .error (.malformedAmount .notTextOrObject)

end LedgerWire.Amount
