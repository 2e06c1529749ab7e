import LedgerWire.Json.Basic
import LedgerWire.Path.Basic

namespace LedgerWire

/-!
Path sets in JSON: an array of arrays of hop objects. A hop is written with its type bits, which
are passed over when it is read.
-/

namespace Hop

def toJson (hop : Hop) : Json :=
  let member (key : String) (text : Option String) : List (String × Json) :=
    match text with
    | some text => [(key, .string text)]
    | none => []
  Json.ofMembers <|
    member "account" (hop.account.map Account.toAddress) ++
      member "currency" (hop.currency.map Currency.toText) ++
      member "issuer" (hop.issuer.map Account.toAddress) ++
      [("type", Json.nat hop.typeBits.toNat),
        ("type_hex", .string (Text.hexWord hop.typeBits.toNat))]

/-- Reads a member that may be absent. -/
def readMember {α : Type} (members : List (String × Json)) (key : String)
    (read : String → Except ValueError α) : Except ValueError (Option α) :=
  match Json.lookup members key with
  | none => .ok none
  | some (.string text) => (read text).map some
  | some _ => .error (.invalidJson "Paths" (.hopMemberNotText key))

/-- Reads a hop, which has to name something. -/
def ofJson (json : Json) : Except ValueError Hop :=
  match json with
  | .object members => do
    let account ← readMember members "account" Account.parse
    let currency ← readMember members "currency" Currency.parse
    let issuer ← readMember members "issuer" Account.parse
    let hop : Hop := ⟨account, currency, issuer⟩
    if hop.typeBits = 0 then
      throw (.invalidJson "Paths" .emptyHop)
    pure hop
  | _ => .error (.invalidJson "Paths" .expectedHop)

end Hop

namespace PathSet

def toJson (paths : PathSet) : Json :=
  .array (paths.map fun path => .array (path.map Hop.toJson))

def readPath (json : Json) : Except ValueError Path :=
  match json with
  | .array hops => hops.mapM Hop.ofJson
  | _ => .error (.invalidJson "Paths" .expectedHops)

def ofJson (json : Json) : Except ValueError PathSet :=
  match json with
  | .array paths => paths.mapM readPath
  | _ => .error (.invalidJson "Paths" .expectedPaths)

end PathSet

end LedgerWire
