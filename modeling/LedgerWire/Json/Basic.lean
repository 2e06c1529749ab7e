import LedgerWire.Double

namespace LedgerWire

/-!
JSON values. Whole numbers are kept apart from doubles, as the fields of the ledger take only the
former, and the members of an object are held by ascending key, each key once.
-/

/-- A number: a signed or unsigned 64-bit integer, or a double. -/
inductive JsonNumber where
  | integer (value : Int)
  | double (value : Double)
deriving DecidableEq, Repr

inductive Json where
  | null
  | bool (value : Bool)
  | number (value : JsonNumber)
  | string (value : String)
  | array (items : List Json)
  | object (members : List (String × Json))

namespace JsonNumber

def toUnsigned? : JsonNumber → Option Nat
  | .integer value => if 0 ≤ value ∧ value < UInt64.size then some value.toNat else none
  | .double _ => none

def toSigned? : JsonNumber → Option Int
  | .integer value => if Text.fitsSigned 64 value then some value else none
  | .double _ => none

/-- A double shows that it is one by a point or an exponent. -/
def toText : JsonNumber → String
  | .integer value => toString value
  | .double value => value.text

end JsonNumber

namespace Json

instance : Inhabited Json := ⟨.null⟩

def nat (value : Nat) : Json :=
  .number (.integer value)

/-- Places a member among members by ascending key; an earlier member of the same key is
replaced. -/
def place (key : String) (value : Json) : List (String × Json) → List (String × Json)
  | [] => [(key, value)]
  | member :: rest =>
    if key < member.1 then (key, value) :: member :: rest
    else if key = member.1 then (key, value) :: rest
    else member :: place key value rest

/-- The object of a list of members, the last of each key. -/
def ofMembers (members : List (String × Json)) : Json :=
  .object (members.foldl (fun placed member => place member.1 member.2 placed) [])

def lookup (members : List (String × Json)) (key : String) : Option Json :=
  List.lookup key members

def member? (json : Json) (key : String) : Option Json :=
  match json with
  | .object members => lookup members key
  | _ => none

end Json

end LedgerWire
