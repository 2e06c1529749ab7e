import LedgerWire.Positional

namespace LedgerWire.Text

/-!
Integer literals: an optional sign, then one or more ASCII digits, within stated bounds. A minus
sign is only read where negative numbers are admitted.
-/

/-- The number a digit character denotes in a base of at most sixteen. -/
def digitValue? (base : Nat) (character : Char) : Option Nat :=
  let value? :=
    if '0' ≤ character ∧ character ≤ '9' then some (character.toNat - '0'.toNat)
    else if 'a' ≤ character ∧ character ≤ 'f' then some (character.toNat - 'a'.toNat + 10)
    else if 'A' ≤ character ∧ character ≤ 'F' then some (character.toNat - 'A'.toNat + 10)
    else none
  value?.filter (· < base)

/-- The number that one or more digits denote. -/
def numeral? (base : Nat) (digits : List Char) : Option Nat :=
  if digits.isEmpty then none
  else
    digits.foldl
      (fun number? character => do
        let number ← number?
        let digit ← digitValue? base character
        pure (number * base + digit))
      (some 0)

/-- An unsigned literal in the given base, below `limit`; a plus sign may lead it. -/
def unsigned? (base limit : Nat) (text : List Char) : Option Nat :=
  let digits := match text with
    | '+' :: rest => rest
    | other => other
  (numeral? base digits).filter (· < limit)

/-- Whether a two's-complement word of `bits` bits holds a number. -/
def fitsSigned (bits : Nat) (number : Int) : Bool :=
  -(Positional.weight 2 (bits - 1) : Int) ≤ number && number < Positional.weight 2 (bits - 1)

/-- A signed decimal literal of a two's-complement word of `bits` bits. -/
def signed? (bits : Nat) (text : List Char) : Option Int :=
  let number? := match text with
    | '-' :: rest => (numeral? 10 rest).map fun number => -(number : Int)
    | '+' :: rest => (numeral? 10 rest).map Int.ofNat
    | other => (numeral? 10 other).map Int.ofNat
  number?.filter (fitsSigned bits)

end LedgerWire.Text
