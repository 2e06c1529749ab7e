import LedgerWire.Account.Basic
import LedgerWire.Currency

namespace LedgerWire

/-!
Payment paths. A path set lists alternative routes, a path lists its hops, and a hop names any
combination of an account, a currency and an issuer.
-/

structure Hop where
  account : Option Account
  currency : Option Currency
  issuer : Option Account
deriving DecidableEq

namespace Hop

def empty : Hop := ⟨none, none, none⟩

def accountBit : UInt8 := 0x01

def currencyBit : UInt8 := 0x10

def issuerBit : UInt8 := 0x20

/-- Which parts the hop names; zero for none. -/
def typeBits (hop : Hop) : UInt8 :=
  (if hop.account.isSome then accountBit else 0) +
    (if hop.currency.isSome then currencyBit else 0) +
    (if hop.issuer.isSome then issuerBit else 0)

/-- Whether two hops name the same parts. -/
def same (left right : Hop) : Bool :=
  left.account == right.account && left.issuer == right.issuer &&
    match left.currency, right.currency with
    | some leftCurrency, some rightCurrency => leftCurrency.same rightCurrency
    | none, none => true
    | _, _ => false

end Hop

abbrev Path := List Hop

/-- Alternative paths in order. -/
abbrev PathSet := List Path

/-- Whether two path sets have the same hops in the same places. -/
def PathSet.same (left right : PathSet) : Bool :=
  left.isEqv right fun leftPath rightPath => leftPath.isEqv rightPath Hop.same

end LedgerWire
