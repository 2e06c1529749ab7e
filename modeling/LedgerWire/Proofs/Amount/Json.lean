import LedgerWire.Proofs.Account.Address
import LedgerWire.Proofs.Amount.Rounding
import LedgerWire.Proofs.Amount.Wire
import LedgerWire.Proofs.Currency.Text
import LedgerWire.Proofs.Decimal.Text
import LedgerWire.Proofs.Json.Members

namespace LedgerWire.Amount

/-!
Amounts read back from JSON. The drops, the value, the currency and the issuer are each read back
from their text; of the members of an object each is found under its own name. What is lost is
whether the amount was unbounded.
-/

variable {amount : Amount}

theorem valid_settled (valid : amount.Valid) : amount.settled.Valid := by
  cases isNative : amount.isNative with
  | true =>
      have same : amount.settled = amount := by
        obtain ⟨_, _, _, bounded⟩ := valid.native isNative
        rw [settled, wireValue_of_isNative isNative, ← bounded]
      rw [same]
      exact valid
  | false =>
      have rounded := wireValue_of_issued isNative
      have checked : checkIssued amount.wireValue false = .ok () := by
        rw [rounded]
        exact checkIssued_rounded valid.bounded
          ((check_of_issued isNative).symm.trans valid.checked)
      have isIssued : amount.settled.isNative = false := isNative
      refine ⟨?_, mantissa_le_of_checkIssued checked, (check_of_issued isIssued).trans checked, ?_⟩
      · change amount.wireValue.IsNormal
        rw [rounded]
        exact valid.normal.roundSignificant _
      · intro native
        rw [isIssued] at native
        cases native

/-- An amount of drops is made by the native value that it has. -/
theorem native_self {asset : NativeAsset} {drops : Int}
    (built : ofDrops asset drops = .ok amount) : native asset amount.value = .ok amount := by
  rw [← built, ofDrops, ofDrops_eq_ok built]

theorem toJson_settled (short : amount.wireValue = amount.value) :
    amount.settled.toJson = amount.toJson := by
  unfold toJson drops? isNative nativeAsset? settled
  rw [short]

section Members

variable {members : List (String × Json)} {value : Decimal} {valueText currencyText : String}
  {currency : Currency}
  (valueFound : Json.lookup members "value" = some (.string valueText))
  (currencyFound : Json.lookup members "currency" = some (.string currencyText))
  (valueRead : Decimal.parse valueText = .ok value)
  (currencyRead : Currency.parse currencyText = .ok currency)

include valueFound currencyFound valueRead currencyRead

theorem ofJson_native {asset : NativeAsset} (isNative : currency.nativeAsset? = some asset) :
    ofJson (.object members) = native asset value := by
  simp [ofJson, memberText, valueFound, currencyFound, valueRead, currencyRead, isNative, bind,
    Except.bind]

theorem ofJson_issued {issuerText : String} {issuer : Account}
    (issuerFound : Json.lookup members "issuer" = some (.string issuerText))
    (issuerRead : Account.parse issuerText = .ok issuer)
    (isIssued : currency.nativeAsset? = none) :
    ofJson (.object members) = issued value currency issuer := by
  simp [ofJson, memberText, valueFound, currencyFound, issuerFound, valueRead, currencyRead,
    issuerRead, isIssued, bind, Except.bind]

end Members

section Bounded

variable (valid : amount.Valid) (bounded : amount.unbounded = false)
include valid bounded

theorem parse_plain_value : Decimal.parse amount.value.plain = .ok amount.value := by
  obtain ⟨digits, lower, upper⟩ := valid.digits bounded
  have short : amount.value.precision ≤ Limits.decimalPrecision := by
    simp only [Limits.decimalPrecision]
    omega
  refine Decimal.parse_plain valid.normal short ?_
  rw [Decimal.leadingExponent, Decimal.clamp_of_small (by omega), Limits.decimalExponent]
  omega

theorem issued_self (isIssued : amount.isNative = false) :
    issued amount.value amount.currency amount.issuer = .ok amount := by
  have checked := (check_of_issued isIssued).symm.trans valid.checked
  rw [bounded] at checked
  rw [issued_eq_ok isIssued checked, ← bounded]

theorem ofJson_toJson_native (isNative : amount.isNative = true) :
    ofJson amount.toJson = .ok amount := by
  obtain ⟨asset, drops, bound, built⟩ := exists_native valid isNative
  have valueRead := parse_plain_value valid bounded
  have made := ofDrops_eq_ok built
  have asset? : amount.nativeAsset? = some asset := by
    rw [made]
    exact nativeAsset?_currency asset
  have found : toDrops? amount.value = some drops := by
    rw [made]
    exact toDrops?_shift_ofInt (by omega)
  have spelled := drops?_eq_some isNative found (by omega)
  cases asset with
  | primary =>
      have fits : Text.fitsSigned 64 drops = true := by
        rw [drops?, if_pos isNative, Option.filter_eq_some_iff] at spelled
        exact spelled.2
      simp only [toJson, asset?, spelled, ofJson, parseDrops, Text.signed?_toString fits, built]
  | secondary =>
      have currencyRead : Currency.parse amount.currency.toText = .ok amount.currency := by
        rw [made]
        exact Currency.parse_symbol .secondary
      simp only [toJson, asset?, Json.ofMembers, List.foldl_cons, List.foldl_nil]
      rw [ofJson_native (by simp) (by simp) valueRead currencyRead asset?, native_self built]

theorem ofJson_toJson_issued (isIssued : amount.isNative = false)
    (readable : Currency.parse amount.currency.toText = .ok amount.currency) :
    ofJson amount.toJson = .ok amount := by
  have valueRead := parse_plain_value valid bounded
  have asset? : amount.nativeAsset? = none := Option.not_isSome_iff_eq_none.mp (by
    rw [← Bool.not_eq_true] at isIssued
    exact isIssued)
  simp only [toJson, asset?, Json.ofMembers, List.foldl_cons, List.foldl_nil]
  have issuerRead := Account.parse_toAddress amount.issuer
  rw [ofJson_issued (by simp) (by simp) valueRead readable (by simp) issuerRead asset?,
    issued_self valid bounded isIssued]

end Bounded

/-- An amount of no more digits than the wire holds is read back from its JSON form, as bounded. -/
theorem ofJson_toJson (valid : amount.Valid) (short : amount.wireValue = amount.value)
    (readable : amount.isNative = false →
      Currency.parse amount.currency.toText = .ok amount.currency) :
    ofJson amount.toJson = .ok amount.settled := by
  rw [← toJson_settled short]
  cases isNative : amount.isNative with
  | true => exact ofJson_toJson_native (valid_settled valid) rfl isNative
  | false => exact ofJson_toJson_issued (valid_settled valid) rfl isNative (readable isNative)

end LedgerWire.Amount
