import LedgerWire.Amount.Text
import LedgerWire.Proofs.Amount.Json

namespace LedgerWire

open Text

/-!
The text of amounts read back. A text is cut at its slashes, and of the printed parts neither the
value nor the issuer has one. So an amount is read back from its text if the currency prints without
a slash; a code may hold one, and then the text has more parts than any amount.
-/

/-- Whether a currency that needs an issuer prints as a code with a slash in it. -/
def Currency.PrintsSlash (currency : Currency) : Prop :=
  ∃ code, currency.kind = .iso code ∧ code.toList.all isGraphic = true ∧ 0x2F ∈ code.toList

section Slashes

theorem Hex.slash_notMem_encode (bytes : Bytes) : '/' ∉ (Hex.encode bytes).toList := by
  have each : ∀ value < 16, Hex.digit value ≠ '/' := by decide
  intro member
  obtain ⟨value, small, same⟩ := Hex.mem_encode member
  exact each value small same

theorem NativeAsset.slash_notMem_symbol (asset : NativeAsset) : '/' ∉ asset.symbol.toList := by
  cases asset <;> decide

theorem Decimal.slash_notMem_plain (decimal : Decimal) : '/' ∉ decimal.plain.toList := by
  have each : ∀ digit < 10, Hex.digit digit ≠ '/' := by decide
  intro member
  rcases Decimal.mem_plain member with sign | point | ⟨digit, small, same⟩
  · exact absurd sign (by decide)
  · exact absurd point (by decide)
  · exact each digit small same

theorem Account.slash_notMem_toAddress (account : Account) : '/' ∉ account.toAddress.toList :=
  fun member => absurd (Base58.mem_encode member) (by decide)

theorem Currency.slash_mem_codeText (code : Octets 3) :
    '/' ∈ (Currency.codeText code).toList ↔ 0x2F ∈ code.toList := by
  rw [Currency.codeText, String.toList_ofList, List.mem_map]
  constructor
  · rintro ⟨byte, member, same⟩
    have number : byte.toNat = (0x2F : UInt8).toNat := by
      rw [← Currency.toNat_glyph byte, same]
      rfl
    rwa [UInt8.toNat_inj.mp number] at member
  · exact fun member => ⟨_, member, rfl⟩

theorem Currency.slash_mem_toText (currency : Currency) :
    '/' ∈ currency.toText.toList ↔ currency.PrintsSlash := by
  have hex := Hex.slash_notMem_encode currency.toBytes
  unfold Currency.toText Currency.PrintsSlash
  cases currency.kind with
  | native asset => simp [asset.slash_notMem_symbol]
  | iso code =>
      dsimp only
      cases graphic : code.toList.all isGraphic with
      | true =>
          refine (slash_mem_codeText code).trans ⟨fun member => ⟨code, rfl, graphic, member⟩, ?_⟩
          rintro ⟨_, ⟨⟩, _, member⟩
          exact member
      | false =>
          refine iff_of_false hex ?_
          rintro ⟨_, ⟨⟩, printed, _⟩
          exact absurd printed (Bool.eq_false_iff.mp graphic)
  | demurrage parameters => simp [hex]
  | hash => simp [hex]

end Slashes

namespace Amount

theorem slashParts_eq (characters : List Char) : slashParts characters = characters.splitOn '/' := by
  fun_induction slashParts characters with
  | case1 => rfl
  | case2 rest ih => rw [ih, List.splitOn_cons_eq_if_modifyHead, if_pos (by decide)]
  | case3 character rest _ none ih => exact absurd (ih ▸ none) (List.splitOn_ne_nil '/' rest)
  | case4 character rest other part parts cut ih =>
      rw [List.splitOn_cons_eq_if_modifyHead, if_neg (by simpa using other), ← ih, cut]
      rfl

theorem slashParts_append (front back : List Char) :
    slashParts (front ++ '/' :: back) = slashParts front ++ slashParts back := by
  rw [slashParts_eq, slashParts_eq, slashParts_eq, List.splitOn_append_cons_self]

theorem slashParts_of_notMem {part : List Char} (clean : '/' ∉ part) : slashParts part = [part] := by
  rw [slashParts_eq, List.splitOn_eq_singleton clean]

theorem length_slashParts_pos (characters : List Char) : 0 < (slashParts characters).length := by
  rw [slashParts_eq]
  exact List.length_pos_iff.mpr (List.splitOn_ne_nil '/' characters)

section Parsing

variable {text valueText currencyText issuerText : String} {value : Decimal} {currency : Currency}
  (valueRead : Decimal.parse valueText = .ok value)
  (currencyRead : Currency.parse currencyText = .ok currency)

include valueRead currencyRead

theorem parse_two_parts {asset : NativeAsset}
    (parts : slashParts text.toList = [valueText.toList, currencyText.toList])
    (isNative : currency.nativeAsset? = some asset) : parse text = native asset value := by
  simp [parse, parts, String.ofList_toList, valueRead, currencyRead, isNative, bind, Except.bind]

theorem parse_three_parts {issuer : Account}
    (parts : slashParts text.toList =
      [valueText.toList, currencyText.toList, issuerText.toList])
    (issuerRead : Account.parse issuerText = .ok issuer) :
    parse text = issued value currency issuer := by
  simp [parse, parts, String.ofList_toList, valueRead, currencyRead, issuerRead, bind, Except.bind]

end Parsing

theorem parse_of_more_parts {text : String} (more : 4 ≤ (slashParts text.toList).length) :
    parse text = .error (.malformedAmount (.unrecognised text)) := by
  unfold parse
  match slashParts text.toList, more with
  | _ :: _ :: _ :: _ :: _, _ => rfl

section Printed

variable {amount : Amount}

theorem toList_toText_native (isNative : amount.isNative = true) :
    amount.toText.toList = amount.value.plain.toList ++ '/' :: amount.currency.toText.toList := by
  simp [toText, isNative]

theorem toList_toText_issued (isIssued : amount.isNative = false) :
    amount.toText.toList = amount.value.plain.toList ++ '/' ::
      (amount.currency.toText.toList ++ '/' :: amount.issuer.toAddress.toList) := by
  simp [toText, isIssued]

theorem slashParts_issued (isIssued : amount.isNative = false) :
    slashParts amount.toText.toList = amount.value.plain.toList ::
      (slashParts amount.currency.toText.toList ++ [amount.issuer.toAddress.toList]) := by
  rw [toList_toText_issued isIssued, slashParts_append, slashParts_append,
    slashParts_of_notMem amount.value.slash_notMem_plain,
    slashParts_of_notMem amount.issuer.slash_notMem_toAddress]
  rfl

theorem slashParts_native (isNative : amount.isNative = true)
    (clean : '/' ∉ amount.currency.toText.toList) :
    slashParts amount.toText.toList =
      [amount.value.plain.toList, amount.currency.toText.toList] := by
  rw [toList_toText_native isNative, slashParts_append,
    slashParts_of_notMem amount.value.slash_notMem_plain, slashParts_of_notMem clean]
  rfl

theorem not_printsSlash_of_isNative (isNative : amount.isNative = true) :
    ¬ amount.currency.PrintsSlash := by
  rintro ⟨code, found, _⟩
  have isIssued : amount.currency.isNative = false := Currency.isNative_of_kind_iso found
  exact absurd isNative (Bool.eq_false_iff.mp isIssued)

/-- A slash in the code makes a fourth part. -/
theorem parse_toText_slashed (slashed : amount.currency.PrintsSlash) :
    parse amount.toText = .error (.malformedAmount (.unrecognised amount.toText)) := by
  have isIssued : amount.isNative = false :=
    Bool.eq_false_iff.mpr fun isNative => not_printsSlash_of_isNative isNative slashed
  obtain ⟨front, back, cut⟩ := List.append_of_mem (amount.currency.slash_mem_toText.mpr slashed)
  have before := length_slashParts_pos front
  have behind := length_slashParts_pos back
  refine parse_of_more_parts ?_
  rw [slashParts_issued isIssued, cut, slashParts_append]
  simp only [List.length_cons, List.length_append, List.length_nil]
  omega

variable (valid : amount.Valid) (bounded : amount.unbounded = false)

include valid bounded

theorem parse_toText_native (isNative : amount.isNative = true) :
    parse amount.toText = .ok amount := by
  obtain ⟨asset, drops, _, built⟩ := exists_native valid isNative
  have currency : amount.currency = asset.currency := by rw [ofDrops_eq_ok built]
  have clean := (not_congr amount.currency.slash_mem_toText).mpr
    (not_printsSlash_of_isNative isNative)
  have currencyRead : Currency.parse amount.currency.toText = .ok asset.currency := by
    rw [currency]
    cases asset
    · exact Currency.parse_symbol .primary
    · exact Currency.parse_symbol .secondary
  rw [parse_two_parts (parse_plain_value valid bounded) currencyRead
    (slashParts_native isNative clean) (nativeAsset?_currency asset), native_self built]

theorem parse_toText_issued (isIssued : amount.isNative = false)
    (readable : Currency.parse amount.currency.toText = .ok amount.currency)
    (slashless : ¬ amount.currency.PrintsSlash) : parse amount.toText = .ok amount := by
  have clean := (not_congr amount.currency.slash_mem_toText).mpr slashless
  have parts := slashParts_issued isIssued
  rw [slashParts_of_notMem clean] at parts
  rw [parse_three_parts (parse_plain_value valid bounded) readable parts
    (Account.parse_toAddress amount.issuer), issued_self valid bounded isIssued]

/-- An amount of no more digits than the wire holds is read back from its text, if its currency is
read back from its own and does not print with a slash. With a slash the text is refused. -/
theorem text_reads_back_unless_slashed
    (readable : Currency.parse amount.currency.toText = .ok amount.currency) :
    (¬ amount.currency.PrintsSlash → parse amount.toText = .ok amount) ∧
      (amount.currency.PrintsSlash →
        parse amount.toText = .error (.malformedAmount (.unrecognised amount.toText))) := by
  refine ⟨fun slashless => ?_, parse_toText_slashed⟩
  cases isNative : amount.isNative with
  | true => exact parse_toText_native valid bounded isNative
  | false => exact parse_toText_issued valid bounded isNative readable slashless

end Printed

/-- One unit of the code `A/B`, issued by the neutral account. -/
def slashedUnit : Amount :=
  ⟨⟨false, 1, 0⟩, Currency.ofCode ⟨[0x41, 0x2F, 0x42], rfl⟩ 0, Account.one, false⟩

/-- The value of early ledgers. -/
def earlyLedger : Amount :=
  ⟨⟨false, 1, 12⟩, NativeAsset.primary.currency, Account.zero, false⟩

/-- The value of early ledgers is read back; a unit of a code with a slash is not, although the code
itself is. -/
theorem text_reads_back_unless_slashed_unit :
    (earlyLedger.Valid ∧ parse "1000000000000/VRP" = .ok earlyLedger) ∧
      slashedUnit.Valid ∧ Currency.parse "A/B" = .ok slashedUnit.currency ∧
      slashedUnit.toText = "1/A/B/rrrrrrrrrrrrrrrrrrrrBZbvji" ∧
      parse slashedUnit.toText = .error (.malformedAmount (.unrecognised slashedUnit.toText)) := by
  have earlyNormal : Decimal.IsNormal ⟨false, 1, 12⟩ := Or.inr (show 1 % 10 ≠ 0 by decide)
  have earlyBuilt : native .primary ⟨false, 1, 12⟩ = .ok earlyLedger := by decide +kernel
  have earlyValid : earlyLedger.Valid := valid_native earlyNormal earlyBuilt
  have earlyText : earlyLedger.toText = "1000000000000/VRP" := by decide +kernel
  have early := text_reads_back_unless_slashed earlyValid rfl (Currency.parse_symbol .primary)
  have unitNormal : Decimal.IsNormal ⟨false, 1, 0⟩ := Or.inr (show 1 % 10 ≠ 0 by decide)
  have unitBuilt : issued ⟨false, 1, 0⟩ slashedUnit.currency Account.one = .ok slashedUnit := by
    decide +kernel
  have unitValid : slashedUnit.Valid := valid_issued unitNormal unitBuilt
  have readable : Currency.parse "A/B" = .ok slashedUnit.currency := by decide +kernel
  have unitText : slashedUnit.toText = "1/A/B/rrrrrrrrrrrrrrrrrrrrBZbvji" := by decide +kernel
  have slashed : slashedUnit.currency.PrintsSlash :=
    ⟨⟨[0x41, 0x2F, 0x42], rfl⟩, by decide, by decide, by decide⟩
  rw [earlyText] at early
  exact ⟨⟨earlyValid, early.1 (not_printsSlash_of_isNative rfl)⟩, unitValid, readable, unitText,
    (text_reads_back_unless_slashed unitValid rfl readable).2 slashed⟩

end Amount

end LedgerWire
