import LedgerWire.Proofs.Currency
import LedgerWire.Proofs.Text.Ascii
import LedgerWire.Proofs.Text.Hex
import LedgerWire.Proofs.Wire.Reading

namespace LedgerWire

open Text

/-!
What a currency is taken for in print. Hexadecimal says every byte, but a symbol stands for one
identifier of its asset, and a printed code is read without a flag, or as the symbol it spells. All
other currencies read back from their text as themselves, and so no two of them print alike.
-/

namespace Currency

/-- The text of a code all of whose bytes have a glyph. -/
def codeText (code : Octets 3) : String :=
  String.ofList (code.toList.map fun byte => Char.ofNat byte.toNat)

/-- The currency that the text of a printed code is read as. -/
def ofCodeText (code : Octets 3) : Currency :=
  if codeText code = NativeAsset.primary.symbol then NativeAsset.primary.currency
  else if codeText code = NativeAsset.secondary.symbol then NativeAsset.secondary.currency
  else ofCode code 0

/-- The currency that a currency's text is read as. -/
def printed (currency : Currency) : Currency :=
  match currency.kind with
  | .native asset => asset.currency
  | .iso code => if code.toList.all isGraphic then ofCodeText code else currency
  | _ => currency

/-- Whether a currency that needs an issuer has a code that spells the symbol of a native asset. -/
def SpellsSymbol (currency : Currency) : Prop :=
  ∃ code, currency.kind = .iso code ∧ ∃ asset : NativeAsset, codeText code = asset.symbol

/-- Whether a currency's text says everything about it: a native asset has the flag of its symbol,
and a code that is printed has none and spells no symbol. -/
def Legible (currency : Currency) : Prop :=
  match currency.kind with
  | .native asset => currency = asset.currency
  | .iso code => code.toList.all isGraphic = true →
      currency.isoFlag = 0 ∧ ∀ asset : NativeAsset, codeText code ≠ asset.symbol
  | _ => True

section Reading

variable {currency : Currency} {code : Octets 3}

theorem toNat_glyph (byte : UInt8) : (Char.ofNat byte.toNat).toNat = byte.toNat := by
  have narrow : byte.toNat < 256 := byte.toNat_lt
  have valid : byte.toNat.isValidChar := Or.inl (by omega)
  rw [Char.ofNat, dif_pos valid]
  rfl

theorem isGraphic_iff {byte : UInt8} : isGraphic byte = true ↔ 33 ≤ byte.toNat ∧ byte.toNat ≤ 126 := by
  simp [isGraphic, UInt8.le_iff_toNat_le]

theorem parse_hexText (currency : Currency) :
    parse (Hex.encode currency.toBytes) = .ok currency := by
  have size : (Hex.encode currency.toBytes).utf8ByteSize = 40 := by
    rw [utf8ByteSize_eq_length, Hex.length_ofText_encode, currency.length_toBytes]
  simp only [parse, size, if_true, Hex.decode_encode, ofBytes]
  rw [toBytes, Octets.ofBytes?_toList]

theorem parse_symbol (asset : NativeAsset) : parse asset.symbol = .ok asset.currency := by
  cases asset <;> decide +kernel

theorem parse_codeText (graphic : code.toList.all isGraphic = true) :
    parse (codeText code) = .ok (ofCodeText code) := by
  have ascii : ∀ char ∈ code.toList.map fun byte => Char.ofNat byte.toNat, char.toNat < 128 := by
    intro char member
    obtain ⟨byte, found, rfl⟩ := List.mem_map.mp member
    have bounds := isGraphic_iff.mp (List.all_eq_true.mp graphic byte found)
    rw [toNat_glyph]
    omega
  have bytes : Bytes.ofText (codeText code) = code.toList := by
    rw [codeText, ofText_ofList ascii, List.map_map]
    refine (List.map_congr_left fun byte member => ?_).trans (List.map_id code.toList)
    simp [toNat_glyph]
  have size : (codeText code).utf8ByteSize ≠ 40 := by
    rw [utf8ByteSize_eq_length, bytes, code.length_toList]
    decide
  have found : code? (codeText code) = some code := by
    have all : (codeText code).toList.all (·.toNat < 128) = true := by
      rw [codeText, String.toList_ofList]
      exact List.all_eq_true.mpr fun char member => decide_eq_true (ascii char member)
    rw [code?, if_pos all, bytes, Octets.ofBytes?_toList]
  simp only [parse, size, if_false, found, ofCodeText]
  split
  · rfl
  · split <;> rfl

theorem parse_toText (currency : Currency) : parse currency.toText = .ok currency.printed := by
  unfold toText printed
  cases currency.kind with
  | native asset => exact parse_symbol asset
  | iso code =>
      by_cases graphic : code.toList.all isGraphic
      · simp only [graphic, if_true]
        exact parse_codeText graphic
      · simp only [graphic]
        exact parse_hexText currency
  | demurrage parameters => exact parse_hexText currency
  | hash => exact parse_hexText currency

theorem codeText_of_ne_symbol (spelled : ∀ asset : NativeAsset, codeText code ≠ asset.symbol) :
    ofCodeText code = ofCode code 0 := by
  simp [ofCodeText, spelled]

theorem exists_asset_of_codeText {asset : NativeAsset} (spelled : codeText code = asset.symbol) :
    ∃ named : NativeAsset, ofCodeText code = named.currency := by
  cases asset with
  | primary => exact ⟨.primary, by simp [ofCodeText, spelled]⟩
  | secondary => exact ⟨.secondary, by simp [ofCodeText, spelled]; decide⟩

theorem isNative_ofCodeText (named : code.isZero = false) :
    (ofCodeText code).isNative = true ↔ ∃ asset : NativeAsset, codeText code = asset.symbol := by
  constructor
  · intro isNative
    by_contra unspelled
    rw [codeText_of_ne_symbol fun asset spelled => unspelled ⟨asset, spelled⟩,
      isNative_of_kind_iso (kind_ofCode 0 named)] at isNative
    cases isNative
  · intro ⟨asset, spelled⟩
    obtain ⟨meant, printed⟩ := exists_asset_of_codeText spelled
    simp [printed, isNative, nativeAsset?, kind_currency]

theorem ofCodeText_eq_iff (found : currency.kind = .iso code) :
    ofCodeText code = currency ↔
      currency.isoFlag = 0 ∧ ∀ asset : NativeAsset, codeText code ≠ asset.symbol := by
  obtain ⟨isIso, sameCode, named⟩ := of_kind_iso found
  have made : ofCode code currency.isoFlag = currency := sameCode ▸ ofCode_isoCode isIso
  constructor
  · intro same
    have unspelled : ∀ asset : NativeAsset, codeText code ≠ asset.symbol := by
      intro asset spelled
      have isNative := (isNative_ofCodeText named).mpr ⟨asset, spelled⟩
      rw [same, isNative_of_kind_iso found] at isNative
      cases isNative
    rw [codeText_of_ne_symbol unspelled] at same
    exact ⟨by rw [← same, isoFlag_ofCode], unspelled⟩
  · intro ⟨noFlag, unspelled⟩
    rw [codeText_of_ne_symbol unspelled, ← noFlag, made]

theorem printed_eq_iff : currency.printed = currency ↔ currency.Legible := by
  unfold printed Legible
  cases found : currency.kind with
  | native asset => exact eq_comm
  | iso code =>
      by_cases graphic : code.toList.all isGraphic
      · simp [graphic, ofCodeText_eq_iff found]
      · simp [graphic]
  | demurrage parameters => simp
  | hash => simp

theorem graphic_of_codeText {asset : NativeAsset} (spelled : codeText code = asset.symbol) :
    code.toList.all isGraphic = true := by
  have bounds : asset.symbol.toList.all (fun char => 33 ≤ char.toNat && char.toNat ≤ 126) = true := by
    cases asset <;> decide
  rw [← spelled, codeText, String.toList_ofList] at bounds
  refine List.all_eq_true.mpr fun byte member => isGraphic_iff.mpr ?_
  have inside := List.all_eq_true.mp bounds _ (List.mem_map_of_mem member)
  rw [Bool.and_eq_true, decide_eq_true_iff, decide_eq_true_iff] at inside
  rw [← toNat_glyph byte]
  exact inside

theorem isNative_printed :
    currency.printed.isNative = true ↔ currency.isNative = true ∨ currency.SpellsSymbol := by
  unfold printed SpellsSymbol
  cases found : currency.kind with
  | native asset => simp [isNative, nativeAsset?, kind_currency, found]
  | iso code =>
      by_cases graphic : code.toList.all isGraphic
      · simp [graphic, isNative_ofCodeText (of_kind_iso found).2.2, isNative_of_kind_iso found]
      · have unspelled : ∀ asset : NativeAsset, codeText code ≠ asset.symbol :=
          fun asset spelled => graphic (graphic_of_codeText spelled)
        simp [graphic, unspelled]
  | demurrage parameters => simp
  | hash => simp

/-- Every currency's text is read, as that currency when it is legible and as another one
otherwise. Only texts of native assets and of codes that spell their symbols are read as native,
and legible currencies that print alike are the same. -/
theorem reads_back_iff_legible (currency : Currency) :
    ∃ read, parse currency.toText = .ok read ∧
      (read.same currency = true ↔ currency.Legible) ∧
      (read.isNative = true ↔ currency.isNative = true ∨ currency.SpellsSymbol) ∧
      (currency.Legible → ∀ other : Currency, other.Legible → other.toText = currency.toText →
        other.same currency = true) := by
  refine ⟨currency.printed, parse_toText currency, same_iff.trans printed_eq_iff, isNative_printed,
    ?_⟩
  intro legible other otherLegible alike
  have read : parse other.toText = parse currency.toText := congrArg parse alike
  rw [parse_toText, parse_toText] at read
  rw [printed_eq_iff.mpr otherLegible, printed_eq_iff.mpr legible] at read
  exact same_iff.mpr (Except.ok.inj read)

example : parse (ofCode ⟨[0x56, 0x52, 0x50], rfl⟩ 0).toText = .ok NativeAsset.primary.currency := by
  decide +kernel

end Reading

end Currency

end LedgerWire
