import LedgerWire.Currency
import Mathlib.Data.List.GetD

namespace LedgerWire.Currency

/-!
Currencies in ISO form are determined by their code and flag, so that the comparison of currencies,
which looks at these only, is equality.
-/

variable {currency left right : Currency}

theorem length_toBytes (currency : Currency) : currency.toBytes.length = 20 :=
  currency.octets.length_toList

theorem eq_of_toBytes_eq (same : left.toBytes = right.toBytes) : left = right := by
  obtain ⟨leftBytes, leftLength⟩ := left
  obtain ⟨rightBytes, rightLength⟩ := right
  cases same
  rfl

/-- A currency in ISO form is the one that its code and flag make. -/
theorem ofCode_isoCode (isIso : currency.isIsoForm = true) :
    ofCode currency.isoCode currency.isoFlag = currency := by
  have length := currency.length_toBytes
  obtain ⟨leading, trailing⟩ := Bool.and_eq_true_iff.mp isIso
  have zeros {bytes : Bytes} {count : Nat} (all : bytes.all (· == 0) = true)
      (length : bytes.length = count) : List.replicate count 0 = bytes :=
    (List.eq_replicate_iff.mpr
      ⟨length, fun byte member => eq_of_beq (List.all_eq_true.mp all byte member)⟩).symm
  have head := zeros leading (show _ = 12 by rw [List.length_take, length]; rfl)
  have tail := zeros trailing (show _ = 4 by rw [List.length_take, List.length_drop, length]; rfl)
  have flag : currency.toBytes.drop 19 = [currency.isoFlag] := by
    rw [isoFlag, byteAt, List.getD_eq_getElem _ _ (by omega), List.drop_eq_getElem_cons (by omega),
      List.drop_of_length_le (by omega)]
  apply eq_of_toBytes_eq
  calc List.replicate 12 0 ++ (currency.toBytes.drop 12).take 3 ++ List.replicate 4 0 ++
        [currency.isoFlag]
      = currency.toBytes.take 12 ++ ((currency.toBytes.drop 12).take 3 ++
          ((currency.toBytes.drop 15).take 4 ++ currency.toBytes.drop 19)) := by
        rw [head, tail, flag, List.append_assoc, List.append_assoc]
    _ = currency.toBytes := by
        have fourth := List.take_append_drop 4 (currency.toBytes.drop 15)
        have third := List.take_append_drop 3 (currency.toBytes.drop 12)
        rw [List.drop_drop] at third fourth
        rw [fourth, third, List.take_append_drop]

theorem same_iff : left.same right = true ↔ left = right := by
  rw [same]
  split
  · rename_i isIso
    obtain ⟨leftIso, rightIso⟩ := Bool.and_eq_true_iff.mp isIso
    rw [Bool.and_eq_true_iff, beq_iff_eq, beq_iff_eq]
    constructor
    · rintro ⟨code, flag⟩
      rw [← ofCode_isoCode leftIso, ← ofCode_isoCode rightIso, code, flag]
    · rintro rfl
      exact ⟨rfl, rfl⟩
  · exact beq_iff_eq

section Kind

variable {code : Octets 3}

theorem kind_currency (asset : NativeAsset) : asset.currency.kind = .native asset := by
  cases asset <;> decide

theorem kind_of_iso (isIso : currency.isIsoForm = true) (named : currency.isoCode.isZero = false) :
    currency.kind = .iso currency.isoCode := by
  simp [kind, isIso, named]

theorem of_kind_iso (found : currency.kind = .iso code) :
    currency.isIsoForm = true ∧ currency.isoCode = code ∧ code.isZero = false := by
  cases isIso : currency.isIsoForm with
  | true =>
      cases named : currency.isoCode.isZero with
      | true => simp [kind, isIso, named] at found
      | false =>
          rw [kind_of_iso isIso named] at found
          cases found
          exact ⟨rfl, rfl, named⟩
  | false =>
      by_cases leading : currency.byteAt 0 = 1
      · simp [kind, isIso, leading] at found
      · simp [kind, isIso, leading] at found

theorem isNative_of_kind_iso (found : currency.kind = .iso code) : currency.isNative = false := by
  simp [isNative, nativeAsset?, found]

end Kind

section Code

variable (code : Octets 3) (flag : UInt8)

theorem toBytes_ofCode :
    (ofCode code flag).toBytes =
      List.replicate 12 0 ++ (code.toList ++ (List.replicate 4 0 ++ [flag])) := by
  simp [toBytes, ofCode]

theorem isIsoForm_ofCode : (ofCode code flag).isIsoForm = true := by
  have tail : (ofCode code flag).toBytes.drop 15 = List.replicate 4 0 ++ [flag] := by
    rw [toBytes_ofCode, ← List.append_assoc]
    exact List.drop_left' (by simp [code.length_toList])
  rw [isIsoForm, tail, toBytes_ofCode, List.take_left' (by simp)]
  rfl

theorem isoCode_ofCode : (ofCode code flag).isoCode = code := by
  have bytes : ((ofCode code flag).toBytes.drop 12).take 3 = code.toList := by
    rw [toBytes_ofCode, List.drop_left' (by simp), List.take_left' code.length_toList]
  obtain ⟨list, length⟩ := code
  simp only [isoCode, slice, Octets.mk.injEq]
  exact bytes

theorem isoFlag_ofCode : (ofCode code flag).isoFlag = flag := by
  have length : (List.replicate 12 0 ++ code.toList ++ List.replicate 4 0).length = 19 := by
    simp [code.length_toList]
  rw [isoFlag, byteAt, toBytes_ofCode, ← List.append_assoc, ← List.append_assoc,
    List.getD_append_right _ _ _ _ (Nat.le_of_eq length), length]
  rfl

theorem kind_ofCode {code : Octets 3} (named : code.isZero = false) :
    (ofCode code flag).kind = .iso code := by
  have isIso := isIsoForm_ofCode code flag
  rw [← isoCode_ofCode code flag] at named
  rw [kind_of_iso isIso named, isoCode_ofCode]

end Code

end LedgerWire.Currency
