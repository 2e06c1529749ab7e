import LedgerWire.Bytes
import Mathlib.Algebra.Order.BigOperators.Group.List

namespace LedgerWire.Text

/-!
The bytes of a text are as many as its size says; those of ASCII text are the code points of its
characters.
-/

theorem utf8EncodeChar_ascii {char : Char} (ascii : char.toNat < 128) :
    String.utf8EncodeChar char = [UInt8.ofNat char.toNat] := by
  have narrow : char.val.toNat ≤ 127 := Nat.le_of_lt_succ ascii
  unfold String.utf8EncodeChar
  exact if_pos narrow

theorem ofText_ofList {chars : List Char} (ascii : ∀ char ∈ chars, char.toNat < 128) :
    Bytes.ofText (String.ofList chars) = chars.map fun char => UInt8.ofNat char.toNat := by
  unfold Bytes.ofText
  rw [String.toList_ofList]
  induction chars with
  | nil => rfl
  | cons char rest ih =>
      have others := ih fun char member => ascii char (List.mem_cons_of_mem _ member)
      rw [List.flatMap_cons, List.map_cons, utf8EncodeChar_ascii (ascii char List.mem_cons_self),
        others]
      rfl

theorem utf8ByteSize_eq_length (text : String) :
    text.utf8ByteSize = (Bytes.ofText text).length := by
  have size : (String.ofList text.toList).toByteArray.size = (Bytes.ofText text).length := by
    rw [String.toByteArray_ofList]
    exact List.size_toByteArray
  rw [String.ofList_toList] at size
  exact size

/-- Every character takes a byte at least. -/
theorem length_toList_le (text : String) : text.toList.length ≤ text.utf8ByteSize := by
  have bytes : ∀ width ∈ text.toList.map fun char => (String.utf8EncodeChar char).length,
      1 ≤ width := by
    intro width member
    obtain ⟨char, _, rfl⟩ := List.mem_map.mp member
    rw [String.length_utf8EncodeChar]
    exact char.utf8Size_pos
  have sum := List.length_le_sum_of_one_le _ bytes
  rwa [List.length_map, ← List.length_flatMap, ← Bytes.ofText, ← utf8ByteSize_eq_length] at sum

end LedgerWire.Text
