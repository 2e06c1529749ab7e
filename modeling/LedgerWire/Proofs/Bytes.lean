import LedgerWire.Bytes
import LedgerWire.Positional
import Mathlib.Data.List.Induction

namespace LedgerWire

/-!
Big-endian numerals: a number below `256 ^ width` is the one that its `width` digits spell, and a
byte string is the numeral of the number it spells.
-/

namespace Bytes

theorem toNat_append_singleton (bytes : Bytes) (byte : UInt8) :
    toNat (bytes ++ [byte]) = toNat bytes * 256 + byte.toNat := by
  simp only [toNat, List.foldl_append, List.foldl_cons, List.foldl_nil]

theorem toNat_bigEndian {width number : Nat} (bound : number < Positional.weight 256 width) :
    toNat (bigEndian width number) = number := by
  induction width generalizing number with
  | zero =>
      have zero : number = 0 := Nat.lt_one_iff.mp bound
      rw [zero]
      rfl
  | succ width ih =>
      have split : Positional.weight 256 (width + 1) = Positional.weight 256 width * 256 := rfl
      have leading : number / 256 < Positional.weight 256 width := by omega
      rw [bigEndian, toNat_append_singleton, ih leading, UInt8.toNat_ofNat']
      omega

theorem toNat_lt (bytes : Bytes) : toNat bytes < Positional.weight 256 bytes.length := by
  induction bytes using List.reverseRecOn with
  | nil => exact Nat.one_pos
  | append_singleton leading byte ih =>
      have split : Positional.weight 256 (leading.length + 1) =
          Positional.weight 256 leading.length * 256 := rfl
      have small := byte.toNat_lt
      rw [toNat_append_singleton, List.length_append, List.length_singleton, split]
      omega

theorem bigEndian_toNat (bytes : Bytes) : bigEndian bytes.length (toNat bytes) = bytes := by
  induction bytes using List.reverseRecOn with
  | nil => rfl
  | append_singleton leading byte ih =>
      have small := byte.toNat_lt
      have high : (toNat leading * 256 + byte.toNat) / 256 = toNat leading := by omega
      have low : UInt8.ofNat (toNat leading * 256 + byte.toNat) = byte := by
        apply UInt8.toNat_inj.mp
        rw [UInt8.toNat_ofNat']
        omega
      rw [toNat_append_singleton, List.length_append, List.length_singleton, bigEndian, high, low,
        ih]

end Bytes

end LedgerWire
