import LedgerWire.Text.Combining
import LedgerWire.Text.Invisible

namespace LedgerWire.Text

/-!
Which code points have a glyph of their own. Quoted text spells the others by number: those
that show nothing and those that only modify the character before them.
-/

/-- Whether a code point lies in one of the inclusive ranges. -/
def inRanges (ranges : List (Nat × Nat)) (codePoint : Nat) : Bool :=
  ranges.any fun range => range.1 ≤ codePoint && codePoint ≤ range.2

/-- Whether a character stands for itself in quoted text. Printable ASCII is decided first. -/
def isVisible (character : Char) : Bool :=
  if character.toNat < 0x7F then
    0x20 ≤ character.toNat
  else
    !inRanges invisibleRanges character.toNat && !inRanges combiningRanges character.toNat

end LedgerWire.Text
