import LedgerWire.Text.Visible

namespace LedgerWire.Text

/-!
Quoting of text inside messages. The delimiter and the backslash are escaped by a backslash,
tab, line feed, carriage return and NUL by their letters, and every other character without a
glyph by its code point in lower-case hexadecimal.
-/

/-- Lower-case hexadecimal without leading zeros. -/
def lowerHex (number : Nat) : String :=
  String.ofList (Nat.toDigits 16 number)

/-- One character inside text that ends at `delimiter`. -/
def escaped (delimiter character : Char) : String :=
  match character with
  | '\t' => "\\t"
  | '\n' => "\\n"
  | '\r' => "\\r"
  | '\x00' => "\\0"
  | '\\' => "\\\\"
  | other =>
    if other = delimiter then
      String.ofList ['\\', other]
    else if isVisible other then
      other.toString
    else
      "\\u\x7b" ++ lowerHex other.toNat ++ "\x7d"

def quoted (text : String) : String :=
  "\"" ++ String.join (text.toList.map (escaped '"')) ++ "\""

def quotedChar (character : Char) : String :=
  "'" ++ escaped '\'' character ++ "'"

end LedgerWire.Text
