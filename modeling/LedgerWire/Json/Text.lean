import LedgerWire.Json.Basic

namespace LedgerWire.Json

open Text

/-!
JSON text. A whole literal that fits 64 bits is an integer and every other literal a double; the
text of a value is written without blanks.
-/

def skipBlanks (input : List Char) : List Char :=
  input.dropWhile fun character =>
    character == ' ' || character == '\n' || character == '\r' || character == '\t'

def isDigit (character : Char) : Bool :=
  '0' ≤ character && character ≤ '9'

/-- The digits of a literal that a 64-bit significand holds, and the exponent that goes with it:
further digits of the whole part raise it, digits of the fraction lower it, and those that no
longer fit are cut. -/
def significand (whole fraction : List Nat) : Nat × Int :=
  let addWhole (state : Nat × Int) (digit : Nat) : Nat × Int :=
    if state.2 = 0 ∧ state.1 * 10 + digit < UInt64.size then (state.1 * 10 + digit, 0)
    else (state.1, state.2 + 1)
  let addFraction (state : (Nat × Int) × Bool) (digit : Nat) : (Nat × Int) × Bool :=
    if state.2 ∧ state.1.1 * 10 + digit < UInt64.size then
      ((state.1.1 * 10 + digit, state.1.2 - 1), true)
    else (state.1, false)
  (fraction.foldl addFraction (whole.foldl addWhole (0, 0), true)).1

/-- The double of a literal: its significand is rounded first, then scaled. -/
def double? (negative : Bool) (whole fraction : List Nat) (exponent : Int) : Option Double := do
  let (significand, scale) := significand whole fraction
  (← Double.ofFraction? negative significand 1).scaleByTen? (scale + exponent)

/-- The number of a literal's parts. A minus zero is a double. -/
def number? (negative : Bool) (whole : List Nat) (fraction : List Nat) (exponent? : Option Int) :
    Option JsonNumber :=
  let value := Positional.value 10 whole
  if fraction.isEmpty && exponent?.isNone && !negative && value < UInt64.size then
    some (.integer value)
  else if fraction.isEmpty && exponent?.isNone && negative && 0 < value &&
      fitsSigned 64 (-(value : Int)) then
    some (.integer (-(value : Int)))
  else
    (double? negative whole fraction (exponent?.getD 0)).map .double

def digitsOf (characters : List Char) : List Nat :=
  characters.map fun character => character.toNat - '0'.toNat

def readFraction (input : List Char) : Option (List Nat × List Char) :=
  match input with
  | '.' :: rest =>
    let digits := rest.takeWhile isDigit
    if digits.isEmpty then none else some (digitsOf digits, rest.dropWhile isDigit)
  | _ => some ([], input)

def readExponent (input : List Char) : Option (Option Int × List Char) :=
  let read (negative : Bool) (rest : List Char) : Option (Option Int × List Char) :=
    let digits := rest.takeWhile isDigit
    let value : Int := Positional.value 10 (digitsOf digits)
    if digits.isEmpty then none
    else some (some (if negative then -value else value), rest.dropWhile isDigit)
  match input with
  | mark :: rest =>
    if mark == 'e' || mark == 'E' then
      match rest with
      | '-' :: digits => read true digits
      | '+' :: digits => read false digits
      | digits => read false digits
    else some (none, input)
  | [] => some (none, [])

/-- Reads a number. A whole part of several digits does not start with a zero. -/
def readNumber (input : List Char) : Option (Json × List Char) := do
  let (negative, unsigned) := match input with
    | '-' :: rest => (true, rest)
    | other => (false, other)
  let whole := digitsOf (unsigned.takeWhile isDigit)
  if whole.isEmpty || (whole.head? == some 0 && 1 < whole.length) then
    none
  let (fraction, afterFraction) ← readFraction (unsigned.dropWhile isDigit)
  let (exponent?, rest) ← readExponent afterFraction
  let number ← number? negative whole fraction exponent?
  some (.number number, rest)

/-- The character of an escape by letter. -/
def escapedLetter? (letter : Char) : Option Char :=
  match letter with
  | '"' => some '"'
  | '\\' => some '\\'
  | '/' => some '/'
  | 'b' => some '\x08'
  | 'f' => some '\x0c'
  | 'n' => some '\n'
  | 'r' => some '\r'
  | 't' => some '\t'
  | _ => none

/-- The number of four hexadecimal digits. -/
def unit? (digits : List Char) : Option Nat :=
  numeral? 16 digits

/-- The character of the two halves of a surrogate pair. -/
def pairedCharacter (high low : Nat) : Char :=
  Char.ofNat (0x10000 + (high - 0xD800) * 0x400 + (low - 0xDC00))

/-- Reads the characters of a string up to its closing quote. `done` holds those read, latest
first, and `high?` the first half of a surrogate pair, which the second half must follow. -/
def readString (done : List Char) (high? : Option Nat) :
    List Char → Option (String × List Char)
  | '\\' :: 'u' :: a :: b :: c :: d :: rest =>
    match unit? [a, b, c, d], high? with
    | none, _ => none
    | some unit, some high =>
      if 0xDC00 ≤ unit ∧ unit ≤ 0xDFFF then
        readString (pairedCharacter high unit :: done) none rest
      else none
    | some unit, none =>
      if 0xD800 ≤ unit ∧ unit ≤ 0xDBFF then readString done (some unit) rest
      else if 0xDC00 ≤ unit ∧ unit ≤ 0xDFFF then none
      else readString (Char.ofNat unit :: done) none rest
  | '\\' :: letter :: rest =>
    match escapedLetter? letter, high? with
    | some character, none => readString (character :: done) none rest
    | _, _ => none
  | '"' :: rest => if high?.isNone then some (String.ofList done.reverse, rest) else none
  | character :: rest =>
    if high?.isNone && 0x20 ≤ character.toNat then readString (character :: done) none rest
    else none
  | [] => none

/-- Reads a word that stands for a value. -/
def readWord (word : String) (value : Json) (input : List Char) : Option (Json × List Char) :=
  if word.toList.isPrefixOf input then some (value, input.drop word.length) else none

def readQuoted (input : List Char) : Option (String × List Char) :=
  match input with
  | '"' :: rest => readString [] none rest
  | _ => none

mutual

/-- Reads a value. Each step takes a character, so that the length of the text bounds the steps. -/
def readValue (steps : Nat) (input : List Char) : Option (Json × List Char) :=
  match steps, input with
  | 0, _ => none
  | _, [] => none
  | steps + 1, first :: rest =>
    if first == '\x7b' then
      match skipBlanks rest with
      | '\x7d' :: after => some (.object [], after)
      | members => readMembers steps [] members
    else if first == '[' then
      match skipBlanks rest with
      | ']' :: after => some (.array [], after)
      | items => readItems steps [] items
    else if first == '"' then
      (readString [] none rest).map fun (text, after) => (.string text, after)
    else if first == 't' then readWord "true" (.bool true) (first :: rest)
    else if first == 'f' then readWord "false" (.bool false) (first :: rest)
    else if first == 'n' then readWord "null" .null (first :: rest)
    else readNumber (first :: rest)

/-- Reads the items of an array up to its bracket; `done` holds those read, latest first. -/
def readItems (steps : Nat) (done : List Json) (input : List Char) : Option (Json × List Char) :=
  match steps with
  | 0 => none
  | steps + 1 =>
    match readValue steps (skipBlanks input) with
    | none => none
    | some (item, rest) =>
      match skipBlanks rest with
      | ',' :: after => readItems steps (item :: done) after
      | ']' :: after => some (.array (item :: done).reverse, after)
      | _ => none

/-- Reads the members of an object up to its brace; `done` holds those read, latest first. -/
def readMembers (steps : Nat) (done : List (String × Json)) (input : List Char) :
    Option (Json × List Char) :=
  match steps with
  | 0 => none
  | steps + 1 =>
    match readQuoted (skipBlanks input) with
    | none => none
    | some (key, afterKey) =>
      match skipBlanks afterKey with
      | ':' :: afterColon =>
        match readValue steps (skipBlanks afterColon) with
        | none => none
        | some (value, rest) =>
          match skipBlanks rest with
          | ',' :: after => readMembers steps ((key, value) :: done) after
          | '\x7d' :: after => some (ofMembers ((key, value) :: done).reverse, after)
          | _ => none
      | _ => none

end

def parse? (text : String) : Option Json :=
  let characters := text.toList
  match readValue (characters.length + 1) (skipBlanks characters) with
  | some (json, rest) => if (skipBlanks rest).isEmpty then some json else none
  | none => none

/-- The two hexadecimal digits of a control character's escape. -/
def controlEscape (character : Char) : String :=
  "\\u00" ++ String.ofList [Hex.digit (character.toNat / 16), Hex.digit (character.toNat % 16)]

def stringCharacter (character : Char) : String :=
  if character == '"' then "\\\""
  else if character == '\\' then "\\\\"
  else if character.toNat < 0x20 then controlEscape character
  else character.toString

def appendString (before : String) (text : String) : String :=
  (text.toList.foldl (fun written character => written ++ stringCharacter character)
    (before.push '"')).push '"'

mutual

/-- A text followed by the text of a value. -/
def append (before : String) : Json → String
  | .null => before ++ "null"
  | .bool true => before ++ "true"
  | .bool false => before ++ "false"
  | .number value => before ++ value.toText
  | .string text => appendString before text
  | .array items => (appendItems (before.push '[') items true).push ']'
  | .object members => (appendMembers (before.push '\x7b') members true).push '\x7d'

/-- A text followed by items, with commas between them. -/
def appendItems (before : String) (items : List Json) (first : Bool) : String :=
  match items with
  | [] => before
  | item :: rest =>
    appendItems (append (if first then before else before.push ',') item) rest false

/-- A text followed by members, with commas between them. -/
def appendMembers (before : String) (members : List (String × Json)) (first : Bool) : String :=
  match members with
  | [] => before
  | (key, value) :: rest =>
    appendMembers
      (append ((appendString (if first then before else before.push ',') key).push ':') value)
      rest false

end

def toText (json : Json) : String :=
  append "" json

end LedgerWire.Json
