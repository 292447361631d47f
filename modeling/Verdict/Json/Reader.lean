import Verdict.Json.Source
import Verdict.Number.Literal

/-!
# Reading JSON texts

`Source.read` cuts a text into a `Source` and the characters after it. It takes every text: what
breaks the grammar becomes a broken part, and nothing is read beyond it. `Json.parse` decodes a
whole text to a value, and `Source.decodeWhole` does the same with any decoder.
-/

namespace Verdict

namespace Json

/-- White space between the parts of a text. -/
def isSpace (c : Char) : Bool :=
  c == ' ' || c == '\n' || c == '\t' || c == '\r'

namespace Source

/-! ## Strings -/

/-- A string as it was read: closed, with its text if every escape names a character, or broken
off. -/
inductive Quote where
  | closed (text : Option String) (rest : List Char)
  | broken (decoding skipping : Break)
deriving Repr, Inhabited

/-- The four hexadecimal digits of an escape, as their value and what follows them. A text that
ends within four bytes is cut short; anything else than digits is malformed. -/
def readHex : List Char → Except Break (Nat × List Char)
  | a :: b :: c :: d :: rest =>
    match Text.natOfHex? [a, b, c, d] with
    | some value => .ok (value, rest)
    | none => .error .malformed
  | cs => if (String.ofList cs).utf8ByteSize < 4 then .error .cut else .error .malformed

/-- The character that a letter stands for after a backslash. -/
def escaped? : Char → Option Char
  | '"' => some '"'
  | '\\' => some '\\'
  | '/' => some '/'
  | 'b' => some '\x08'
  | 'f' => some '\x0c'
  | 'n' => some '\n'
  | 'r' => some '\r'
  | 't' => some '\t'
  | _ => none

/-- The break for one who decodes, when an escape before it named no character. -/
def breakAfter (sound : Bool) (found : Break) : Quote :=
  .broken (if sound then found else .malformed) found

/-- Reads a string after its opening quote. `sound` tells whether every escape so far named a
character and `out` holds the characters so far, in reverse; `fuel` bounds the characters read.
A pair of escapes that are the halves of one character counts as that character. -/
def readQuote : Nat → Bool → List Char → List Char → Quote
  | 0, sound, _, _ => breakAfter sound .cut
  | _ + 1, sound, _, [] => breakAfter sound .cut
  | _ + 1, sound, out, '"' :: rest =>
    .closed (if sound then some (String.ofList out.reverse) else none) rest
  | _ + 1, sound, _, ['\\'] => breakAfter sound .cut
  | fuel + 1, sound, out, '\\' :: 'u' :: rest =>
    match readHex rest with
    | .error found => breakAfter sound found
    | .ok (unit, rest') =>
      if unit < 0xD800 || 0xDFFF < unit then
        readQuote fuel sound (Char.ofNat unit :: out) rest'
      else if 0xDC00 ≤ unit then readQuote fuel false out rest'
      else
        match rest' with
        | '\\' :: 'u' :: rest'' =>
          match readHex rest'' with
          | .error found => breakAfter sound found
          | .ok (low, rest''') =>
            if 0xDC00 ≤ low && low ≤ 0xDFFF then
              let code := 0x10000 + (unit - 0xD800) * 0x400 + (low - 0xDC00)
              readQuote fuel sound (Char.ofNat code :: out) rest'''
            else readQuote fuel false out rest'
        | [] => breakAfter sound .cut
        | ['\\'] => breakAfter sound .cut
        | _ => readQuote fuel false out rest'
  | fuel + 1, sound, out, '\\' :: letter :: rest =>
    match escaped? letter with
    | some c => readQuote fuel sound (c :: out) rest
    | none => breakAfter sound .malformed
  | fuel + 1, sound, out, c :: rest =>
    if c.toNat < 0x20 then breakAfter sound .malformed
    else readQuote fuel sound (c :: out) rest

/-- Reads a string after its opening quote; `fuel` bounds its characters. -/
def readString (fuel : Nat) (cs : List Char) : Quote :=
  readQuote fuel true [] cs

/-! ## Numerals -/

/-- The break at a place where a digit is missing. -/
def missingDigit : List Char → Break
  | [] => .cut
  | _ => .malformed

/-- The exponent of a numeral after its letter, and what follows it. -/
def readExponent (cs : List Char) : Except Break (Int × List Char) :=
  let (negative, afterSign) := splitSign cs
  let (digits, rest) := splitDigits afterSign
  if digits.isEmpty then .error (missingDigit rest)
  else
    let value := Text.natOfDigits digits
    .ok (if negative then -(value : Int) else value, rest)

/-- Reads the part of a numeral after its digits before the point and after the point. -/
def readExponentPart (negative : Bool) (whole : List Char) (fraction : Option (List Char))
    (cs : List Char) : Except Break (Numeral × List Char) :=
  match cs with
  | c :: rest =>
    if c == 'e' || c == 'E' then
      (readExponent rest).map fun (exponent, rest') =>
        (⟨negative, whole, fraction, some exponent⟩, rest')
    else .ok (⟨negative, whole, fraction, none⟩, cs)
  | [] => .ok (⟨negative, whole, fraction, none⟩, cs)

/-- Reads a numeral after its sign: zero stands alone before the point, and a point is followed
by a digit. -/
def readNumeral (negative : Bool) (cs : List Char) : Except Break (Numeral × List Char) :=
  let (whole, afterWhole) := splitDigits cs
  match whole with
  | [] => .error (missingDigit cs)
  | '0' :: _ :: _ => .error .malformed
  | _ =>
    match afterWhole with
    | '.' :: afterPoint =>
      let (fraction, rest) := splitDigits afterPoint
      if fraction.isEmpty then .error (missingDigit rest)
      else readExponentPart negative whole (some fraction) rest
    | _ => readExponentPart negative whole none afterWhole

/-- A numeral as a part of the text. -/
def ofNumeral : Except Break (Numeral × List Char) → Source × List Char
  | .ok (numeral, rest) => (.number numeral, rest)
  | .error decoding => (.broken .plain decoding .malformed, [])

/-! ## Values -/

/-- Reads the rest of a word whose first letter has been read. -/
def readWord (value : Source) : List Char → List Char → Source × List Char
  | [], rest => (value, rest)
  | _ :: _, [] => (.broken .plain .cut .cut, [])
  | expected :: word, c :: rest =>
    if c == expected then readWord value word rest else (.broken .plain .malformed .malformed, [])

/-- The members when a key has been read but no value can follow. -/
def keyWithout (key : Option String) (found : Break) : Members × List Char :=
  (.cons key (.broken .nothing found found) (.fault found), [])

mutual

/-- Reads a value and returns what follows it; `fuel` bounds the work. -/
def readValue : Nat → List Char → Source × List Char
  | 0, _ => (.broken .nothing .malformed .malformed, [])
  | fuel + 1, cs =>
    match cs.dropWhile isSpace with
    | [] => (.broken .nothing .cut .cut, [])
    | '-' :: rest => ofNumeral (readNumeral true rest)
    | '"' :: rest =>
      match readString fuel rest with
      | .closed text rest' => (.string text, rest')
      | .broken decoding skipping => (.broken .quote decoding skipping, [])
    | '[' :: rest =>
      let (items, rest') := readItems fuel true rest
      (.array items, rest')
    | '{' :: rest =>
      let (members, rest') := readMembers fuel true rest
      (.object members, rest')
    | 'n' :: rest => readWord .null ['u', 'l', 'l'] rest
    | 't' :: rest => readWord (.bool true) ['r', 'u', 'e'] rest
    | 'f' :: rest => readWord (.bool false) ['a', 'l', 's', 'e'] rest
    | c :: rest =>
      if c.isDigit then ofNumeral (readNumeral false (c :: rest))
      else (.broken .nothing .malformed .malformed, [])

/-- Reads items up to the closing bracket; `first` tells that none has been read. -/
def readItems : Nat → Bool → List Char → Items × List Char
  | 0, _, _ => (.fault .malformed, [])
  | fuel + 1, first, cs =>
    match cs.dropWhile isSpace with
    | [] => (.fault .cut, [])
    | ']' :: rest => (.nil, rest)
    | c :: rest =>
      if first then
        let (item, rest') := readValue fuel (c :: rest)
        let (items, rest'') := readItems fuel false rest'
        (.cons item items, rest'')
      else if c == ',' then
        let (item, rest') := readValue fuel rest
        let (items, rest'') := readItems fuel false rest'
        (.cons item items, rest'')
      else (.fault .malformed, [])

/-- Reads members up to the closing brace; `first` tells that none has been read. -/
def readMembers : Nat → Bool → List Char → Members × List Char
  | 0, _, _ => (.fault .malformed, [])
  | fuel + 1, first, cs =>
    match cs.dropWhile isSpace with
    | [] => (.fault .cut, [])
    | '}' :: rest => (.nil, rest)
    | '"' :: rest =>
      if first then readMember fuel rest else (.fault .malformed, [])
    | ',' :: rest =>
      if first then (.stray (.broken .nothing .malformed .malformed), [])
      else
        match rest.dropWhile isSpace with
        | [] => (.brokenKey .cut .cut, [])
        | '"' :: rest' => readMember fuel rest'
        | _ => (.brokenKey .malformed .malformed, [])
    | c :: rest =>
      if first then (.stray (readValue fuel (c :: rest)).1, []) else (.fault .malformed, [])

/-- Reads a member after the opening quote of its key, and the members after it. -/
def readMember : Nat → List Char → Members × List Char
  | 0, _ => (.fault .malformed, [])
  | fuel + 1, cs =>
    match readString fuel cs with
    | .broken decoding skipping => (.brokenKey decoding skipping, [])
    | .closed key rest =>
      match rest.dropWhile isSpace with
      | [] => keyWithout key .cut
      | ':' :: rest' =>
        let (value, rest'') := readValue fuel rest'
        let (members, rest''') := readMembers fuel false rest''
        (.cons key value members, rest''')
      | _ => keyWithout key .malformed

end

/-- Reads the value at the head of a text. -/
def read (text : String) : Source × List Char :=
  readValue (2 * text.length + 2) text.toList

/-- Decodes a whole text: after the value nothing but white space may follow. -/
def decodeWhole {α : Type} (decode : Source → Except Fault α) (text : String) : Except Fault α :=
  let (source, rest) := read text
  match decode source with
  | .error e => .error e
  | .ok a => if rest.all isSpace then .ok a else .error .malformed

end Source

/-- The value of a whole text whose arrays and objects nest no deeper than allowed. -/
def parse (text : String) : Except Fault Json :=
  Source.decodeWhole (Source.toJson Source.maxNesting) text

end Json

end Verdict
