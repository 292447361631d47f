import Verdict.Number.Decimal

/-!
# Number literals

`Number.ofLiteral?` reads a numeric literal: an optional sign, decimal digits with an optional
point among or around them, and an optional exponent; or the word `Infinity` with an optional
sign. Everything else is no number. `Number.text` writes numbers so that they read back.
-/

namespace Verdict

/-! ## Reading -/

/-- The sign at the head of a literal, and what follows it. -/
def splitSign : List Char → Bool × List Char
  | '-' :: rest => (true, rest)
  | '+' :: rest => (false, rest)
  | cs => (false, cs)

/-- The digits at the head of a text, and what follows them. -/
def splitDigits (cs : List Char) : List Char × List Char :=
  (cs.takeWhile Char.isDigit, cs.dropWhile Char.isDigit)

/-- The fraction digits after a point, and what follows them; no point means no digits. -/
def splitFraction : List Char → List Char × List Char
  | '.' :: rest => splitDigits rest
  | cs => ([], cs)

/-- The exponent that a whole text spells: nothing, or the letter e with an integer. -/
def exponent? : List Char → Option Int
  | [] => some 0
  | c :: rest =>
    if c == 'e' || c == 'E' then
      let (negative, digits) := splitSign rest
      if digits.isEmpty || !digits.all Char.isDigit then none
      else
        let value := Text.natOfDigits digits
        some (if negative then -(value : Int) else value)
    else none

/-- The decimal that a literal without a sign spells. -/
def Decimal.ofLiteral? (cs : List Char) : Option Decimal :=
  let (whole, afterWhole) := splitDigits cs
  let (fraction, afterFraction) := splitFraction afterWhole
  if whole.isEmpty && fraction.isEmpty then none
  else
    (exponent? afterFraction).map fun exponent =>
      ⟨Text.natOfDigits (whole ++ fraction), exponent - fraction.length⟩

namespace Number

/-- The number that a text spells. -/
def ofLiteral? (text : String) : Option Number :=
  let (negative, cs) := splitSign text.toList
  if cs = "Infinity".toList then some (.real negative .infinite)
  else (Decimal.ofLiteral? cs).map fun d => .real negative (.ofDecimal d)

/-! ## Writing -/

/-- A number in the fewest digits that read back, by position; both zeros are written alike. -/
def text : Number → String
  | .nan => "NaN"
  | .real negative m =>
    if m.rank = 0 then "0"
    else
      let unsigned := if m.isFinite then m.shortest.text else "Infinity"
      if negative then "-" ++ unsigned else unsigned

end Number

end Verdict
