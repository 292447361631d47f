import Verdict.Json

/-!
# Numerals of JSON texts

A `Numeral` holds the digits of a number as a text gives them, and `Numeral.value?` is the number
they stand for, or nothing if it is beyond every finite number. A numeral without point and
exponent is a whole number as far as 64 bits reach. Every other value is made in two steps, both
rounded: the leading digits as far as they fit into 64 bits, then the power of ten.
`Num.text` writes a number.
-/

namespace Verdict

namespace Json

/-- The digits of a number as they are written. -/
structure Numeral where
  negative : Bool
  whole : List Char
  fraction : Option (List Char)
  exponent : Option Int
deriving DecidableEq, Repr, Inhabited

namespace Numeral

/-- The bound of the leading digits. -/
def leadingBound : Nat := Nat.pow 2 64

/-- Adds digits before the point to a number while the bound allows; the second part counts the
digits that were left out. -/
def gatherWhole : Nat → List Char → Nat × Nat
  | n, [] => (n, 0)
  | n, c :: rest =>
    let next := 10 * n + Text.digitValue c
    if next < leadingBound then gatherWhole next rest else (n, rest.length + 1)

/-- Adds digits after the point to a number while the bound allows; the second part counts the
digits that were taken. -/
def gatherFraction : Nat → List Char → Nat × Nat
  | n, [] => (n, 0)
  | n, c :: rest =>
    let next := 10 * n + Text.digitValue c
    if next < leadingBound then
      let (result, taken) := gatherFraction next rest
      (result, taken + 1)
    else (n, 0)

/-- A magnitude over a power of ten, divided by at most 10^308 at a time. -/
def divideByPower (m : Magnitude) (places : Nat) : Magnitude :=
  if places ≤ 308 then m.div (.ofNat (Nat.pow 10 places))
  else if m.rank = 0 then m
  else divideByPower (m.div (.ofNat (Nat.pow 10 308))) (places - 308)
termination_by places

/-- A magnitude times a power of ten, unless the result is beyond every finite magnitude. -/
def timesPower? (m : Magnitude) (exponent : Int) : Option Magnitude :=
  if exponent < 0 then some (divideByPower m exponent.natAbs)
  else if exponent ≤ 308 then
    let product := m.mul (.ofNat (Nat.pow 10 exponent.natAbs))
    if product.isFinite then some product else none
  else if m.rank = 0 then some m
  else none

/-- The number that a numeral stands for. -/
def value? (numeral : Numeral) : Option Num :=
  let (whole, leftOut) := gatherWhole 0 numeral.whole
  if numeral.fraction.isNone && numeral.exponent.isNone && leftOut == 0 then
    if !numeral.negative then some (.int whole)
    else if whole = 0 || Nat.pow 2 63 < whole then some (.float (.real true (.ofNat whole)))
    else some (.int (-(whole : Int)))
  else
    let (leading, taken) := gatherFraction whole (numeral.fraction.getD [])
    let exponent := (leftOut : Int) - taken + numeral.exponent.getD 0
    (timesPower? (.ofNat leading) exponent).map fun m => .float (.real numeral.negative m)

end Numeral

/-! ## Writing -/

/-- A decimal with a single digit before the point and its exponent after the letter e. -/
def scientific (d : Decimal) : List Char :=
  let digits := Text.decimalDigits d.digits
  let exponent := d.exponent + (digits.length - 1 : Nat)
  let point := if digits.length ≤ 1 then [] else '.' :: digits.drop 1
  let sign := if exponent < 0 then '-' else '+'
  digits.take 1 ++ point ++ 'e' :: sign :: Text.decimalDigits exponent.natAbs

/-- A finite number in the fewest digits that read back: by position with at least one place
after the point from 10^-5 up to 10^16, and with an exponent beyond. -/
def floatText : Number → List Char
  | .nan => "null".toList
  | .real negative m =>
    let d := m.shortest
    let length := (Text.decimalDigits d.digits).length
    let places := (length : Int) + d.exponent
    let unsigned :=
      if m.rank ≠ 0 && (places ≤ -5 || 16 < places) then scientific d
      else if d.exponent < 0 then d.text.toList
      else d.text.toList ++ ['.', '0']
    if negative then '-' :: unsigned else unsigned

/-- The text of a number. -/
def Num.text : Num → List Char
  | .int value => (Text.decimalInt value).toList
  | .float value => floatText value

end Json

end Verdict
