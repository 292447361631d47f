import Verdict.Number
import Verdict.Text.Digits

/-!
# Decimals

A `Decimal` is a whole number times a power of ten. `Magnitude.ofDecimal` rounds one to the
nearest magnitude; `Magnitude.shortest` is the decimal with the fewest digits that rounds back
to a magnitude, the nearest of those, and the upper one when two are equally near.
`Decimal.text` writes a decimal by position, without an exponent.
-/

namespace Verdict

/-- A whole number times a power of ten. -/
structure Decimal where
  digits : Nat
  exponent : Int
deriving DecidableEq, Repr, Inhabited

namespace Decimal

/-- Moves trailing zeros of the digits into the exponent; `fuel` bounds how many. -/
def stripAux : Nat → Decimal → Decimal
  | 0, d => d
  | fuel + 1, d =>
    if d.digits % 10 = 0 then stripAux fuel ⟨d.digits / 10, d.exponent + 1⟩ else d

/-- A decimal of the same value whose digits do not end in zero, unless they are zero. -/
def strip (d : Decimal) : Decimal :=
  if d.digits = 0 then ⟨0, 0⟩ else stripAux (d.digits.log2 + 1) d

/-- A decimal written by position: zeros after the digits or a point among or before them. -/
def text (d : Decimal) : String :=
  let digits := Text.decimalDigits d.digits
  if 0 ≤ d.exponent then
    String.ofList (digits ++ List.replicate d.exponent.toNat '0')
  else
    let places := d.exponent.natAbs
    if places < digits.length then
      String.ofList (digits.take (digits.length - places) ++ '.' ::
        digits.drop (digits.length - places))
    else
      String.ofList ('0' :: '.' :: List.replicate (places - digits.length) '0' ++ digits)

end Decimal

namespace Magnitude

/-- The magnitude nearest to a decimal. Decimals beyond every finite magnitude and below half
of the least one are settled by their exponent, so that no great power is built. -/
def ofDecimal (d : Decimal) : Magnitude :=
  if d.digits = 0 then zero
  else if 400 < d.exponent then infinite
  else if 0 ≤ d.exponent then ofNat (d.digits * Nat.pow 10 d.exponent.toNat)
  else if (d.digits.log2 : Int) + 1 + 3 * d.exponent < -1080 then zero
  else nearest d.digits (Nat.pow 10 d.exponent.natAbs)

/-! ## The shortest decimal -/

/-- A magnitude over one as a quotient of the power of ten with the given exponent. -/
def quotientByPower (m : Magnitude) (exponent : Int) : Nat × Nat :=
  if 0 ≤ exponent then (m.units, Nat.pow 2 1074 * Nat.pow 10 exponent.toNat)
  else (m.units * Nat.pow 10 exponent.natAbs, Nat.pow 2 1074)

/-- The decimals next to a magnitude on the grid of a power of ten that round back to it: the
nearer one, or the upper one when both are equally near. -/
def onGrid? (m : Magnitude) (exponent : Int) : Option Decimal :=
  let (num, den) := m.quotientByPower exponent
  let low := num / den
  let below : Decimal := ⟨low, exponent⟩
  let above : Decimal := ⟨low + 1, exponent⟩
  let preferBelow := 2 * (num % den) < den
  if ofDecimal below = m && (preferBelow || ofDecimal above != m) then some below
  else if ofDecimal above = m then some above
  else none

/-- The exponent of the least power of ten above a magnitude, found downwards from a start that
lies above it; `fuel` bounds the steps. -/
def tenPowerAbove (m : Magnitude) : Nat → Int → Int
  | 0, top => top
  | fuel + 1, top =>
    let (num, den) := m.quotientByPower (top - 1)
    if num < den then tenPowerAbove m fuel (top - 1) else top

/-- Tries grids with more and more digits. -/
def firstOnGrid? (m : Magnitude) (top : Int) : Nat → Nat → Option Decimal
  | 0, _ => none
  | fuel + 1, count =>
    match m.onGrid? (top - count) with
    | some d => some d
    | none => firstOnGrid? m top fuel (count + 1)

/-- The exact decimal of a finite magnitude. -/
def exactDecimal (m : Magnitude) : Decimal :=
  ⟨m.units * Nat.pow 5 1074, -1074⟩

/-- An upper bound for the exponent of the power of ten above a magnitude: three tenths of its
binary exponent, and a little more. -/
def powerBound (m : Magnitude) : Int :=
  ((m.units.log2 : Int) - 1073) * 30103 / 100000 + 1

/-- The decimal with the fewest digits that rounds back to a finite magnitude. Seventeen digits
always suffice; the exact decimal stands behind the search. -/
def shortest (m : Magnitude) : Decimal :=
  if m.rank = 0 then ⟨0, 0⟩
  else
    ((m.firstOnGrid? (m.tenPowerAbove 3 m.powerBound) 17 1).getD m.exactDecimal).strip

end Magnitude

end Verdict
