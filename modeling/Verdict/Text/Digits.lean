/-!
# Digits

Natural numbers and their digits in base ten and base sixteen. `decimal` and `decimalInt` write
numbers without leading zeros; `natOfDigits` reads what `decimalDigits` writes.
-/

namespace Verdict.Text

/-! ## Base ten -/

/-- The value of a decimal digit. -/
def digitValue (c : Char) : Nat :=
  c.toNat - 0x30

/-- The character that writes a value below ten. -/
def digitChar (d : Nat) : Char :=
  Char.ofNat (0x30 + d)

/-- Puts the decimal digits of a number before those already written; `fuel` bounds how many. -/
def prependDecimal : Nat → Nat → List Char → List Char
  | 0, _, written => written
  | fuel + 1, n, written =>
    if n < 10 then digitChar n :: written
    else prependDecimal fuel (n / 10) (digitChar (n % 10) :: written)

/-- The decimal digits of a number, without leading zeros. -/
def decimalDigits (n : Nat) : List Char :=
  prependDecimal (n.log2 + 1) n []

/-- The number that a list of decimal digits spells. -/
def natOfDigits (digits : List Char) : Nat :=
  digits.foldl (fun n c => 10 * n + digitValue c) 0

/-- A number in decimal. -/
def decimal (n : Nat) : String :=
  String.ofList (decimalDigits n)

/-- An integer in decimal, with a minus sign below zero. -/
def decimalInt (n : Int) : String :=
  if n < 0 then "-" ++ decimal n.natAbs else decimal n.natAbs

/-! ## Base sixteen -/

/-- The value of a hexadecimal digit of either case. -/
def hexValue? (c : Char) : Option Nat :=
  if c.isDigit then some (c.toNat - 0x30)
  else if 0x41 ≤ c.toNat && c.toNat ≤ 0x46 then some (c.toNat - 0x41 + 10)
  else if 0x61 ≤ c.toNat && c.toNat ≤ 0x66 then some (c.toNat - 0x61 + 10)
  else none

/-- The digit for a value below sixteen, in lower case. -/
def hexChar (d : Nat) : Char :=
  if d < 10 then Char.ofNat (0x30 + d) else Char.ofNat (0x61 + (d - 10))

/-- Puts the hexadecimal digits of a number before those already written; `fuel` bounds how
many. -/
def prependHex : Nat → Nat → List Char → List Char
  | 0, _, written => written
  | fuel + 1, n, written =>
    if n < 16 then hexChar n :: written
    else prependHex fuel (n / 16) (hexChar (n % 16) :: written)

/-- The hexadecimal digits of a number, without leading zeros. -/
def hexDigits (n : Nat) : List Char :=
  prependHex (n.log2 + 1) n []

/-- The lowest hexadecimal digits of a number, a fixed count of them. -/
def hexDigitsFixed : Nat → Nat → List Char
  | 0, _ => []
  | count + 1, n => hexDigitsFixed count (n / 16) ++ [hexChar (n % 16)]

/-- The number that a list of hexadecimal digits spells, if all of them are such digits. -/
def natOfHex? (digits : List Char) : Option Nat :=
  digits.foldlM (fun n c => (hexValue? c).map (16 * n + ·)) 0

end Verdict.Text
