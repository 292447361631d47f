/-!
# UTF-8 with damaged bytes

`decodeLossy` reads bytes as UTF-8 and puts U+FFFD in place of every longest run that starts a
character but does not finish it, or of a byte that starts none.
-/

namespace Verdict.Text

/-- The mark for bytes that are no character. -/
def replacement : Char := '\uFFFD'

/-- A byte that continues a character, within the given bounds. -/
def continues (byte : UInt8) (low high : Nat) : Bool :=
  low ≤ byte.toNat && byte.toNat ≤ high

/-- What the lead byte asks of the bytes after it: how many there are, the bounds of the first
of them, and the bits that the lead byte itself gives. -/
def leadShape? (byte : UInt8) : Option (Nat × Nat × Nat × Nat) :=
  let b := byte.toNat
  if b < 0x80 then some (0, 0, 0, b)
  else if b < 0xC2 then none
  else if b < 0xE0 then some (1, 0x80, 0xBF, b - 0xC0)
  else if b == 0xE0 then some (2, 0xA0, 0xBF, 0)
  else if b == 0xED then some (2, 0x80, 0x9F, 0xD)
  else if b < 0xF0 then some (2, 0x80, 0xBF, b - 0xE0)
  else if b == 0xF0 then some (3, 0x90, 0xBF, 0)
  else if b < 0xF4 then some (3, 0x80, 0xBF, b - 0xF0)
  else if b == 0xF4 then some (3, 0x80, 0x8F, 4)
  else none

/-- Reads byte after byte: `awaited` continuation bytes are still due, the first of them between
`low` and `high`, and `bits` are those read of the character so far. -/
def decodeFrom (awaited low high bits : Nat) (out : List Char) : List UInt8 → List Char
  | [] => if awaited == 0 then out.reverse else (replacement :: out).reverse
  | byte :: rest =>
    if awaited == 0 then
      match leadShape? byte with
      | none => decodeFrom 0 0 0 0 (replacement :: out) rest
      | some (0, _, _, value) => decodeFrom 0 0 0 0 (Char.ofNat value :: out) rest
      | some (due, low', high', value) => decodeFrom due low' high' value out rest
    else if continues byte low high then
      let value := bits * 64 + (byte.toNat - 0x80)
      if awaited == 1 then decodeFrom 0 0 0 0 (Char.ofNat value :: out) rest
      else decodeFrom (awaited - 1) 0x80 0xBF value out rest
    else
      match leadShape? byte with
      | none => decodeFrom 0 0 0 0 (replacement :: replacement :: out) rest
      | some (0, _, _, value) => decodeFrom 0 0 0 0 (Char.ofNat value :: replacement :: out) rest
      | some (due, low', high', value) => decodeFrom due low' high' value (replacement :: out) rest

/-- Bytes read as UTF-8, damaged places marked with U+FFFD. -/
def decodeLossy (bytes : ByteArray) : String :=
  String.ofList (decodeFrom 0 0 0 0 [] bytes.toList)

end Verdict.Text
