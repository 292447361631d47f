import Verdict.Number.Literal
import Verdict.Setting
import Verdict.Timestamp

/-!
# TOML scalars

`Toml.scalar?` gives the value of an unquoted word of a TOML document: a truth value, a whole
number in one of four bases, a floating point number, or a date or a time, which is kept as its
text. Digits may be grouped by single underscores.
-/

namespace Verdict

namespace Toml

/-- Digits with underscores between them taken out; an underscore needs a digit on either side. -/
def ungroup? (isDigit : Char → Bool) : List Char → Option (List Char)
  | [] => none
  | [c] => if isDigit c then some [c] else none
  | c :: '_' :: rest => if isDigit c then (ungroup? isDigit rest).map (c :: ·) else none
  | c :: rest => if isDigit c then (ungroup? isDigit rest).map (c :: ·) else none

/-- Whether digits have no needless zero in front. -/
def isPlain : List Char → Bool
  | '0' :: _ :: _ => false
  | _ => true

/-- A whole number within the range of 64 bits. -/
def integer? (value : Int) : Option Setting :=
  if -Int.pow 2 63 ≤ value && value < Int.pow 2 63 then some (.integer value) else none

/-- A whole number in another base than ten. -/
def inBase? (base : Nat) (isDigit : Char → Bool) (cs : List Char) : Option Setting := do
  let digits ← ungroup? isDigit cs
  let value := digits.foldl (fun n c => base * n + (Text.hexValue? c).getD 0) 0
  integer? value

/-- The exponent of a floating point number. -/
def exponent? (cs : List Char) : Option Int := do
  let (negative, rest) := splitSign cs
  let digits ← ungroup? Char.isDigit rest
  let value := Text.natOfDigits digits
  some (if negative then -(value : Int) else value)

/-- A number in base ten after its sign: whole unless it has a point or an exponent. -/
def decimal? (negative : Bool) (cs : List Char) : Option Setting := do
  let isPart := fun c : Char => c.isDigit || c == '_'
  let whole ← ungroup? Char.isDigit (cs.takeWhile isPart)
  if !isPlain whole then none
  let afterWhole := cs.dropWhile isPart
  let (fraction, afterFraction) ← match afterWhole with
    | '.' :: rest => (ungroup? Char.isDigit (rest.takeWhile isPart)).map fun digits =>
        (digits, rest.dropWhile isPart)
    | rest => some ([], rest)
  let exponent ← match afterFraction with
    | [] => some 0
    | c :: rest => if c == 'e' || c == 'E' then exponent? rest else none
  if afterWhole.isEmpty then
    let value : Int := Text.natOfDigits whole
    integer? (if negative then -value else value)
  else
    let m := Magnitude.ofDecimal
      ⟨Text.natOfDigits (whole ++ fraction), exponent - fraction.length⟩
    if m.isFinite then some (.float (.real negative m)) else none

/-- A number. -/
def number? (cs : List Char) : Option Setting :=
  match cs with
  | '0' :: 'x' :: rest => inBase? 16 (fun c => (Text.hexValue? c).isSome) rest
  | '0' :: 'o' :: rest => inBase? 8 (fun c => '0' ≤ c && c ≤ '7') rest
  | '0' :: 'b' :: rest => inBase? 2 (fun c => c == '0' || c == '1') rest
  | _ =>
    let (negative, unsigned) := splitSign cs
    if unsigned = ['i', 'n', 'f'] then some (.float (.real negative .infinite))
    else if unsigned = ['n', 'a', 'n'] then some (.float .nan)
    else decimal? negative unsigned

/-! ## Dates and times -/

/-- A number of exactly so many digits at the head of a text. -/
def fixedDigits? (count : Nat) (cs : List Char) : Option (Nat × List Char) :=
  let digits := cs.take count
  if digits.length = count && digits.all Char.isDigit then
    some (Text.natOfDigits digits, cs.drop count)
  else none

/-- The text after a mark. -/
def after? (mark : Char) : List Char → Option (List Char)
  | c :: rest => if c == mark then some rest else none
  | [] => none

/-- A date at the head of a text, as its text. -/
def date? (cs : List Char) : Option (List Char × List Char) := do
  let (year, cs) ← fixedDigits? 4 cs
  let (month, cs) ← fixedDigits? 2 (← after? '-' cs)
  let (day, cs) ← fixedDigits? 2 (← after? '-' cs)
  if (⟨year, month, day, 0, 0, 0, 0⟩ : Moment).isReal then
    some (Timestamp.padded 4 year ++ '-' :: Timestamp.padded 2 month ++ '-' ::
      Timestamp.padded 2 day, cs)
  else none

/-- The places after a second that are written: at most nine, without zeros at the end, but at
least one. -/
def placesText (digits : List Char) : List Char :=
  match ((digits.take 9).reverse.dropWhile (· == '0')).reverse with
  | [] => ['0']
  | kept => kept

/-- The seconds of a time with their places, as their text. Both may be left out, and then they
are left out of the text, too. -/
def seconds? (cs : List Char) : Option (List Char × List Char) :=
  match cs with
  | ':' :: rest => do
    let (second, rest) ← fixedDigits? 2 rest
    if 60 < second then none
    let whole := ':' :: Timestamp.padded 2 second
    match rest with
    | '.' :: places =>
      let digits := places.takeWhile Char.isDigit
      if digits.isEmpty then none
      else some (whole ++ '.' :: placesText digits, places.drop digits.length)
    | _ => some (whole, rest)
  | _ => some ([], cs)

/-- A time of day at the head of a text, as its text. -/
def time? (cs : List Char) : Option (List Char × List Char) := do
  let (hour, cs) ← fixedDigits? 2 cs
  let (minute, cs) ← fixedDigits? 2 (← after? ':' cs)
  if 23 < hour || 59 < minute then none
  let (seconds, cs) ← seconds? cs
  some (Timestamp.padded 2 hour ++ ':' :: Timestamp.padded 2 minute ++ seconds, cs)

/-- The offset that ends a text, as its text. No offset is below zero when it is zero. -/
def offset? (cs : List Char) : Option (List Char) :=
  match cs with
  | [] => some []
  | ['Z'] => some ['Z']
  | ['z'] => some ['Z']
  | sign :: rest => do
    if sign != '+' && sign != '-' then none
    let (hour, rest) ← fixedDigits? 2 rest
    let (minute, rest) ← fixedDigits? 2 (← after? ':' rest)
    if 23 < hour || 59 < minute || !rest.isEmpty then none
    let shown := if hour = 0 && minute = 0 then '+' else sign
    some (shown :: Timestamp.padded 2 hour ++ ':' :: Timestamp.padded 2 minute)

/-- A date, a time, or both with an offset or without. -/
def moment? (cs : List Char) : Option Setting :=
  match date? cs with
  | some (date, []) => some (.text (String.ofList date))
  | some (date, separator :: rest) => do
    if separator != 'T' && separator != 't' && separator != ' ' then none
    let (time, rest) ← time? rest
    let offset ← offset? rest
    some (.text (String.ofList (date ++ 'T' :: time ++ offset)))
  | none => do
    let (time, rest) ← time? cs
    if rest.isEmpty then some (.text (String.ofList time)) else none

/-- The value of an unquoted word. -/
def scalar? (word : List Char) : Option Setting :=
  if word = ['t', 'r', 'u', 'e'] then some (.bool true)
  else if word = ['f', 'a', 'l', 's', 'e'] then some (.bool false)
  else (number? word).or (moment? word)

end Toml

end Verdict
