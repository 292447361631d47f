import Verdict.Json.Fault
import Verdict.Number.Literal
import Verdict.Text.Blank

/-!
# Timestamps

A `Timestamp` is a moment of universal time to the nanosecond, as a date and a time of day.
`Timestamp.text` writes it in RFC 3339 form with as few of 0, 3, 6 or 9 places after the second as
are exact. `Timestamp.parse` reads that form with any offset and some leniency: blanks may stand
before every number and before the offset, numbers may lack leading zeros, and the year may have a
sign.
-/

namespace Verdict

/-- A date and a time of day; the leap second is the second after a minute's last one. -/
structure Moment where
  year : Int
  month : Nat
  day : Nat
  hour : Nat
  minute : Nat
  second : Nat
  nano : Nat
deriving DecidableEq, Repr, Inhabited

namespace Moment

/-- Whether a year has a 29th of February. -/
def isLeapYear (year : Int) : Bool :=
  year % 4 == 0 && (year % 100 != 0 || year % 400 == 0)

/-- The number of days of a month. -/
def daysInMonth (year : Int) (month : Nat) : Nat :=
  if month == 2 then (if isLeapYear year then 29 else 28)
  else if month == 4 || month == 6 || month == 9 || month == 11 then 30
  else 31

/-- Whether the date exists, in a year that can be kept, and the time of day does. -/
def isReal (m : Moment) : Bool :=
  -262143 ≤ m.year && m.year ≤ 262142 && 1 ≤ m.month && m.month ≤ 12 &&
  1 ≤ m.day && m.day ≤ daysInMonth m.year m.month &&
  m.hour ≤ 23 && m.minute ≤ 59 && m.second ≤ 60 && m.nano < 1000000000

/-- The same time of the day before. -/
def dayBefore (m : Moment) : Moment :=
  if 1 < m.day then { m with day := m.day - 1 }
  else if 1 < m.month then
    { m with month := m.month - 1, day := daysInMonth m.year (m.month - 1) }
  else { m with year := m.year - 1, month := 12, day := 31 }

/-- The same time of the day after. -/
def dayAfter (m : Moment) : Moment :=
  if m.day < daysInMonth m.year m.month then { m with day := m.day + 1 }
  else if m.month < 12 then { m with month := m.month + 1, day := 1 }
  else { m with year := m.year + 1, month := 1, day := 1 }

/-- The moment some minutes earlier, by less than a day in either direction. -/
def earlier (m : Moment) (minutes : Int) : Moment :=
  let total := (60 * m.hour + m.minute : Int) - minutes
  let timed := { m with
    hour := (total % 1440 / 60).toNat
    minute := (total % 60).toNat }
  if total < 0 then timed.dayBefore
  else if 1440 ≤ total then timed.dayAfter
  else timed

end Moment

/-- A moment of universal time that exists. -/
structure Timestamp where
  moment : Moment
  real : moment.isReal = true
deriving DecidableEq, Repr

namespace Timestamp

instance : Inhabited Timestamp := ⟨⟨⟨1970, 1, 1, 0, 0, 0, 0⟩, by decide⟩⟩

/-! ## Writing -/

/-- A number with leading zeros up to a width. -/
def padded (width n : Nat) : List Char :=
  let digits := Text.decimalDigits n
  List.replicate (width - digits.length) '0' ++ digits

/-- A year: four digits, with a sign and maybe more beyond them. -/
def yearText (year : Int) : List Char :=
  if 0 ≤ year && year ≤ 9999 then padded 4 year.natAbs
  else (if year < 0 then '-' else '+') :: padded 4 year.natAbs

/-- The places after the second, in as few groups of three as are exact. -/
def nanoText (nano : Nat) : List Char :=
  if nano = 0 then []
  else if nano % 1000000 = 0 then '.' :: padded 3 (nano / 1000000)
  else if nano % 1000 = 0 then '.' :: padded 6 (nano / 1000)
  else '.' :: padded 9 nano

/-- A timestamp in RFC 3339 form. -/
def text (t : Timestamp) : String :=
  let m := t.moment
  String.ofList <|
    yearText m.year ++ '-' :: padded 2 m.month ++ '-' :: padded 2 m.day ++ 'T' ::
      padded 2 m.hour ++ ':' :: padded 2 m.minute ++ ':' :: padded 2 m.second ++
      nanoText m.nano ++ ['Z']

/-! ## Reading -/

/-- The outcome of reading a part of a timestamp. -/
abbrev Attempt := Except Json.TimestampFault

/-- Reads a number of at least one digit and at most so many, if there is a limit. -/
def readDigits (limit : Option Nat) (cs : List Char) : Attempt (Nat × List Char) :=
  let digits := (splitDigits cs).1
  let taken := match limit with
    | none => digits
    | some n => digits.take n
  if taken.isEmpty then .error (if cs.isEmpty then .premature else .invalid)
  else .ok (Text.natOfDigits taken, cs.drop taken.length)

/-- Reads a number of at most two digits after blanks; it has to lie between two bounds. -/
def readPart (low high : Nat) (cs : List Char) : Attempt (Nat × List Char) := do
  let (n, rest) ← readDigits (some 2) (cs.dropWhile Text.isBlank)
  if low ≤ n && n ≤ high then .ok (n, rest) else .error .outOfRange

/-- Reads a year after blanks: with a sign it may have any number of digits, without one it has
at most four. -/
def readYear (cs : List Char) : Attempt (Int × List Char) :=
  match cs.dropWhile Text.isBlank with
  | '-' :: rest => do
    let (n, rest') ← readDigits none rest
    .ok (-(n : Int), rest')
  | '+' :: rest => do
    let (n, rest') ← readDigits none rest
    .ok ((n : Int), rest')
  | rest => do
    let (n, rest') ← readDigits (some 4) rest
    .ok ((n : Int), rest')

/-- Reads a character that has to stand at a place. -/
def readMark (mark : Char) : List Char → Attempt (List Char)
  | [] => .error .premature
  | c :: rest => if c == mark then .ok rest else .error .invalid

/-- Reads the letter or the space between date and time. -/
def readSeparator : List Char → Attempt (List Char)
  | [] => .error .premature
  | c :: rest => if c == 'T' || c == 't' || c == ' ' then .ok rest else .error .invalid

/-- Reads the places after the second, as nanoseconds; places beyond the ninth are dropped. -/
def readNanos : List Char → Attempt (Nat × List Char)
  | '.' :: rest =>
    let digits := (splitDigits rest).1
    if digits.isEmpty then .error (if rest.isEmpty then .premature else .invalid)
    else
      let taken := digits.take 9
      .ok (Text.natOfDigits taken * Nat.pow 10 (9 - taken.length), rest.drop digits.length)
  | cs => .ok (0, cs)

/-- Reads the two digits of an hour or a minute of an offset. -/
def readPair : List Char → Attempt ((Nat × Nat) × List Char)
  | a :: b :: rest =>
    if a.isDigit && b.isDigit then .ok ((Text.digitValue a, Text.digitValue b), rest)
    else .error .invalid
  | cs => .error (if (String.ofList cs).utf8ByteSize < 2 then .premature else .invalid)

/-- Reads the hours and minutes of an offset, in minutes. -/
def readShift (negative : Bool) (cs : List Char) : Attempt (Int × List Char) := do
  let ((h, h'), afterHours) ← readPair cs
  let ((m, m'), rest) ←
    readPair (afterHours.dropWhile fun c => c == ':' || Text.isBlank c)
  if 6 ≤ m then .error .outOfRange
  else
    let minutes : Int := (10 * h + h') * 60 + (10 * m + m')
    .ok (if negative then -minutes else minutes, rest)

/-- Reads an offset after blanks, in minutes east of universal time. -/
def readOffset (cs : List Char) : Attempt (Int × List Char) :=
  let cs := cs.dropWhile Text.isBlank
  if (cs.take 3).map Char.toUpper = ['U', 'T', 'C'] then .ok (0, cs.drop 3)
  else
    match cs with
    | [] => .error .premature
    | c :: rest =>
      if c == 'Z' || c == 'z' then .ok (0, rest)
      else if c == '+' then readShift false rest
      else if c == '-' || c == '−' then readShift true rest
      else .error .invalid

/-- Reads a date, a time of day and an offset. -/
def readMoment (cs : List Char) : Attempt ((Moment × Int) × List Char) := do
  let (year, cs) ← readYear cs
  if year < -2147483648 || 2147483647 < year then .error .outOfRange
  let (month, cs) ← readPart 1 12 (← readMark '-' cs)
  let (day, cs) ← readPart 1 31 (← readMark '-' cs)
  let (hour, cs) ← readPart 0 23 (← readSeparator cs)
  let (minute, cs) ← readPart 0 59 (← readMark ':' cs)
  let (second, cs) ← readPart 0 60 (← readMark ':' cs)
  let (nano, cs) ← readNanos cs
  let (offset, cs) ← readOffset cs
  .ok ((⟨year, month, day, hour, minute, second, nano⟩, offset), cs)

/-- The timestamp that a text spells. -/
def parse (text : String) : Attempt Timestamp := do
  let ((moment, offset), rest) ← readMoment text.toList
  if !rest.all Text.isBlank then .error .trailing
  else if !moment.isReal || offset ≤ -1440 || 1440 ≤ offset then .error .outOfRange
  else
    let shifted := moment.earlier offset
    if h : shifted.isReal = true then .ok ⟨shifted, h⟩ else .error .impossible

end Timestamp

end Verdict
