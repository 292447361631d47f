/-!
# Numbers

The 64-bit binary floating point numbers, without payloads: one `nan`, or a sign with a
`Magnitude`. A magnitude is named by its rank among all magnitudes in ascending order, which is
also its bit pattern without the sign, so that order is the order of ranks. Every finite
magnitude is a whole number of `units` of 2^-1074, and `Magnitude.nearest` rounds an exact
quotient to the nearest magnitude, a tie to the even rank.
-/

namespace Verdict

/-- The rank of the infinite magnitude, the last of all. -/
def infiniteRank : Nat := 0x7FF0000000000000

/-- The absolute value of a number, by its place in ascending order. -/
structure Magnitude where
  rank : Nat
  rank_le : rank ≤ infiniteRank
deriving DecidableEq, Repr

namespace Magnitude

instance : Inhabited Magnitude := ⟨⟨0, Nat.zero_le _⟩⟩

/-- The magnitude of a rank; ranks past the last mean infinity. -/
def ofRank (rank : Nat) : Magnitude :=
  ⟨min rank infiniteRank, Nat.min_le_right _ _⟩

/-- The least magnitude. -/
def zero : Magnitude := ofRank 0

/-- The magnitude above all finite ones. -/
def infinite : Magnitude := ofRank infiniteRank

/-- Whether a magnitude is below infinity. -/
def isFinite (m : Magnitude) : Bool :=
  m.rank < infiniteRank

/-- The leading bits of a magnitude, at most 53 of them. -/
def significand (m : Magnitude) : Nat :=
  if m.rank < Nat.pow 2 52 then m.rank else Nat.pow 2 52 + m.rank % Nat.pow 2 52

/-- The number of places by which the significand stands above the unit. -/
def scale (m : Magnitude) : Nat :=
  m.rank / Nat.pow 2 52 - 1

/-- A finite magnitude as a whole number of units of 2^-1074. -/
def units (m : Magnitude) : Nat :=
  m.significand * Nat.pow 2 m.scale

/-! ## Rounding -/

/-- A quotient rounded to the nearest whole number, a tie to the even one. -/
def roundHalfEven (num den : Nat) : Nat :=
  let low := num / den
  let twice := 2 * (num % den)
  if twice < den then low
  else if den < twice then low + 1
  else low + low % 2

/-- The magnitude nearest to a quotient, a tie to the even rank. -/
def nearest (num den : Nat) : Magnitude :=
  let scaled := num * Nat.pow 2 1074
  let shift := (scaled / den).log2 - 52
  ofRank (shift * Nat.pow 2 52 + roundHalfEven scaled (den * Nat.pow 2 shift))

/-- The magnitude nearest to a whole number. -/
def ofNat (n : Nat) : Magnitude :=
  nearest n 1

/-- The rounded product of two finite magnitudes. -/
def mul (a b : Magnitude) : Magnitude :=
  nearest (a.units * b.units) (Nat.pow 2 2148)

/-- The rounded quotient of two finite magnitudes. -/
def div (a b : Magnitude) : Magnitude :=
  nearest a.units b.units

end Magnitude

/-- A number: not a number at all, or a magnitude with a sign. -/
inductive Number where
  | nan
  | real (negative : Bool) (magnitude : Magnitude)
deriving DecidableEq, Repr, Inhabited

namespace Number

/-- Zero without a sign. -/
def zero : Number := .real false .zero

/-- The number above all others. -/
def infinity : Number := .real false .infinite

/-- The number below all others. -/
def negInfinity : Number := .real true .infinite

/-- The number nearest to an integer. -/
def ofInt (n : Int) : Number :=
  .real (n < 0) (.ofNat n.natAbs)

/-- The number with a given bit pattern of 64 bits. -/
def ofBits (bits : Nat) : Number :=
  let rank := bits % Nat.pow 2 63
  if rank ≤ infiniteRank then .real (Nat.pow 2 63 ≤ bits) (.ofRank rank) else .nan

/-- The bit pattern of a number that is not `nan`. -/
def bits? : Number → Option Nat
  | .nan => none
  | .real negative m => some (if negative then Nat.pow 2 63 + m.rank else m.rank)

/-- Whether a number is neither infinite nor `nan`. -/
def isFinite : Number → Bool
  | .nan => false
  | .real _ m => m.isFinite

/-! ## Order -/

/-- The place of a number in the order; both zeros share theirs, and `nan` has none. -/
def place? : Number → Option Int
  | .nan => none
  | .real true m => some (-(m.rank : Int))
  | .real false m => some m.rank

/-- How two numbers stand to each other, if neither is `nan`. -/
def compare? (a b : Number) : Option Ordering :=
  match a.place?, b.place? with
  | some p, some q => some (compare p q)
  | _, _ => none

/-- Equality of values: both zeros are the same, and `nan` differs from everything. -/
def same (a b : Number) : Bool :=
  a.compare? b == some .eq

/-- Whether a number counts as true: it is neither zero nor `nan`. -/
def isTruthy : Number → Bool
  | .nan => false
  | .real _ m => m.rank != 0

end Number

end Verdict
