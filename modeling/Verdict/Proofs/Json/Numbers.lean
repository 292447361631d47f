import Verdict.Proofs.Json.Hereditary
import Verdict.Proofs.Number.Rounding

/-!
# Numbers of JSON values

`Json.EveryNumber` says of all numbers in a value that they have a property. It passes from the
numerals of a text to the value that the text stands for (`Json.hereditary_everyNumber`). The
numbers of a parsed value are in range: whole numbers of 64 bits, with a sign or without, or finite
(`Json.Num.InRange`). Every numeral keeps to this range (`Json.Numeral.inRange_of_value?`), so
every text does (`Json.everyNumber_inRange_of_parse`), and a number in range is finite as a
floating point number (`Json.Num.InRange.isFinite_toNumber`).
-/

namespace Verdict

namespace Json

/-! ## Every number -/

section EveryNumber

variable (P : Num → Prop)

mutual

/-- Every number in the value has a property. -/
def EveryNumber : Json → Prop
  | .number n => P n
  | .array items => items.EveryNumber
  | .object members => members.EveryNumber
  | _ => True

/-- Every number in the items has a property. -/
def Items.EveryNumber : Items → Prop
  | .nil => True
  | .cons item rest => Json.EveryNumber item ∧ rest.EveryNumber

/-- Every number in the values of the members has a property. -/
def Members.EveryNumber : Members → Prop
  | .nil => True
  | .cons _ value rest => Json.EveryNumber value ∧ rest.EveryNumber

end

variable {P}

theorem Members.EveryNumber.insert (key : String) {value : Json} (hvalue : value.EveryNumber P) :
    ∀ {members : Members}, members.EveryNumber P → (members.insert key value).EveryNumber P
  | .nil, _ => ⟨hvalue, trivial⟩
  | .cons key' value' rest, h => by
      obtain ⟨hvalue', hrest⟩ := h
      rw [Members.insert]
      split
      · exact ⟨hvalue, hvalue', hrest⟩
      split
      · exact ⟨hvalue, hrest⟩
      · exact ⟨hvalue', EveryNumber.insert key hvalue hrest⟩

/-- What holds of the numbers that numerals stand for holds of every number from a text. -/
theorem hereditary_everyNumber (hP : ∀ {numeral : Numeral} {n : Num}, numeral.value? = some n → P n) :
    Hereditary (EveryNumber P) (Items.EveryNumber P) (Members.EveryNumber P) where
  null := trivial
  bool _ := trivial
  number h := hP h
  string _ := trivial
  array hitems := hitems
  object hmembers := hmembers
  noItems := trivial
  item hitem hrest := ⟨hitem, hrest⟩
  noMembers := trivial
  member key _ _ hvalue hmembers := Members.EveryNumber.insert key hvalue hmembers

end EveryNumber

/-! ## Range -/

/-- The numbers that a parsed value can hold. -/
def Num.InRange : Num → Prop
  | .int n => -2 ^ 63 ≤ n ∧ n < 2 ^ 64
  | .float n => n.isFinite

/-- A number in range is finite as a floating point number. -/
theorem Num.InRange.isFinite_toNumber {n : Num} (h : n.InRange) : n.toNumber.isFinite := by
  cases n with
  | int value =>
      obtain ⟨hlow, hhigh⟩ := h
      exact Magnitude.isFinite_ofNat (by omega)
  | float value => exact h

namespace Numeral

/-- The digits that are kept fit into 64 bits. -/
theorem gatherWhole_lt {digits : List Char} {n : Nat} (h : n < leadingBound) :
    (gatherWhole n digits).1 < leadingBound := by
  induction digits generalizing n with
  | nil => exact h
  | cons c digits ih =>
      rw [gatherWhole]
      split
      · next hnext => exact ih hnext
      · exact h

theorem gatherFraction_lt {digits : List Char} {n : Nat} (h : n < leadingBound) :
    (gatherFraction n digits).1 < leadingBound := by
  induction digits generalizing n with
  | nil => exact h
  | cons c digits ih =>
      rw [gatherFraction]
      split
      · next hnext => exact ih hnext
      · exact h

theorem isFinite_divideByPower {m : Magnitude} {places : Nat} (h : m.isFinite) :
    (divideByPower m places).isFinite := by
  fun_induction divideByPower m places with
  | case1 m places hsmall => exact Magnitude.isFinite_div_ofNat h (Nat.pow_pos (by decide))
  | case2 m places hlarge hzero => exact h
  | case3 m places hlarge hzero ih =>
      exact ih (Magnitude.isFinite_div_ofNat h (by decide +kernel))

theorem isFinite_of_timesPower? {m product : Magnitude} {exponent : Int} (h : m.isFinite)
    (hproduct : timesPower? m exponent = some product) : product.isFinite := by
  unfold timesPower? at hproduct
  simp only at hproduct
  split at hproduct
  · cases hproduct
    exact isFinite_divideByPower h
  split at hproduct
  · split at hproduct
    · next hfinite =>
        obtain rfl := Option.some.inj hproduct
        exact hfinite
    · cases hproduct
  split at hproduct
  · cases hproduct
    exact h
  · cases hproduct

/-- A numeral that stands for a number stands for one in range. -/
theorem inRange_of_value? {numeral : Numeral} {n : Num} (h : numeral.value? = some n) :
    n.InRange := by
  have hwhole : (gatherWhole 0 numeral.whole).1 < leadingBound := gatherWhole_lt (by decide)
  unfold value? at h
  simp only at h
  generalize (gatherWhole 0 numeral.whole).1 = whole at h hwhole
  have hbound : whole < 2 ^ 64 := hwhole
  split at h
  · split at h
    · cases h
      exact ⟨by omega, by omega⟩
    split at h
    · cases h
      exact Magnitude.isFinite_ofNat (by omega)
    · next hsmall =>
        cases h
        simp only [Bool.or_eq_true, decide_eq_true_eq, not_or, Nat.not_lt] at hsmall
        have hle : whole ≤ 2 ^ 63 := hsmall.2
        exact ⟨by omega, by omega⟩
  · obtain ⟨m, hm, rfl⟩ := Option.map_eq_some_iff.mp h
    have hleading : (gatherFraction whole (numeral.fraction.getD [])).1 < 2 ^ 64 :=
      gatherFraction_lt hwhole
    exact isFinite_of_timesPower? (Magnitude.isFinite_ofNat (by omega)) hm

end Numeral

/-- Every number in a value that comes from a text is in range. -/
theorem everyNumber_inRange_of_parse {text : String} {v : Json} (h : parse text = .ok v) :
    v.EveryNumber Num.InRange :=
  (hereditary_everyNumber Numeral.inRange_of_value?).of_parse h

end Json

end Verdict
