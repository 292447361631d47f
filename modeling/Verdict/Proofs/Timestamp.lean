import Verdict.Proofs.Number.Literal
import Verdict.Proofs.Text.Digits
import Verdict.Timestamp

/-!
# Timestamps that read back

A timestamp is written with a fixed number of digits for every part, but for years before the first
or beyond the ten thousandth, which get a sign, and for the places after the second, of which only
as many are written as are needed. Reading is more lenient than that, so every part is followed by
a mark that ends its digits. Each writer is read back by its reader, whatever comes behind the mark,
and `Timestamp.parse_of_text` puts them together.
-/

namespace Verdict

namespace Moment

variable {m : Moment}

/-- The parts of a date and a time of day that exist lie within their bounds. -/
theorem bounds_of_isReal (h : m.isReal = true) :
    (-262143 ≤ m.year ∧ m.year ≤ 262142) ∧ (1 ≤ m.month ∧ m.month ≤ 12) ∧
      (1 ≤ m.day ∧ m.day ≤ 31) ∧ m.hour ≤ 23 ∧ m.minute ≤ 59 ∧ m.second ≤ 60 ∧
      m.nano < 1000000000 := by
  have hdays : daysInMonth m.year m.month ≤ 31 := by
    unfold daysInMonth
    repeat' split
    all_goals decide
  simp only [isReal, Bool.and_eq_true, decide_eq_true_eq] at h
  omega

/-- A moment at no offset is universal time. -/
theorem earlier_zero (h : m.isReal = true) : m.earlier 0 = m := by
  obtain ⟨-, -, -, hhour, hminute, -, -⟩ := bounds_of_isReal h
  have hhours : (((60 * m.hour + m.minute : Int) - 0) % 1440 / 60).toNat = m.hour := by omega
  have hminutes : (((60 * m.hour + m.minute : Int) - 0) % 60).toNat = m.minute := by omega
  have hlow : ¬ ((60 * m.hour + m.minute : Int) - 0 < 0) := by omega
  have hhigh : ¬ (1440 ≤ (60 * m.hour + m.minute : Int) - 0) := by omega
  simp only [earlier, hhours, hminutes, if_neg hlow, if_neg hhigh]

end Moment

namespace Timestamp

open Text (decimalDigits natOfDigits)

/-! ## Numbers of a fixed width -/

/-- A number takes no more digits than its bound has zeros. -/
theorem length_prependDecimal_le {width : Nat} (fuel : Nat) {n : Nat} (written : List Char)
    (hwidth : 0 < width) (h : n < 10 ^ width) :
    (Text.prependDecimal fuel n written).length ≤ width + written.length := by
  induction fuel generalizing n width written with
  | zero => exact Nat.le_add_left _ _
  | succ fuel ih =>
      rw [Text.prependDecimal]
      split
      · rw [List.length_cons]
        omega
      · -- a number of two digits or more leaves room for those before its last one
        next hmore =>
        obtain ⟨width, rfl⟩ : ∃ k, width = k + 1 := ⟨width - 1, by omega⟩
        rw [Nat.pow_succ] at h
        have hpos : 0 < width := by
          rcases Nat.eq_zero_or_pos width with rfl | hpos
          · omega
          · exact hpos
        have hfewer : n / 10 < 10 ^ width := by omega
        have hlength := ih (Text.digitChar (n % 10) :: written) hpos hfewer
        rw [List.length_cons] at hlength
        omega

theorem length_padded {width n : Nat} (hwidth : 0 < width) (h : n < 10 ^ width) :
    (padded width n).length = width := by
  have hdigits : (decimalDigits n).length ≤ width :=
    length_prependDecimal_le _ [] hwidth h
  simp only [padded, List.length_append, List.length_replicate]
  omega

theorem digits_padded (width n : Nat) : Digits (padded width n) := by
  constructor
  · intro hnil
    exact Text.decimalDigits_ne_nil n (List.append_eq_nil_iff.mp hnil).2
  · intro c hc
    rcases List.mem_append.mp hc with hzero | hdigit
    · rw [List.eq_of_mem_replicate hzero]
      rfl
    · exact Text.isDigit_of_mem_decimalDigits hdigit

theorem natOfDigits_padded (width n : Nat) : natOfDigits (padded width n) = n := by
  simp only [padded]
  rw [Text.natOfDigits_append, Text.natOfDigits_replicate_zero, Nat.zero_mul, Nat.zero_add,
    Text.natOfDigits_decimalDigits]

theorem isBlank_of_isDigit {c : Char} (h : c.isDigit) : Text.isBlank c = false := by
  have hrange : 48 ≤ c.toNat ∧ c.toNat ≤ 57 := by
    simp only [Char.isDigit, Bool.and_eq_true, decide_eq_true_eq, UInt32.le_iff_toNat_le,
      ge_iff_le] at h
    exact h
  simp only [Text.isBlank, Bool.or_eq_false_iff, Bool.and_eq_false_iff, decide_eq_false_iff_not,
    beq_eq_false_iff_ne]
  omega

/-- Digits begin with no blank. -/
theorem dropWhile_isBlank_digits {digits : List Char} (h : Digits digits) (rest : List Char) :
    (digits ++ rest).dropWhile Text.isBlank = digits ++ rest := by
  obtain ⟨c, cs, rfl⟩ := List.exists_cons_of_ne_nil h.ne_nil
  have hc := isBlank_of_isDigit (h.isDigit c List.mem_cons_self)
  exact List.dropWhile_cons_of_neg (by simp [hc])

/-! ## Reading what was written -/

section Parts

variable {rest : List Char}

/-- As many digits as are allowed are read up to a character that is none. -/
theorem readDigits_append {limit : Option Nat} {digits : List Char} (h : Digits digits)
    (hlimit : ∀ n ∈ limit, digits.length ≤ n) (hrest : DigitsEnd rest) :
    readDigits limit (digits ++ rest) = .ok (natOfDigits digits, rest) := by
  have hsplit := splitDigits_append h.isDigit hrest
  have hempty : ¬ digits.isEmpty = true := by
    rw [List.isEmpty_iff]
    exact h.ne_nil
  cases limit with
  | none => simp only [readDigits, hsplit, if_neg hempty, List.drop_left]
  | some n =>
      have htake : digits.take n = digits := List.take_of_length_le (hlimit n rfl)
      simp only [readDigits, hsplit, htake, if_neg hempty, List.drop_left]

theorem readPart_padded {low high n : Nat} (hlow : low ≤ n) (hhigh : n ≤ high) (h : n < 100)
    (hrest : DigitsEnd rest) : readPart low high (padded 2 n ++ rest) = .ok (n, rest) := by
  have hdigits := digits_padded 2 n
  have hlength : (padded 2 n).length = 2 := length_padded (by decide) h
  have hread : readDigits (some 2) (padded 2 n ++ rest) = .ok (n, rest) := by
    rw [readDigits_append hdigits (fun _ hk => by cases hk; omega) hrest, natOfDigits_padded]
  simp only [readPart, dropWhile_isBlank_digits hdigits, hread]
  show (if (decide (low ≤ n) && decide (n ≤ high)) = true then _ else _) = _
  rw [if_pos (by simp [hlow, hhigh])]

theorem readYear_yearText {year : Int} (hrest : DigitsEnd rest) :
    readYear (yearText year ++ rest) = .ok (year, rest) := by
  have hdigits := digits_padded 4 year.natAbs
  have hread : ∀ limit : Option Nat, (∀ n ∈ limit, (padded 4 year.natAbs).length ≤ n) →
      readDigits limit (padded 4 year.natAbs ++ rest) = .ok (year.natAbs, rest) := by
    intro limit hlimit
    rw [readDigits_append hdigits hlimit hrest, natOfDigits_padded]
  unfold yearText
  split
  · next hplain =>
    simp only [Bool.and_eq_true, decide_eq_true_eq] at hplain
    have hlength : (padded 4 year.natAbs).length = 4 := length_padded (by decide) (by omega)
    have hvalue : (year.natAbs : Int) = year := by omega
    rw [readYear, dropWhile_isBlank_digits hdigits]
    -- the digits are no sign
    have hunsigned := hdigits.unsigned rest
    split
    · next heq => exact absurd (congrArg List.head? heq) hunsigned.1
    · next heq => exact absurd (congrArg List.head? heq) hunsigned.2
    · rw [hread (some 4) fun n hn => by cases hn; omega]
      show Except.ok ((year.natAbs : Int), rest) = _
      rw [hvalue]
  · next hsigned =>
    simp only [Bool.and_eq_true, decide_eq_true_eq] at hsigned
    split
    · next hnegative =>
      have hvalue : -(year.natAbs : Int) = year := by omega
      show (readDigits none (padded 4 year.natAbs ++ rest)).bind _ = _
      rw [hread none fun n hn => by cases hn]
      show Except.ok (-(year.natAbs : Int), rest) = _
      rw [hvalue]
    · next hpositive =>
      have hvalue : (year.natAbs : Int) = year := by omega
      show (readDigits none (padded 4 year.natAbs ++ rest)).bind _ = _
      rw [hread none fun n hn => by cases hn]
      show Except.ok ((year.natAbs : Int), rest) = _
      rw [hvalue]

/-- The places after the second count as many nanoseconds as they leave out powers of ten. -/
theorem readNanos_padded (width places : Nat) (hwidth : 0 < width) (hnine : width ≤ 9)
    (h : places < 10 ^ width) (hrest : DigitsEnd rest) :
    readNanos ('.' :: (padded width places ++ rest)) = .ok (places * 10 ^ (9 - width), rest) := by
  have hdigits := digits_padded width places
  have hlength := length_padded hwidth h
  have hsplit := splitDigits_append hdigits.isDigit hrest
  have hempty : ¬ (padded width places).isEmpty = true := by
    rw [List.isEmpty_iff]
    exact hdigits.ne_nil
  have htake : (padded width places).take 9 = padded width places :=
    List.take_of_length_le (by omega)
  simp only [readNanos, hsplit, if_neg hempty, htake, natOfDigits_padded, hlength,
    List.drop_left' hlength]
  rfl

theorem readNanos_nanoText {nano : Nat} (h : nano < 1000000000) (hrest : DigitsEnd rest)
    (hpoint : rest.head? ≠ some '.') : readNanos (nanoText nano ++ rest) = .ok (nano, rest) := by
  unfold nanoText
  split
  · next hzero =>
    subst hzero
    unfold readNanos
    split
    · next heq => exact absurd (congrArg List.head? heq) hpoint
    · rfl
  split
  · next hmillis =>
    have hread := readNanos_padded 3 (nano / 1000000) (by decide) (by decide) (by omega) hrest
    have hvalue : nano / 1000000 * 10 ^ (9 - 3) = nano := by omega
    rwa [hvalue] at hread
  split
  · next hmicros =>
    have hread := readNanos_padded 6 (nano / 1000) (by decide) (by decide) (by omega) hrest
    have hvalue : nano / 1000 * 10 ^ (9 - 6) = nano := by omega
    rwa [hvalue] at hread
  · have hread := readNanos_padded 9 nano (by decide) (by decide) h hrest
    have hvalue : nano * 10 ^ (9 - 9) = nano := Nat.mul_one nano
    rwa [hvalue] at hread

end Parts

/-! ## Whole timestamps -/

/-- A mark that is no digit ends the digits before it. -/
theorem digitsEnd_mark {mark : Char} (h : mark.isDigit = false) (cs : List Char) :
    DigitsEnd (mark :: cs) := by
  intro c hc
  cases hc
  exact h

theorem digitsEnd_nanoText (nano : Nat) : DigitsEnd (nanoText nano ++ ['Z']) := by
  unfold nanoText
  repeat' split
  all_goals exact digitsEnd_mark (by decide) _

theorem readMark_cons (mark : Char) (rest : List Char) :
    readMark mark (mark :: rest) = .ok rest := by
  rw [readMark, beq_self_eq_true, if_pos rfl]

/-- What was written is read part by part, and universal time has no offset. -/
theorem readMoment_text (t : Timestamp) : readMoment t.text.toList = .ok ((t.moment, 0), []) := by
  obtain ⟨hyear, hmonth, hday, hhour, hminute, hsecond, hnano⟩ := Moment.bounds_of_isReal t.real
  have hinRange : ¬ (decide (t.moment.year < -2147483648) ||
      decide (2147483647 < t.moment.year)) = true := by
    simp only [Bool.or_eq_true, decide_eq_true_eq]
    omega
  have hyearRead : ∀ cs, readYear (yearText t.moment.year ++ '-' :: cs) =
      .ok (t.moment.year, '-' :: cs) := fun cs =>
    readYear_yearText (digitsEnd_mark (by decide) cs)
  have hmonthRead : ∀ cs, readPart 1 12 (padded 2 t.moment.month ++ '-' :: cs) =
      .ok (t.moment.month, '-' :: cs) := fun cs =>
    readPart_padded hmonth.1 hmonth.2 (by omega) (digitsEnd_mark (by decide) cs)
  have hdayRead : ∀ cs, readPart 1 31 (padded 2 t.moment.day ++ 'T' :: cs) =
      .ok (t.moment.day, 'T' :: cs) := fun cs =>
    readPart_padded hday.1 hday.2 (by omega) (digitsEnd_mark (by decide) cs)
  have hseparator : ∀ cs, readSeparator ('T' :: cs) = .ok cs := fun _ => rfl
  have hhourRead : ∀ cs, readPart 0 23 (padded 2 t.moment.hour ++ ':' :: cs) =
      .ok (t.moment.hour, ':' :: cs) := fun cs =>
    readPart_padded (Nat.zero_le _) hhour (by omega) (digitsEnd_mark (by decide) cs)
  have hminuteRead : ∀ cs, readPart 0 59 (padded 2 t.moment.minute ++ ':' :: cs) =
      .ok (t.moment.minute, ':' :: cs) := fun cs =>
    readPart_padded (Nat.zero_le _) hminute (by omega) (digitsEnd_mark (by decide) cs)
  have hsecondRead : readPart 0 60
      (padded 2 t.moment.second ++ (nanoText t.moment.nano ++ ['Z'])) =
        .ok (t.moment.second, nanoText t.moment.nano ++ ['Z']) :=
    readPart_padded (Nat.zero_le _) hsecond (by omega) (digitsEnd_nanoText _)
  have hnanosRead : readNanos (nanoText t.moment.nano ++ ['Z']) = .ok (t.moment.nano, ['Z']) :=
    readNanos_nanoText hnano (digitsEnd_mark (by decide) []) (by decide)
  have hoffset : readOffset ['Z'] = .ok (0, []) := by decide
  rw [text, String.toList_ofList]
  simp only [List.append_assoc, List.cons_append, readMoment, bind, Except.bind, hyearRead,
    if_neg hinRange, readMark_cons, hmonthRead, hdayRead, hseparator, hhourRead, hminuteRead,
    hsecondRead, hnanosRead, hoffset]

/-- **A timestamp that was written is read back.** -/
theorem parse_of_text (t : Timestamp) : parse t.text = .ok t := by
  have hzero := Moment.earlier_zero t.real
  have hreal : (t.moment.earlier 0).isReal = true := by
    rw [hzero]
    exact t.real
  have hblank : ¬ (!([] : List Char).all Text.isBlank) = true := by decide
  have hkept : ¬ (!t.moment.isReal || decide ((0 : Int) ≤ -1440) || decide ((1440 : Int) ≤ 0)) =
      true := by
    rw [t.real]
    decide
  simp only [parse, readMoment_text, bind, Except.bind, if_neg hblank, if_neg hkept, dif_pos hreal]
  cases t
  simp only [hzero]

end Timestamp

end Verdict
