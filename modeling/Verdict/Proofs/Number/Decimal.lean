import Verdict.Number.Decimal
import Verdict.Proofs.Number.Rounding

/-!
# Decimals that round back

A decimal is a quotient, `Decimal.num` over `Decimal.den`, and `Magnitude.ofDecimal` rounds this
quotient: the bounds on the exponent that it looks at first only spare great powers
(`ofDecimal_eq_nearest`). So a factor ten may move between digits and exponent, and the shortest
decimal of a magnitude rounds back to it, whichever branch of the search it comes from
(`ofDecimal_shortest`).
-/

namespace Verdict

namespace Decimal

/-- The numerator of a decimal as a quotient. -/
def num (d : Decimal) : Nat :=
  d.digits * 10 ^ d.exponent.toNat

/-- The denominator of a decimal as a quotient. -/
def den (d : Decimal) : Nat :=
  10 ^ (-d.exponent).toNat

theorem den_pos (d : Decimal) : 0 < d.den :=
  Nat.pow_pos (by decide)

end Decimal

namespace Magnitude

/-! ## Rounding a decimal -/

/-- The bound above: a decimal with so great an exponent is beyond every finite magnitude. -/
theorem nearest_of_lt_exponent {d : Decimal} (hdigits : d.digits ≠ 0) (h : 400 < d.exponent) :
    nearest d.num d.den = infinite := by
  have hpower : infinite.units ≤ 10 ^ 401 * unitsOfOne := by decide +kernel
  have hden : d.den = 1 := by
    rw [Decimal.den, show (-d.exponent).toNat = 0 by omega, Nat.pow_zero]
  have hexponent : 401 ≤ d.exponent.toNat := by omega
  have hnum : 10 ^ 401 ≤ d.num :=
    Nat.le_trans (pow_le_pow_right₀ (by decide) hexponent)
      (Nat.le_mul_of_pos_left _ (Nat.pos_of_ne_zero hdigits))
  refine nearest_eq_infinite d.den_pos ?_
  rw [hden, Nat.mul_one]
  exact Nat.le_trans hpower (Nat.mul_le_mul_right _ hnum)

/-- The bound below: 10 has more than three bits, so such a decimal is below half a unit. -/
theorem nearest_of_log2_lt {d : Decimal}
    (h : (d.digits.log2 : Int) + 1 + 3 * d.exponent < -1080) : nearest d.num d.den = zero := by
  obtain ⟨digits, exponent⟩ := d
  simp only at h
  obtain ⟨places, rfl⟩ : ∃ places : Nat, exponent = -(places : Int) := ⟨exponent.natAbs, by omega⟩
  have hnum : Decimal.num ⟨digits, -(places : Int)⟩ = digits := by
    rw [Decimal.num, show (-(places : Int)).toNat = 0 by omega, Nat.pow_zero, Nat.mul_one]
  have hden : Decimal.den ⟨digits, -(places : Int)⟩ = 10 ^ places := by
    rw [Decimal.den, Int.neg_neg, Int.toNat_natCast]
  have hunits : 2 * unitsOfOne = 2 ^ 1075 := by decide +kernel
  refine nearest_eq_zero ?_
  rw [hnum, hden]
  calc 2 * (digits * unitsOfOne) = digits * (2 * unitsOfOne) := by ring
    _ < 2 ^ (digits.log2 + 1) * (2 * unitsOfOne) :=
        Nat.mul_lt_mul_of_pos_right Nat.lt_log2_self (Nat.mul_pos (by decide) unitsOfOne_pos)
    _ = 2 ^ (digits.log2 + 1 + 1075) := by rw [hunits, ← Nat.pow_add]
    _ ≤ 2 ^ (3 * places) := Nat.pow_le_pow_right (by decide) (by omega)
    _ = 8 ^ places := Nat.pow_mul 2 3 places
    _ ≤ 10 ^ places := Nat.pow_le_pow_left (by decide) _

/-- A decimal is rounded as the quotient that it is. -/
theorem ofDecimal_eq_nearest (d : Decimal) : ofDecimal d = nearest d.num d.den := by
  unfold ofDecimal
  split
  · next hzero =>
      refine (nearest_eq_zero ?_).symm
      rw [Decimal.num, hzero, Nat.zero_mul, Nat.zero_mul]
      exact d.den_pos
  · next hdigits =>
      split
      · next hgreat => exact (nearest_of_lt_exponent hdigits hgreat).symm
      split
      · next hwhole =>
          rw [ofNat, Decimal.num, Decimal.den, show (-d.exponent).toNat = 0 by omega]
          rfl
      split
      · next hsmall => exact (nearest_of_log2_lt hsmall).symm
      · rw [Decimal.num, Decimal.den, show d.exponent.toNat = 0 by omega, Nat.pow_zero,
          Nat.mul_one, show (-d.exponent).toNat = d.exponent.natAbs by omega]
        rfl

/-- Only the value of a decimal counts. -/
theorem ofDecimal_congr {a b : Decimal} (h : a.num * b.den = b.num * a.den) :
    ofDecimal a = ofDecimal b := by
  rw [ofDecimal_eq_nearest, ofDecimal_eq_nearest]
  exact nearest_congr a.den_pos b.den_pos h

/-- Powers of ten may stand in the digits or in the exponent. -/
theorem ofDecimal_mul_pow (digits places : Nat) (exponent : Int) :
    ofDecimal ⟨digits * 10 ^ places, exponent⟩ = ofDecimal ⟨digits, exponent + places⟩ := by
  refine ofDecimal_congr ?_
  simp only [Decimal.num, Decimal.den, Nat.mul_assoc, ← Nat.pow_add]
  congr 2
  omega

/-! ## The shortest decimal -/

theorem ofDecimal_stripAux (fuel : Nat) (d : Decimal) :
    ofDecimal (Decimal.stripAux fuel d) = ofDecimal d := by
  induction fuel generalizing d with
  | zero => rfl
  | succ fuel ih =>
      rw [Decimal.stripAux]
      split
      · next hzero =>
          have hdigits : d.digits = d.digits / 10 * 10 ^ 1 := by omega
          rw [ih, ← Int.natCast_one, ← ofDecimal_mul_pow, ← hdigits]
      · rfl

theorem ofDecimal_strip (d : Decimal) : ofDecimal d.strip = ofDecimal d := by
  rw [Decimal.strip]
  split
  · next hzero => rw [ofDecimal, if_pos rfl, ofDecimal, if_pos hzero]
  · exact ofDecimal_stripAux _ d

theorem ofDecimal_of_onGrid? {m : Magnitude} {exponent : Int} {d : Decimal}
    (h : m.onGrid? exponent = some d) : ofDecimal d = m := by
  unfold onGrid? at h
  simp only at h
  split at h
  · next hbelow =>
      cases h
      exact of_decide_eq_true (Bool.and_eq_true_iff.mp hbelow).1
  · split at h
    · next habove =>
        cases h
        exact habove
    · cases h

theorem ofDecimal_of_firstOnGrid? {m : Magnitude} {top : Int} {fuel count : Nat} {d : Decimal}
    (h : m.firstOnGrid? top fuel count = some d) : ofDecimal d = m := by
  induction fuel generalizing count with
  | zero => cases h
  | succ fuel ih =>
      rw [firstOnGrid?] at h
      split at h
      · next found hfound =>
          cases h
          exact ofDecimal_of_onGrid? hfound
      · exact ih h

theorem ofDecimal_exactDecimal (m : Magnitude) : ofDecimal m.exactDecimal = m := by
  have hden : m.exactDecimal.den = Nat.pow 5 1074 * unitsOfOne := by
    show 10 ^ (-(-1074 : Int)).toNat = _
    decide +kernel
  have hnum : m.exactDecimal.num = m.units * Nat.pow 5 1074 := Nat.mul_one _
  rw [ofDecimal_eq_nearest]
  refine Eq.trans (nearest_congr (Decimal.den_pos _) unitsOfOne_pos ?_) m.nearest_units
  rw [hnum, hden, Nat.mul_assoc]

/-- The shortest decimal of a magnitude rounds back to it. -/
theorem ofDecimal_shortest (m : Magnitude) : ofDecimal m.shortest = m := by
  unfold shortest
  split
  · next hzero => exact eq_of_rank_eq hzero.symm
  · rw [ofDecimal_strip]
    cases hfirst : m.firstOnGrid? (m.tenPowerAbove 3 m.powerBound) 17 1 with
    | none => exact m.ofDecimal_exactDecimal
    | some d => exact ofDecimal_of_firstOnGrid? hfirst

end Magnitude

end Verdict
