import Mathlib.Tactic.Positivity
import Mathlib.Tactic.Ring
import Verdict.Number

/-!
# Rounding

`Magnitude.nearest` keeps the order of the quotients that it rounds (`rank_nearest_mono`), and it
gives every magnitude back from its own value (`nearest_units`). All else that is said here of
rounding follows from these two: only the value of a quotient counts (`nearest_congr`), quotients
beyond all finite magnitudes become infinite (`nearest_eq_infinite`), and a quotient no greater
than a finite magnitude becomes finite (`isFinite_nearest`).
-/

namespace Verdict

namespace Magnitude

variable {num den num' den' : Nat}

/-! ## Whole numbers -/

theorem roundHalfEven_mul_self (whole : Nat) (hden : 0 < den) :
    roundHalfEven (whole * den) den = whole := by
  simp only [roundHalfEven, Nat.mul_div_cancel whole hden, Nat.mul_mod_left, Nat.mul_zero,
    if_pos hden]

/-- A quotient is rounded to the whole number below or above it. -/
theorem roundHalfEven_cases (num den : Nat) :
    roundHalfEven num den = num / den ∨ roundHalfEven num den = num / den + 1 := by
  simp only [roundHalfEven]
  split
  · exact .inl rfl
  split
  · exact .inr rfl
  · omega

theorem div_le_div (hden : 0 < den) (hden' : 0 < den') (h : num * den' ≤ num' * den) :
    num / den ≤ num' / den' := by
  rw [Nat.le_div_iff_mul_le hden']
  refine Nat.le_of_mul_le_mul_right ?_ hden
  calc num / den * den' * den = num / den * den * den' := by ring
    _ ≤ num * den' := Nat.mul_le_mul_right _ (Nat.div_mul_le_self num den)
    _ ≤ num' * den := h

/-- Rounding keeps the order of quotients. -/
theorem roundHalfEven_mono (hden : 0 < den) (hden' : 0 < den') (h : num * den' ≤ num' * den) :
    roundHalfEven num den ≤ roundHalfEven num' den' := by
  obtain hlt | heq := Nat.lt_or_eq_of_le (div_le_div hden hden' h)
  · have hceil := roundHalfEven_cases num den
    have hfloor := roundHalfEven_cases num' den'
    omega
  · -- both lie above the same whole number, so what remains compares as the quotients do
    have hrest : 2 * (num % den) * den' ≤ 2 * (num' % den') * den := by
      have hsplit := congrArg (· * den') (Nat.div_add_mod num den)
      have hsplit' := congrArg (· * den) (Nat.div_add_mod num' den')
      have hwhole : den * (num / den) * den' = den' * (num' / den') * den := by rw [heq]; ring
      simp only [Nat.add_mul] at hsplit hsplit'
      simp only [Nat.mul_assoc 2]
      omega
    have hbelow : 2 * (num' % den') < den' → 2 * (num % den) < den := by
      intro hlt
      refine Nat.lt_of_mul_lt_mul_right (Nat.lt_of_le_of_lt hrest ?_)
      rw [Nat.mul_comm den den']
      exact Nat.mul_lt_mul_of_pos_right hlt hden
    have habove : den < 2 * (num % den) → den' < 2 * (num' % den') := by
      intro hlt
      refine Nat.lt_of_mul_lt_mul_right (Nat.lt_of_lt_of_le ?_ hrest)
      rw [Nat.mul_comm den' den]
      exact Nat.mul_lt_mul_of_pos_right hlt hden'
    simp only [roundHalfEven, heq]
    split <;> split <;> grind

/-- Rounding does not pass a whole number. -/
theorem roundHalfEven_le (hden : 0 < den) {whole : Nat} (h : num ≤ whole * den) :
    roundHalfEven num den ≤ whole := by
  rw [← roundHalfEven_mul_self whole hden]
  exact roundHalfEven_mono hden hden (Nat.mul_le_mul_right den h)

theorem le_roundHalfEven (hden : 0 < den) {whole : Nat} (h : whole * den ≤ num) :
    whole ≤ roundHalfEven num den := by
  rw [← roundHalfEven_mul_self whole hden]
  exact roundHalfEven_mono hden hden (Nat.mul_le_mul_right den h)

/-! ## Ranks -/

theorem eq_of_rank_eq {a b : Magnitude} (h : a.rank = b.rank) : a = b := by
  cases a
  cases b
  cases h
  rfl

theorem ofRank_rank (m : Magnitude) : ofRank m.rank = m :=
  eq_of_rank_eq (Nat.min_eq_left m.rank_le)

theorem rank_ofRank_mono {r s : Nat} (h : r ≤ s) : (ofRank r).rank ≤ (ofRank s).rank :=
  Nat.le_min.mpr ⟨Nat.le_trans (Nat.min_le_left _ _) h, Nat.min_le_right _ _⟩

/-- The units in one. -/
def unitsOfOne : Nat := Nat.pow 2 1074

theorem unitsOfOne_pos : 0 < unitsOfOne := by
  decide +kernel

/-- The places that rounding leaves out, so that 53 bits of the quotient are kept. -/
def shiftOf (num den : Nat) : Nat :=
  (num / den).log2 - 52

/-- The rank nearest to a quotient of units; it may lie past the last rank. -/
def rankNearest (num den : Nat) : Nat :=
  shiftOf num den * 2 ^ 52 + roundHalfEven num (den * 2 ^ shiftOf num den)

theorem nearest_eq (num den : Nat) :
    nearest num den = ofRank (rankNearest (num * unitsOfOne) den) := by
  unfold nearest rankNearest shiftOf unitsOfOne
  simp only [Nat.pow_eq, -Nat.reducePow]

theorem log2_mono {a b : Nat} (h : a ≤ b) : a.log2 ≤ b.log2 := by
  by_cases ha : a = 0
  · subst ha
    exact Nat.zero_le _
  · exact (Nat.le_log2 (by omega)).mpr (Nat.le_trans (Nat.log2_self_le ha) h)

/-- What is kept of a quotient has at most 53 bits. -/
theorem le_mul_shiftOf (num : Nat) (hden : 0 < den) :
    num ≤ 2 ^ 53 * (den * 2 ^ shiftOf num den) := by
  have hbits : num / den < 2 ^ (53 + shiftOf num den) :=
    Nat.lt_of_lt_of_le Nat.lt_log2_self
      (Nat.pow_le_pow_right (by decide) (by rw [shiftOf]; omega))
  rw [Nat.div_lt_iff_lt_mul hden] at hbits
  refine Nat.le_of_lt (Nat.lt_of_lt_of_eq hbits ?_)
  ring

/-- What is kept of a quotient that loses places has 53 bits. -/
theorem mul_shiftOf_le (num : Nat) (hden : 0 < den) (h : 0 < shiftOf num den) :
    2 ^ 52 * (den * 2 ^ shiftOf num den) ≤ num := by
  have hne : num / den ≠ 0 := by
    intro hzero
    rw [shiftOf, hzero] at h
    exact absurd h (by decide)
  have hbits : 2 ^ (52 + shiftOf num den) ≤ num / den := by
    refine Nat.le_trans (Nat.pow_le_pow_right (by decide) ?_) (Nat.log2_self_le hne)
    rw [shiftOf] at h ⊢
    omega
  rw [Nat.le_div_iff_mul_le hden] at hbits
  refine Nat.le_trans (Nat.le_of_eq ?_) hbits
  ring

theorem rankNearest_mono (hden : 0 < den) (hden' : 0 < den') (h : num * den' ≤ num' * den) :
    rankNearest num den ≤ rankNearest num' den' := by
  have hshift : shiftOf num den ≤ shiftOf num' den' :=
    Nat.sub_le_sub_right (log2_mono (div_le_div hden hden' h)) 52
  have hpos := Nat.mul_pos hden (Nat.two_pow_pos (shiftOf num den))
  have hpos' := Nat.mul_pos hden' (Nat.two_pow_pos (shiftOf num' den'))
  unfold rankNearest
  obtain hlt | heq := Nat.lt_or_eq_of_le hshift
  · -- the greater quotient loses more places, so it stands in a later block of ranks
    have hupper := roundHalfEven_le hpos (le_mul_shiftOf num hden)
    have hlower := le_roundHalfEven hpos' (mul_shiftOf_le num' hden' (by omega))
    omega
  · rw [← heq] at hpos' ⊢
    refine Nat.add_le_add_left (roundHalfEven_mono hpos hpos' ?_) _
    calc num * (den' * 2 ^ shiftOf num den) = num * den' * 2 ^ shiftOf num den := by ring
      _ ≤ num' * den * 2 ^ shiftOf num den := Nat.mul_le_mul_right _ h
      _ = num' * (den * 2 ^ shiftOf num den) := by ring

/-- The nearest magnitudes stand to each other as the quotients do. -/
theorem rank_nearest_mono (hden : 0 < den) (hden' : 0 < den') (h : num * den' ≤ num' * den) :
    (nearest num den).rank ≤ (nearest num' den').rank := by
  rw [nearest_eq, nearest_eq]
  refine rank_ofRank_mono (rankNearest_mono hden hden' ?_)
  calc num * unitsOfOne * den' = num * den' * unitsOfOne := by ring
    _ ≤ num' * den * unitsOfOne := Nat.mul_le_mul_right _ h
    _ = num' * unitsOfOne * den := by ring

/-- Only the value of a quotient counts. -/
theorem nearest_congr (hden : 0 < den) (hden' : 0 < den') (h : num * den' = num' * den) :
    nearest num den = nearest num' den' :=
  eq_of_rank_eq (Nat.le_antisymm (rank_nearest_mono hden hden' (Nat.le_of_eq h))
    (rank_nearest_mono hden' hden (Nat.le_of_eq h.symm)))

/-! ## Values -/

theorem scale_add_significand (m : Magnitude) : m.scale * 2 ^ 52 + m.significand = m.rank := by
  simp only [scale, significand, Nat.pow_eq]
  split <;> omega

theorem significand_lt (m : Magnitude) : m.significand < 2 ^ 53 := by
  simp only [significand, Nat.pow_eq]
  split <;> omega

theorem le_significand {m : Magnitude} (h : 0 < m.scale) : 2 ^ 52 ≤ m.significand := by
  simp only [scale, significand, Nat.pow_eq] at h ⊢
  split <;> omega

/-- Values stand to each other as the ranks do. -/
theorem units_mono {a b : Magnitude} (h : a.rank ≤ b.rank) : a.units ≤ b.units := by
  have hscale : a.scale ≤ b.scale := Nat.sub_le_sub_right (Nat.div_le_div_right h) 1
  rw [units, units, Nat.pow_eq, Nat.pow_eq]
  obtain hlt | heq := Nat.lt_or_eq_of_le hscale
  · calc a.significand * 2 ^ a.scale ≤ 2 ^ 53 * 2 ^ a.scale :=
          Nat.mul_le_mul_right _ (Nat.le_of_lt a.significand_lt)
      _ = 2 ^ 52 * 2 ^ (a.scale + 1) := by ring
      _ ≤ 2 ^ 52 * 2 ^ b.scale := Nat.mul_le_mul_left _ (Nat.pow_le_pow_right (by decide) hlt)
      _ ≤ b.significand * 2 ^ b.scale :=
          Nat.mul_le_mul_right _ (le_significand (Nat.zero_lt_of_lt hlt))
  · rw [heq]
    refine Nat.mul_le_mul_right _ ?_
    have ha := a.scale_add_significand
    have hb := b.scale_add_significand
    rw [heq] at ha
    omega

/-- The value of a magnitude has 53 bits above the places that its scale counts, or no such
places. -/
theorem log2_units (m : Magnitude) : m.units.log2 - 52 = m.scale := by
  simp only [units, scale, significand, Nat.pow_eq]
  split
  · next hlt =>
      have hscale : m.rank / 2 ^ 52 - 1 = 0 := by omega
      have hlog : m.rank.log2 ≤ (2 ^ 52 - 1).log2 := log2_mono (by omega)
      rw [hscale, Nat.pow_zero, Nat.mul_one]
      exact Nat.sub_eq_zero_of_le (Nat.le_trans hlog (by decide))
  · next hge =>
      generalize hfield : m.rank % 2 ^ 52 = field
      generalize m.rank / 2 ^ 52 - 1 = scale
      have hlt : field < 2 ^ 52 := hfield ▸ Nat.mod_lt _ (by decide)
      have hlog : ((2 ^ 52 + field) * 2 ^ scale).log2 = 52 + scale := by
        have hpos := Nat.two_pow_pos scale
        rw [Nat.log2_eq_iff (by positivity), Nat.add_right_comm, Nat.pow_add, Nat.pow_add]
        exact ⟨Nat.mul_le_mul_right _ (by omega), Nat.mul_lt_mul_of_pos_right (by omega) hpos⟩
      omega

/-- Every magnitude is the nearest one to its own value. -/
theorem nearest_units (m : Magnitude) : nearest m.units unitsOfOne = m := by
  have hpos : 0 < unitsOfOne * 2 ^ m.scale := Nat.mul_pos unitsOfOne_pos (Nat.two_pow_pos _)
  have hshift : shiftOf (m.units * unitsOfOne) unitsOfOne = m.scale := by
    rw [shiftOf, Nat.mul_div_cancel _ unitsOfOne_pos, log2_units]
  have hvalue : m.units * unitsOfOne = m.significand * (unitsOfOne * 2 ^ m.scale) := by
    rw [units, Nat.pow_eq]
    ring
  rw [nearest_eq, rankNearest, hshift, hvalue, roundHalfEven_mul_self _ hpos,
    scale_add_significand, ofRank_rank]

/-! ## Both ends of the range -/

theorem le_rank_nearest {m : Magnitude} (hden : 0 < den) (h : m.units * den ≤ num * unitsOfOne) :
    m.rank ≤ (nearest num den).rank := by
  have hrank := rank_nearest_mono unitsOfOne_pos hden h
  rwa [nearest_units] at hrank

theorem rank_nearest_le {m : Magnitude} (hden : 0 < den) (h : num * unitsOfOne ≤ m.units * den) :
    (nearest num den).rank ≤ m.rank := by
  have hrank := rank_nearest_mono hden unitsOfOne_pos h
  rwa [nearest_units] at hrank

/-- A quotient no greater than a finite magnitude becomes finite. -/
theorem isFinite_nearest {m : Magnitude} (hm : m.isFinite) (hden : 0 < den)
    (h : num * unitsOfOne ≤ m.units * den) : (nearest num den).isFinite := by
  have hrank := rank_nearest_le hden h
  simp only [isFinite, decide_eq_true_eq] at hm ⊢
  omega

/-- A quotient from the value of the infinite rank on becomes infinite. -/
theorem nearest_eq_infinite (hden : 0 < den) (h : infinite.units * den ≤ num * unitsOfOne) :
    nearest num den = infinite :=
  eq_of_rank_eq (Nat.le_antisymm (nearest num den).rank_le (le_rank_nearest hden h))

/-- A quotient below half a unit becomes zero. -/
theorem nearest_eq_zero (h : 2 * (num * unitsOfOne) < den) : nearest num den = zero := by
  have hlow : num * unitsOfOne / den = 0 := Nat.div_eq_of_lt (by omega)
  have hrest : num * unitsOfOne % den = num * unitsOfOne := Nat.mod_eq_of_lt (by omega)
  have hshift : shiftOf (num * unitsOfOne) den = 0 := by rw [shiftOf, hlow]; rfl
  rw [nearest_eq, rankNearest, hshift, roundHalfEven]
  simp only [Nat.pow_zero, Nat.mul_one, hlow, hrest, if_pos h]
  rfl

/-! ## Quotients of magnitudes -/

theorem units_one : (ofNat 1).units = unitsOfOne := by
  decide +kernel

theorem unitsOfOne_le_units_ofNat {n : Nat} (h : 0 < n) : unitsOfOne ≤ (ofNat n).units := by
  rw [← units_one]
  refine units_mono (rank_nearest_mono Nat.one_pos Nat.one_pos ?_)
  omega

/-- A finite magnitude over a whole number stays finite. -/
theorem isFinite_div_ofNat {m : Magnitude} (hm : m.isFinite) {n : Nat} (hn : 0 < n) :
    (m.div (ofNat n)).isFinite := by
  have hunits := unitsOfOne_le_units_ofNat hn
  exact isFinite_nearest hm (Nat.lt_of_lt_of_le unitsOfOne_pos hunits)
    (Nat.mul_le_mul_left _ hunits)

/-- Whole numbers of 64 bits are far below the end of the range. -/
theorem isFinite_ofNat {n : Nat} (h : n ≤ 2 ^ 64) : (ofNat n).isFinite := by
  have hgreatest : 2 ^ 64 * unitsOfOne ≤ (ofRank (infiniteRank - 1)).units := by decide +kernel
  refine isFinite_nearest (m := ofRank (infiniteRank - 1)) (by decide) Nat.one_pos ?_
  rw [Nat.mul_one]
  exact Nat.le_trans (Nat.mul_le_mul_right _ h) hgreatest

end Magnitude

end Verdict
