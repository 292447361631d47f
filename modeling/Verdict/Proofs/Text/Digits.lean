import Mathlib.Tactic.Ring
import Verdict.Text.Digits

/-!
# Digits that read back

What `Text.decimalDigits` writes are decimal digits, at least one, and `Text.natOfDigits` reads the
number from them (`natOfDigits_decimalDigits`). A list of digits counts from the left, so what
stands behind some digits moves them up by as many powers of ten (`natOfDigits_append`).
-/

namespace Verdict.Text

/-! ## Single digits -/

theorem digitValue_digitChar {d : Nat} (h : d < 10) : digitValue (digitChar d) = d := by
  have hall : ∀ d < 10, digitValue (digitChar d) = d := by decide
  exact hall d h

theorem isDigit_digitChar {d : Nat} (h : d < 10) : (digitChar d).isDigit := by
  have hall : ∀ d < 10, (digitChar d).isDigit := by decide
  exact hall d h

/-! ## Lists of digits -/

/-- Digits read after a number move it up by their count. -/
theorem foldl_digits (digits : List Char) (n : Nat) :
    digits.foldl (fun n c => 10 * n + digitValue c) n =
      n * 10 ^ digits.length + natOfDigits digits := by
  induction digits generalizing n with
  | nil => simp [natOfDigits]
  | cons c digits ih =>
      rw [natOfDigits, List.foldl_cons, List.foldl_cons, ih, ih (10 * 0 + digitValue c),
        List.length_cons]
      ring

theorem natOfDigits_append (a b : List Char) :
    natOfDigits (a ++ b) = natOfDigits a * 10 ^ b.length + natOfDigits b := by
  rw [natOfDigits, List.foldl_append, foldl_digits, ← natOfDigits]

theorem natOfDigits_replicate_zero (count : Nat) : natOfDigits (List.replicate count '0') = 0 := by
  induction count with
  | zero => rfl
  | succ count ih => exact ih

/-! ## Numbers in decimal -/

/-- As many digits as there is fuel hold a number, so that fuel is never short. -/
theorem foldl_prependDecimal (fuel n : Nat) (written : List Char) (h : n < 10 ^ fuel) :
    (prependDecimal fuel n written).foldl (fun n c => 10 * n + digitValue c) 0 =
      written.foldl (fun n c => 10 * n + digitValue c) n := by
  induction fuel generalizing n written with
  | zero =>
      obtain rfl : n = 0 := by omega
      rfl
  | succ fuel ih =>
      rw [prependDecimal]
      split
      · next hlt => rw [List.foldl_cons, digitValue_digitChar hlt, Nat.mul_zero, Nat.zero_add]
      · rw [ih _ _ (by omega), List.foldl_cons, digitValue_digitChar (Nat.mod_lt _ (by decide)),
          Nat.div_add_mod]

theorem natOfDigits_decimalDigits (n : Nat) : natOfDigits (decimalDigits n) = n := by
  have hfuel : n < 10 ^ (n.log2 + 1) :=
    Nat.lt_of_lt_of_le Nat.lt_log2_self (Nat.pow_le_pow_left (by decide) _)
  exact foldl_prependDecimal _ n [] hfuel

theorem isDigit_of_mem_prependDecimal {c : Char} {fuel n : Nat} {written : List Char}
    (hwritten : ∀ c ∈ written, c.isDigit) (h : c ∈ prependDecimal fuel n written) : c.isDigit := by
  induction fuel generalizing n written with
  | zero => exact hwritten c h
  | succ fuel ih =>
      rw [prependDecimal] at h
      split at h
      · next hlt =>
          obtain rfl | old := List.mem_cons.mp h
          · exact isDigit_digitChar hlt
          · exact hwritten c old
      · refine ih (fun c hc => ?_) h
        obtain rfl | old := List.mem_cons.mp hc
        · exact isDigit_digitChar (Nat.mod_lt n (by decide))
        · exact hwritten c old

theorem isDigit_of_mem_decimalDigits {c : Char} {n : Nat} (h : c ∈ decimalDigits n) : c.isDigit :=
  isDigit_of_mem_prependDecimal (fun _ hc => absurd hc List.not_mem_nil) h

theorem prependDecimal_ne_nil {fuel n : Nat} {written : List Char} (h : written ≠ []) :
    prependDecimal fuel n written ≠ [] := by
  induction fuel generalizing n written with
  | zero => exact h
  | succ fuel ih =>
      rw [prependDecimal]
      split
      · exact List.cons_ne_nil _ _
      · exact ih (List.cons_ne_nil _ _)

theorem decimalDigits_ne_nil (n : Nat) : decimalDigits n ≠ [] := by
  rw [decimalDigits, prependDecimal]
  split
  · exact List.cons_ne_nil _ _
  · exact prependDecimal_ne_nil (List.cons_ne_nil _ _)

end Verdict.Text
