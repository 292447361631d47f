import Verdict.Proofs.Number.Decimal
import Verdict.Proofs.Number.Literal
import Verdict.Proofs.Text.Digits

/-!
# Numbers that read back

The text of a number spells that number in an operand. A decimal is written by position, and what
is read from its text has its value, whether the point stands behind, among or before the digits
(`Decimal.exists_literal_text`). As the shortest decimal of a magnitude rounds back to it, every
number but `nan` is read back from its text, only that the negative zero has lost its sign
(`Number.ofLiteral?_text`).
-/

namespace Verdict

/-! ## Decimals by position -/

namespace Decimal

/-- Digits without an exponent are a decimal. -/
theorem Literal.of_positional {cs whole fraction : List Char} (h : Positional cs whole fraction) :
    Literal cs ⟨Text.natOfDigits (whole ++ fraction), -(fraction.length : Int)⟩ := by
  have hliteral := Literal.mk h .absent
  rwa [List.append_nil, Int.zero_sub] at hliteral

theorem isDigit_of_mem_replicate {c : Char} {count : Nat} (h : c ∈ List.replicate count '0') :
    c.isDigit := by
  rw [List.eq_of_mem_replicate h]
  rfl

/-- Whole: the exponent is written as zeros behind the digits. -/
theorem exists_literal_of_nonneg {d : Decimal} (h : 0 ≤ d.exponent) :
    ∃ d', Literal d.text.toList d' ∧ Magnitude.ofDecimal d' = Magnitude.ofDecimal d := by
  obtain ⟨digits, exponent⟩ := d
  obtain ⟨places, rfl⟩ := Int.eq_ofNat_of_zero_le h
  have hdigits : Digits (Text.decimalDigits digits ++ List.replicate places '0') := by
    refine ⟨fun hnil => Text.decimalDigits_ne_nil _ (List.append_eq_nil_iff.mp hnil).1, ?_⟩
    intro c hc
    obtain hc | hc := List.mem_append.mp hc
    · exact Text.isDigit_of_mem_decimalDigits hc
    · exact isDigit_of_mem_replicate hc
  have hvalue : Text.natOfDigits (Text.decimalDigits digits ++ List.replicate places '0') =
      digits * 10 ^ places := by
    rw [Text.natOfDigits_append, Text.natOfDigits_decimalDigits, Text.natOfDigits_replicate_zero,
      List.length_replicate, Nat.add_zero]
  have hliteral := Literal.of_positional (.whole hdigits)
  have htext : (text ⟨digits, places⟩).toList =
      Text.decimalDigits digits ++ List.replicate places '0' := by
    rw [text, if_pos h, String.toList_ofList]
    rfl
  rw [List.append_nil, hvalue, List.length_nil, Int.natCast_zero, Int.neg_zero, ← htext] at hliteral
  refine ⟨_, hliteral, ?_⟩
  rw [Magnitude.ofDecimal_mul_pow, Int.zero_add]

/-- Broken: the point stands among the digits or before them. -/
theorem literal_of_neg {d : Decimal} (h : d.exponent < 0) : Literal d.text.toList d := by
  obtain ⟨digits, exponent⟩ := d
  obtain ⟨places, rfl⟩ : ∃ places : Nat, exponent = -(places : Int) :=
    ⟨exponent.natAbs, by simp only at h; omega⟩
  have hnot : ¬ 0 ≤ -(places : Int) := Int.not_le.mpr h
  generalize hdigits : Text.decimalDigits digits = written
  have hvalue : Text.natOfDigits written = digits :=
    hdigits ▸ Text.natOfDigits_decimalDigits digits
  have hall : ∀ c ∈ written, c.isDigit :=
    fun c hc => Text.isDigit_of_mem_decimalDigits (hdigits ▸ hc)
  simp only [text, if_neg hnot, Int.natAbs_neg, Int.natAbs_natCast, hdigits]
  split
  · next hlong =>
      have hwhole : Digits (written.take (written.length - places)) := by
        refine ⟨fun hnil => ?_, fun c hc => hall c (List.mem_of_mem_take hc)⟩
        have hlength := congrArg List.length hnil
        rw [List.length_take, List.length_nil] at hlength
        omega
      have hfraction : ∀ c ∈ written.drop (written.length - places), c.isDigit :=
        fun c hc => hall c (List.mem_of_mem_drop hc)
      have hplaces : (written.drop (written.length - places)).length = places := by
        rw [List.length_drop]
        omega
      have hliteral := Literal.of_positional (.point hwhole hfraction)
      rw [List.take_append_drop, hvalue, hplaces] at hliteral
      rwa [String.toList_ofList]
  · next hshort =>
      have hfraction : ∀ c ∈ List.replicate (places - written.length) '0' ++ written,
          c.isDigit := by
        intro c hc
        obtain hc | hc := List.mem_append.mp hc
        · exact isDigit_of_mem_replicate hc
        · exact hall c hc
      have hplaces : (List.replicate (places - written.length) '0' ++ written).length = places := by
        rw [List.length_append, List.length_replicate]
        omega
      have hzeros : Text.natOfDigits
          (['0'] ++ (List.replicate (places - written.length) '0' ++ written)) = digits := by
        rw [Text.natOfDigits_append, Text.natOfDigits_append, Text.natOfDigits_replicate_zero,
          hvalue, show Text.natOfDigits ['0'] = 0 from rfl, Nat.zero_mul, Nat.zero_mul,
          Nat.zero_add, Nat.zero_add]
      have hliteral := Literal.of_positional
        (.point (Digits.single (c := '0') rfl) hfraction)
      rw [hzeros, hplaces] at hliteral
      rwa [String.toList_ofList]

/-- The text of a decimal spells a decimal of its value. -/
theorem exists_literal_text (d : Decimal) :
    ∃ d', Literal d.text.toList d' ∧ Magnitude.ofDecimal d' = Magnitude.ofDecimal d := by
  obtain h | h := Int.lt_or_le d.exponent 0
  · exact ⟨d, literal_of_neg h, rfl⟩
  · exact exists_literal_of_nonneg h

end Decimal

/-! ## Numbers -/

namespace Number

/-- The text of a magnitude spells it. -/
theorem unsigned_text (m : Magnitude) {unsigned : String}
    (h : unsigned = if m.isFinite then m.shortest.text else "Infinity") :
    unsigned.toList = "Infinity".toList ∧ m = .infinite ∨
      ∃ d, Decimal.Literal unsigned.toList d ∧ m = .ofDecimal d := by
  subst h
  split
  · obtain ⟨d, hd, hvalue⟩ := m.shortest.exists_literal_text
    exact .inr ⟨d, hd, by rw [hvalue, Magnitude.ofDecimal_shortest]⟩
  · next hinfinite =>
      refine .inl ⟨rfl, Magnitude.eq_of_rank_eq ?_⟩
      have hle := m.rank_le
      rw [Magnitude.isFinite, decide_eq_true_eq] at hinfinite
      show m.rank = infiniteRank
      omega

/-- Every number but `nan` is read from its text, the zeros both as the one without a sign. -/
theorem ofLiteral?_text (negative : Bool) (m : Magnitude) :
    ofLiteral? (real negative m).text =
      some (if m.rank = 0 then zero else real negative m) := by
  rw [text]
  split
  · rfl
  · generalize hunsigned : (if m.isFinite then m.shortest.text else "Infinity") = unsigned
    have hspelled := unsigned_text m hunsigned.symm
    rw [ofLiteral?_eq_some_iff]
    have hvalue : unsigned.toList = "Infinity".toList ∧
        real negative m = real negative .infinite ∨
        ∃ d, Decimal.Literal unsigned.toList d ∧
          real negative m = real negative (.ofDecimal d) :=
      hspelled.imp (fun h => ⟨h.1, congrArg _ h.2⟩) fun ⟨d, hd, hm⟩ => ⟨d, hd, congrArg _ hm⟩
    cases negative with
    | false => exact ⟨_, _, _, .absent, rfl, hvalue⟩
    | true => exact ⟨_, _, _, .minus, String.toList_append, hvalue⟩

theorem ofLiteral?_text_nan : ofLiteral? (text .nan) = none := rfl

end Number

end Verdict
