import Verdict.Proofs.Evaluation.Equality
import Verdict.Proofs.Number.ReadBack

/-!
# What operands stand for

A token stands for the field of its name. Without such a field it stands for the number that it
spells, if it is a decimal or one of the words for infinity, and else for itself
(`Record.resolve_literal`). The text of a number is such a spelling, and it stands for the number
that was written (`Record.resolve_text`), so only the two zeros share a text.
-/

namespace Verdict

/-! ## Tokens without a field -/

section Token

variable {record : Record} {token : String}

theorem Record.resolve_of_get? {value : Value} (h : record.get? token = some value) :
    record.resolve token = value := by
  rw [resolve, h]

theorem Record.resolve_of_literal (hfield : record.get? token = none) {n : Number}
    (h : Number.ofLiteral? token = some n) : record.resolve token = .number n := by
  rw [resolve, hfield, h]

theorem Record.resolve_of_no_literal (hfield : record.get? token = none)
    (h : Number.ofLiteral? token = none) : record.resolve token = .string token := by
  rw [resolve, hfield, h]

/-- A token without a field stands for a number if it spells one. -/
theorem Record.exists_resolve_eq_number_iff (hfield : record.get? token = none) :
    (∃ n, record.resolve token = .number n) ↔ ∃ n, Number.ofLiteral? token = some n := by
  constructor
  · rintro ⟨n, h⟩
    cases hread : Number.ofLiteral? token with
    | some m => exact ⟨m, rfl⟩
    | none =>
        rw [resolve_of_no_literal hfield hread] at h
        cases h
  · rintro ⟨n, h⟩
    exact ⟨n, resolve_of_literal hfield h⟩

end Token

/-- A token with a field stands for the value of the field, whatever it looks like. Every other
token stands for a number exactly if it is a decimal or one of the words for infinity in their own
case, never for `nan`, and for itself otherwise; so do `nan` and `inf` in whatever case. -/
theorem Record.resolve_literal (record : Record) (token : String) :
    (∀ value, record.get? token = some value → record.resolve token = value) ∧
    (record.get? token = none →
      ((∃ n, record.resolve token = .number n) ↔ token ∈ infinityWords ∨ IsDecimal token) ∧
      (¬(token ∈ infinityWords ∨ IsDecimal token) → record.resolve token = .string token) ∧
      (SpellsWord "nan" token ∨ SpellsWord "inf" token ∨
          SpellsWord "infinity" token ∧ token ∉ infinityWords →
        record.resolve token = .string token) ∧
      record.resolve token ≠ .number .nan) := by
  refine ⟨fun value h => resolve_of_get? h, fun hfield => ⟨?_, ?_, ?_, ?_⟩⟩
  · rw [exists_resolve_eq_number_iff hfield, Number.exists_ofLiteral?_iff]
  · intro hno
    cases hread : Number.ofLiteral? token with
    | none => exact resolve_of_no_literal hfield hread
    | some n => exact absurd (Number.exists_ofLiteral?_iff.mp ⟨n, hread⟩) hno
  · intro hword
    refine resolve_of_no_literal hfield ?_
    obtain hnan | hinf | ⟨hinfinity, hcase⟩ := hword
    · exact hnan.ofLiteral?_eq_none (by decide) (hnan.not_mem_infinityWords rfl)
    · exact hinf.ofLiteral?_eq_none (by decide) (hinf.not_mem_infinityWords rfl)
    · exact hinfinity.ofLiteral?_eq_none (by decide) hcase
  · intro hnan
    cases hread : Number.ofLiteral? token with
    | none =>
        rw [resolve_of_no_literal hfield hread] at hnan
        cases hnan
    | some n =>
        rw [resolve_of_literal hfield hread] at hnan
        exact Number.ne_nan_of_ofLiteral? hread (Value.number.inj hnan)

/-- On a record whose only field is named `42`, that token stands for the text of the field,
`+.5E-3` for a number and `-NaN` for itself. -/
theorem Record.resolve_literal_fraction :
    (empty.insert "42" (.string "answer")).resolve "42" = .string "answer" ∧
      (∃ n, (empty.insert "42" (.string "answer")).resolve "+.5E-3" = .number n) ∧
      (empty.insert "42" (.string "answer")).resolve "-NaN" = .string "-NaN" := by
  have hdecimal : IsDecimal "+.5E-3" :=
    ⟨['+'], false, _, _, .plus, .mk (.fraction (Digits.single (c := '5') rfl))
      (.present (.inr rfl) .minus (Digits.single (c := '3') rfl)), rfl⟩
  have hnan : SpellsWord "nan" "-NaN" := ⟨['-'], true, _, .minus, rfl, rfl⟩
  refine ⟨(resolve_literal _ "42").1 _ (by decide), ?_, ?_⟩
  · exact ((resolve_literal _ "+.5E-3").2 (by decide)).1.mpr (.inr hdecimal)
  · exact ((resolve_literal _ "-NaN").2 (by decide)).2.2.1 (.inl hnan)

/-! ## Texts of numbers -/

namespace Number

/-- What is read from the text of a number equals it. -/
theorem equals_reread (negative : Bool) (m : Magnitude) :
    (if m.rank = 0 then zero else real negative m).Equals (real negative m) := by
  split
  · next hzero =>
      obtain rfl : m = .zero := Magnitude.eq_of_rank_eq hzero
      exact .zeros false negative
  · exact .bits negative m

/-- Numbers with one text are equal. -/
theorem equals_of_text_eq {a b : Number} (ha : a ≠ .nan) (hb : b ≠ .nan) (h : a.text = b.text) :
    a.Equals b := by
  cases a with
  | nan => exact absurd rfl ha
  | real negative m =>
      cases b with
      | nan => exact absurd rfl hb
      | real negative' m' =>
          have hread := congrArg ofLiteral? h
          rw [ofLiteral?_text, ofLiteral?_text] at hread
          obtain ⟨p, hp, hplace⟩ := (equals_reread negative m).place?_eq
          obtain ⟨p', hp', hplace'⟩ := (equals_reread negative' m').place?_eq
          rw [Option.some.inj hread, hp', Option.some.injEq] at hp
          exact equals_of_place?_eq hplace (hp ▸ hplace')

end Number

/-- Where no field has the name, the text of a number stands for this number, or for zero without
a sign if it is the negative zero; the text of `nan` stands for itself. So different numbers have
different texts. -/
theorem Record.resolve_text (record : Record) (n : Number)
    (h : record.get? (Value.number n).text = none) :
    (n ≠ .nan → ∃ m, record.resolve (Value.number n).text = .number m ∧ m.same n = true ∧
      (n ≠ .real true .zero → m = n) ∧ (n = .real true .zero → m = .zero)) ∧
    (n = .nan → record.resolve (Value.number n).text = .string "NaN") ∧
    (∀ a b : Number, a ≠ .nan → b ≠ .nan → a.same b = false →
      (Value.number a).text ≠ (Value.number b).text) := by
  refine ⟨fun hn => ?_, ?_, ?_⟩
  · cases n with
    | nan => exact absurd rfl hn
    | real negative m =>
        refine ⟨_, resolve_of_literal h (Number.ofLiteral?_text negative m),
          Number.same_iff_equals.mpr (Number.equals_reread negative m), ?_, ?_⟩
        · intro hne
          split
          · next hzero =>
              obtain rfl : m = .zero := Magnitude.eq_of_rank_eq hzero
              cases negative with
              | false => rfl
              | true => exact absurd rfl hne
          · rfl
        · intro heq
          cases heq
          rfl
  · rintro rfl
    exact resolve_of_no_literal h Number.ofLiteral?_text_nan
  · intro a b ha hb hdiffer htext
    have hsame := Number.same_iff_equals.mpr (Number.equals_of_text_eq ha hb htext)
    rw [hdiffer] at hsame
    cases hsame

/-- On the empty record the text of the least number above zero stands for it, that of the negative
zero for zero, and that of `nan` for itself; the two least numbers have different texts. -/
theorem Record.resolve_text_least :
    empty.resolve (Value.number (.ofBits 1)).text = .number (.ofBits 1) ∧
      empty.resolve (Value.number (.real true .zero)).text = .number .zero ∧
      empty.resolve (Value.number .nan).text = .string "NaN" ∧
      (Value.number (.ofBits 1)).text ≠ (Value.number (.ofBits 2)).text := by
  obtain ⟨m, hleast, -, hbits, -⟩ := (resolve_text empty (.ofBits 1) rfl).1 (by decide)
  obtain ⟨z, hzero, -, -, hsign⟩ := (resolve_text empty (.real true .zero) rfl).1 (by decide)
  refine ⟨?_, ?_, (resolve_text empty .nan rfl).2.1 rfl, ?_⟩
  · rw [hleast, hbits (by decide)]
  · rw [hzero, hsign rfl]
  · exact (resolve_text empty .nan rfl).2.2 _ _ (by decide) (by decide) (by decide)

end Verdict
