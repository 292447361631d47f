import Verdict.Number.Literal
import Verdict.Settings

/-!
# The language of literals

The grammar of numeric literals, each part with what it stands for: a sign that may be left out
(`OptionalSign`), digits with a point among, behind or before them (`Positional`) and an exponent
that may be left out (`OptionalExponent`). `Decimal.ofLiteral?` reads exactly the decimals of this
grammar (`Decimal.ofLiteral?_eq_some_iff`), and `Number.ofLiteral?` these with a sign and the word
`Infinity` (`Number.ofLiteral?_eq_some_iff`).

The general notation of numbers, which `Settings.float?` reads, has words for infinity and for no
number in any case. A literal of an operand is a text in this notation that has a digit in it, or
`Infinity` in just this case (`Number.ofLiteral?_eq_filtered`).
-/

namespace Verdict

/-! ## Grammar -/

/-- Decimal digits, at least one. -/
structure Digits (cs : List Char) : Prop where
  ne_nil : cs ≠ []
  isDigit : ∀ c ∈ cs, c.isDigit

theorem Digits.single {c : Char} (h : c.isDigit) : Digits [c] :=
  ⟨List.cons_ne_nil _ _, List.forall_mem_singleton.mpr h⟩

/-- A sign that may be left out, and whether it is a minus. -/
inductive OptionalSign : List Char → Bool → Prop where
  | absent : OptionalSign [] false
  | plus : OptionalSign ['+'] false
  | minus : OptionalSign ['-'] true

/-- Digits by position, with the digits before the point and those after it. -/
inductive Positional : List Char → List Char → List Char → Prop where
  | whole {whole : List Char} (hwhole : Digits whole) : Positional whole whole []
  | point {whole fraction : List Char} (hwhole : Digits whole)
      (hfraction : ∀ c ∈ fraction, c.isDigit) : Positional (whole ++ '.' :: fraction) whole fraction
  | fraction {fraction : List Char} (hfraction : Digits fraction) :
      Positional ('.' :: fraction) [] fraction

/-- An exponent that may be left out, and the power of ten that it stands for. -/
inductive OptionalExponent : List Char → Int → Prop where
  | absent : OptionalExponent [] 0
  | present {letter : Char} {sign digits : List Char} {negative : Bool}
      (hletter : letter = 'e' ∨ letter = 'E') (hsign : OptionalSign sign negative)
      (hdigits : Digits digits) : OptionalExponent (letter :: (sign ++ digits))
        (if negative then -(Text.natOfDigits digits : Int) else Text.natOfDigits digits)

/-- A decimal without a sign as it is written. -/
inductive Decimal.Literal : List Char → Decimal → Prop where
  | mk {digits whole fraction power : List Char} {exponent : Int}
      (hdigits : Positional digits whole fraction) (hpower : OptionalExponent power exponent) :
      Literal (digits ++ power)
        ⟨Text.natOfDigits (whole ++ fraction), exponent - fraction.length⟩

/-! ## Cutting digits and signs off -/

/-- The first character, if there is one, is no digit. -/
def DigitsEnd (cs : List Char) : Prop :=
  ∀ c ∈ cs.head?, c.isDigit = false

theorem splitDigits_append {digits rest : List Char} (hdigits : ∀ c ∈ digits, c.isDigit)
    (hrest : DigitsEnd rest) : splitDigits (digits ++ rest) = (digits, rest) := by
  have hstop : rest.takeWhile Char.isDigit = [] ∧ rest.dropWhile Char.isDigit = rest := by
    cases rest with
    | nil => exact ⟨rfl, rfl⟩
    | cons c rest =>
        have hc := hrest c rfl
        exact ⟨List.takeWhile_cons_of_neg (by simp [hc]), List.dropWhile_cons_of_neg (by simp [hc])⟩
  rw [splitDigits, List.takeWhile_append_of_pos hdigits, List.dropWhile_append_of_pos hdigits,
    hstop.1, hstop.2, List.append_nil]

theorem exists_splitDigits (cs : List Char) : ∃ digits rest, splitDigits cs = (digits, rest) ∧
    cs = digits ++ rest ∧ (∀ c ∈ digits, c.isDigit) ∧ DigitsEnd rest := by
  refine ⟨_, _, rfl, List.takeWhile_append_dropWhile.symm,
    fun c hc => List.all_eq_true.mp List.all_takeWhile c hc, fun c hc => ?_⟩
  have hnot := List.head?_dropWhile_not Char.isDigit cs
  rw [Option.mem_def.mp hc] at hnot
  exact hnot

/-- The first character is no sign. -/
def Unsigned (cs : List Char) : Prop :=
  cs.head? ≠ some '-' ∧ cs.head? ≠ some '+'

theorem splitSign_append {sign cs : List Char} {negative : Bool} (hsign : OptionalSign sign negative)
    (hcs : Unsigned cs) : splitSign (sign ++ cs) = (negative, cs) := by
  cases hsign with
  | absent =>
      rw [List.nil_append]
      unfold splitSign
      split
      · exact absurd rfl hcs.1
      · exact absurd rfl hcs.2
      · rfl
  | plus => rfl
  | minus => rfl

theorem exists_splitSign (cs : List Char) : ∃ sign negative rest,
    splitSign cs = (negative, rest) ∧ OptionalSign sign negative ∧ cs = sign ++ rest := by
  unfold splitSign
  split
  · exact ⟨_, _, _, rfl, .minus, rfl⟩
  · exact ⟨_, _, _, rfl, .plus, rfl⟩
  · exact ⟨_, _, _, rfl, .absent, rfl⟩

theorem Digits.unsigned {cs : List Char} (h : Digits cs) (rest : List Char) :
    Unsigned (cs ++ rest) := by
  obtain ⟨c, digits, rfl⟩ := List.exists_cons_of_ne_nil h.ne_nil
  have hdigit := h.isDigit c List.mem_cons_self
  constructor <;> rintro heq <;> cases heq <;> exact absurd hdigit (by decide)

/-! ## Reading decimals -/

theorem exponent?_eq_some_iff {cs : List Char} {exponent : Int} :
    exponent? cs = some exponent ↔ OptionalExponent cs exponent := by
  constructor
  · intro h
    cases cs with
    | nil =>
        cases h
        exact .absent
    | cons letter rest =>
        rw [exponent?] at h
        obtain ⟨sign, negative, digits, hsplit, hsign, rfl⟩ := exists_splitSign rest
        rw [hsplit] at h
        simp only at h
        split at h
        · next hletter =>
            split at h
            · cases h
            · next hdigits =>
                cases h
                simp only [Bool.or_eq_true, List.isEmpty_iff, Bool.not_eq_eq_eq_not, Bool.not_true,
                  not_or, Bool.not_eq_false, List.all_eq_true] at hdigits
                rw [Bool.or_eq_true, beq_iff_eq, beq_iff_eq] at hletter
                exact .present hletter hsign ⟨hdigits.1, hdigits.2⟩
        · cases h
  · intro h
    cases h with
    | absent => rfl
    | @present letter sign digits negative hletter hsign hdigits =>
        have hsplit := splitSign_append hsign (List.append_nil digits ▸ hdigits.unsigned [])
        have hvalid : (digits.isEmpty || !digits.all Char.isDigit) = false := by
          rw [Bool.or_eq_false_iff, List.isEmpty_eq_false_iff, Bool.not_eq_eq_eq_not, Bool.not_false,
            List.all_eq_true]
          exact ⟨hdigits.ne_nil, hdigits.isDigit⟩
        rw [exponent?, if_pos (by simpa using hletter), hsplit]
        simp only [hvalid]
        rfl

/-- Behind the digits of a decimal stands no digit and no point. -/
theorem OptionalExponent.head_ne {cs : List Char} {exponent : Int}
    (h : OptionalExponent cs exponent) : DigitsEnd cs ∧ cs.head? ≠ some '.' := by
  cases h with
  | absent => exact ⟨(fun c hc => nomatch hc), nofun⟩
  | present hletter _ _ =>
      obtain rfl | rfl := hletter
      · exact ⟨fun c hc => by cases hc; rfl, by simp⟩
      · exact ⟨fun c hc => by cases hc; rfl, by simp⟩

/-- The digits of a decimal are cut off as the grammar says. -/
theorem Positional.split {cs whole fraction rest : List Char} (h : Positional cs whole fraction)
    (hrest : DigitsEnd rest ∧ rest.head? ≠ some '.') :
    ∃ afterWhole, splitDigits (cs ++ rest) = (whole, afterWhole) ∧
      splitFraction afterWhole = (fraction, rest) ∧ ¬(whole = [] ∧ fraction = []) := by
  have hpoint : ∀ cs, DigitsEnd ('.' :: cs) := by
    intro cs c hc
    cases hc
    rfl
  cases h with
  | whole hwhole =>
      refine ⟨rest, splitDigits_append hwhole.isDigit hrest.1, ?_, fun h => hwhole.ne_nil h.1⟩
      unfold splitFraction
      split
      · exact absurd rfl hrest.2
      · rfl
  | point hwhole hfraction =>
      refine ⟨'.' :: (fraction ++ rest), ?_, splitDigits_append hfraction hrest.1,
        fun h => hwhole.ne_nil h.1⟩
      rw [List.append_assoc]
      exact splitDigits_append hwhole.isDigit (hpoint _)
  | fraction hfraction =>
      have hnone : splitDigits ([] ++ '.' :: (fraction ++ rest)) = ([], '.' :: (fraction ++ rest)) :=
        splitDigits_append (fun c hc => absurd hc List.not_mem_nil) (hpoint _)
      exact ⟨'.' :: (fraction ++ rest), hnone, splitDigits_append hfraction.isDigit hrest.1,
        fun h => hfraction.ne_nil h.2⟩

/-- Whatever is cut off is digits by position, unless it is nothing. -/
theorem exists_positional {cs whole afterWhole fraction rest : List Char}
    (hwhole : splitDigits cs = (whole, afterWhole))
    (hfraction : splitFraction afterWhole = (fraction, rest))
    (hsome : ¬(whole = [] ∧ fraction = [])) :
    ∃ digits, Positional digits whole fraction ∧ cs = digits ++ rest := by
  obtain ⟨digits, after, hsplit, rfl, hdigits, -⟩ := exists_splitDigits cs
  rw [hwhole] at hsplit
  cases hsplit
  unfold splitFraction at hfraction
  split at hfraction
  · next afterPoint =>
      obtain ⟨places, tail, hsplit, rfl, hplaces, -⟩ := exists_splitDigits afterPoint
      rw [hfraction] at hsplit
      cases hsplit
      by_cases hempty : whole = []
      · subst hempty
        exact ⟨_, .fraction ⟨fun h => hsome ⟨rfl, h⟩, hplaces⟩, rfl⟩
      · exact ⟨_, .point ⟨hempty, hdigits⟩ hplaces, by rw [List.append_assoc]; rfl⟩
  · cases hfraction
    exact ⟨_, .whole ⟨fun h => hsome ⟨h, rfl⟩, hdigits⟩, rfl⟩

/-- The reader of decimals accepts the grammar, each literal with its value, and nothing else. -/
theorem Decimal.ofLiteral?_eq_some_iff {cs : List Char} {d : Decimal} :
    Decimal.ofLiteral? cs = some d ↔ Decimal.Literal cs d := by
  constructor
  · intro h
    unfold Decimal.ofLiteral? at h
    cases hwhole : splitDigits cs with
    | mk whole afterWhole =>
        cases hfraction : splitFraction afterWhole with
        | mk fraction rest =>
            simp only [hwhole, hfraction] at h
            split at h
            · cases h
            · next hsome =>
                rw [Bool.and_eq_true, List.isEmpty_iff, List.isEmpty_iff] at hsome
                obtain ⟨digits, hdigits, rfl⟩ := exists_positional hwhole hfraction hsome
                obtain ⟨exponent, hexponent, rfl⟩ := Option.map_eq_some_iff.mp h
                exact .mk hdigits (exponent?_eq_some_iff.mp hexponent)
  · intro h
    cases h with
    | mk hdigits hpower =>
        obtain ⟨afterWhole, hwhole, hfraction, hsome⟩ := hdigits.split hpower.head_ne
        unfold Decimal.ofLiteral?
        simp only [hwhole, hfraction, exponent?_eq_some_iff.mpr hpower]
        rw [if_neg (by rwa [Bool.and_eq_true, List.isEmpty_iff, List.isEmpty_iff])]
        rfl

/-! ## Reading numbers -/

theorem Decimal.Literal.unsigned {cs : List Char} {d : Decimal} (h : Decimal.Literal cs d) :
    Unsigned cs := by
  cases h with
  | @mk digits whole fraction power exponent hdigits hpower =>
      cases hdigits with
      | whole hwhole => exact hwhole.unsigned power
      | point hwhole _ =>
          rw [List.append_assoc]
          exact hwhole.unsigned _
      | fraction _ => exact ⟨by simp, by simp⟩

theorem Digits.exists_digit {cs : List Char} (h : Digits cs) : ∃ c ∈ cs, c.isDigit := by
  obtain ⟨c, digits, rfl⟩ := List.exists_cons_of_ne_nil h.ne_nil
  exact ⟨c, List.mem_cons_self, h.isDigit c List.mem_cons_self⟩

theorem Decimal.Literal.exists_digit {cs : List Char} {d : Decimal} (h : Decimal.Literal cs d) :
    ∃ c ∈ cs, c.isDigit := by
  cases h with
  | mk hdigits hpower =>
      cases hdigits with
      | whole hwhole =>
          obtain ⟨c, hc, hdigit⟩ := hwhole.exists_digit
          exact ⟨c, List.mem_append_left _ hc, hdigit⟩
      | point hwhole _ =>
          obtain ⟨c, hc, hdigit⟩ := hwhole.exists_digit
          exact ⟨c, List.mem_append_left _ (List.mem_append_left _ hc), hdigit⟩
      | fraction hfraction =>
          obtain ⟨c, hc, hdigit⟩ := hfraction.exists_digit
          exact ⟨c, List.mem_append_left _ (List.mem_cons_of_mem _ hc), hdigit⟩

theorem not_digit_of_all {cs : List Char} (h : (cs.all fun c => !c.isDigit) = true) :
    ∀ c ∈ cs, c.isDigit = false := by
  intro c hc
  rw [← Bool.not_eq_true']
  exact List.all_eq_true.mp h c hc

theorem Decimal.Literal.ne_infinity {cs : List Char} {d : Decimal} (h : Decimal.Literal cs d) :
    cs ≠ "Infinity".toList := by
  rintro rfl
  obtain ⟨c, hc, hdigit⟩ := h.exists_digit
  have hnone : ∀ c ∈ "Infinity".toList, c.isDigit = false := not_digit_of_all (by decide)
  rw [hnone c hc] at hdigit
  cases hdigit

/-- An operand spells a number in two ways: by a decimal, or by the word for infinity, either
with a sign that may be left out. -/
theorem Number.ofLiteral?_eq_some_iff {text : String} {n : Number} :
    Number.ofLiteral? text = some n ↔ ∃ sign negative cs, OptionalSign sign negative ∧
      text.toList = sign ++ cs ∧
      (cs = "Infinity".toList ∧ n = .real negative .infinite ∨
        ∃ d, Decimal.Literal cs d ∧ n = .real negative (.ofDecimal d)) := by
  constructor
  · intro h
    obtain ⟨sign, negative, cs, hsplit, hsign, htext⟩ := exists_splitSign text.toList
    refine ⟨sign, negative, cs, hsign, htext, ?_⟩
    unfold Number.ofLiteral? at h
    simp only [hsplit] at h
    split at h
    · next hword =>
        cases h
        exact .inl ⟨hword, rfl⟩
    · obtain ⟨d, hd, rfl⟩ := Option.map_eq_some_iff.mp h
      exact .inr ⟨d, Decimal.ofLiteral?_eq_some_iff.mp hd, rfl⟩
  · rintro ⟨sign, negative, cs, hsign, htext, ⟨rfl, rfl⟩ | ⟨d, hd, rfl⟩⟩
    · have hsplit : splitSign (sign ++ "Infinity".toList) = (negative, "Infinity".toList) :=
        splitSign_append hsign ⟨by simp, by simp⟩
      unfold Number.ofLiteral?
      simp only [htext, hsplit, if_true]
    · have hsplit := splitSign_append hsign hd.unsigned
      unfold Number.ofLiteral?
      simp only [htext, hsplit, if_neg hd.ne_infinity, Decimal.ofLiteral?_eq_some_iff.mpr hd]
      rfl

/-! ## Words -/

/-- The words that stand for infinity in an operand, in just this case. -/
def infinityWords : List String := ["Infinity", "+Infinity", "-Infinity"]

/-- A text is a decimal with a sign that may be left out. -/
def IsDecimal (text : String) : Prop :=
  ∃ sign negative cs d, OptionalSign sign negative ∧ Decimal.Literal cs d ∧ text.toList = sign ++ cs

/-- A text is a word in letters of any case with a sign that may be left out. -/
def SpellsWord (word text : String) : Prop :=
  ∃ sign negative cs, OptionalSign sign negative ∧ text.toList = sign ++ cs ∧
    cs.map Char.toLower = word.toList

theorem mem_infinityWords_iff {text : String} : text ∈ infinityWords ↔
    ∃ sign negative, OptionalSign sign negative ∧ text.toList = sign ++ "Infinity".toList := by
  simp only [infinityWords, List.mem_cons, List.not_mem_nil, or_false]
  constructor
  · rintro (rfl | rfl | rfl)
    · exact ⟨_, _, .absent, rfl⟩
    · exact ⟨_, _, .plus, rfl⟩
    · exact ⟨_, _, .minus, rfl⟩
  · rintro ⟨sign, negative, hsign, htext⟩
    cases hsign with
    | absent => exact .inl (String.toList_inj.mp htext)
    | plus => exact .inr (.inl (String.toList_inj.mp htext))
    | minus => exact .inr (.inr (String.toList_inj.mp htext))

/-- The texts that spell a number in an operand. -/
theorem Number.exists_ofLiteral?_iff {text : String} :
    (∃ n, Number.ofLiteral? text = some n) ↔ text ∈ infinityWords ∨ IsDecimal text := by
  rw [mem_infinityWords_iff]
  constructor
  · rintro ⟨n, h⟩
    obtain ⟨sign, negative, cs, hsign, htext, ⟨rfl, rfl⟩ | ⟨d, hd, rfl⟩⟩ :=
      Number.ofLiteral?_eq_some_iff.mp h
    · exact .inl ⟨sign, negative, hsign, htext⟩
    · exact .inr ⟨sign, negative, cs, d, hsign, hd, htext⟩
  · rintro (⟨sign, negative, hsign, htext⟩ | ⟨sign, negative, cs, d, hsign, hd, htext⟩)
    · exact ⟨_, Number.ofLiteral?_eq_some_iff.mpr
        ⟨sign, negative, _, hsign, htext, .inl ⟨rfl, rfl⟩⟩⟩
    · exact ⟨_, Number.ofLiteral?_eq_some_iff.mpr
        ⟨sign, negative, cs, hsign, htext, .inr ⟨d, hd, rfl⟩⟩⟩

theorem OptionalSign.not_digit {sign : List Char} {negative : Bool}
    (h : OptionalSign sign negative) : ∀ c ∈ sign, c.isDigit = false := by
  cases h <;> exact not_digit_of_all (by decide)

theorem toLower_of_isDigit {c : Char} (h : c.isDigit) : c.toLower = c := by
  simp only [Char.isDigit, Bool.and_eq_true, decide_eq_true_eq] at h
  unfold Char.toLower
  grind

/-- The words for infinity and for no number have no digit in them. -/
theorem SpellsWord.not_digit {word text : String} (h : SpellsWord word text)
    (hword : word ∈ ["inf", "infinity", "nan"]) : ∀ c ∈ text.toList, c.isDigit = false := by
  obtain ⟨sign, negative, cs, hsign, htext, hlower⟩ := h
  have hletters : ∀ word ∈ ["inf", "infinity", "nan"],
      (word.toList.all fun c => !c.isDigit) = true := by decide
  intro c hc
  rw [htext] at hc
  obtain hc | hc := List.mem_append.mp hc
  · exact hsign.not_digit c hc
  · cases hdigit : c.isDigit with
    | false => rfl
    | true =>
        have hmem : c ∈ word.toList := by
          rw [← hlower, ← toLower_of_isDigit hdigit]
          exact List.mem_map_of_mem hc
        rw [← hdigit, not_digit_of_all (hletters word hword) c hmem]

theorem IsDecimal.exists_digit {text : String} (h : IsDecimal text) :
    ∃ c ∈ text.toList, c.isDigit := by
  obtain ⟨sign, negative, cs, d, -, hd, htext⟩ := h
  obtain ⟨c, hc, hdigit⟩ := hd.exists_digit
  exact ⟨c, htext ▸ List.mem_append_right sign hc, hdigit⟩

/-- A word in another case than that of `infinityWords` spells no number in an operand. -/
theorem SpellsWord.ofLiteral?_eq_none {word text : String} (h : SpellsWord word text)
    (hword : word ∈ ["inf", "infinity", "nan"]) (hcase : text ∉ infinityWords) :
    Number.ofLiteral? text = none := by
  cases hread : Number.ofLiteral? text with
  | none => rfl
  | some n =>
      obtain hinfinity | hdecimal := Number.exists_ofLiteral?_iff.mp ⟨n, hread⟩
      · exact absurd hinfinity hcase
      · obtain ⟨c, hc, hdigit⟩ := hdecimal.exists_digit
        rw [h.not_digit hword c hc] at hdigit
        cases hdigit

theorem OptionalSign.length_le {sign : List Char} {negative : Bool}
    (h : OptionalSign sign negative) : sign.length ≤ 1 := by
  cases h <;> decide

/-- The words of three letters are too short for those of an operand. -/
theorem SpellsWord.not_mem_infinityWords {word text : String} (h : SpellsWord word text)
    (hword : word.toList.length = 3) : text ∉ infinityWords := by
  rw [mem_infinityWords_iff]
  rintro ⟨sign, negative, hsign, htext⟩
  obtain ⟨sign', negative', cs, hsign', htext', hlower⟩ := h
  have hcs : cs.length = 3 := by rw [← hword, ← hlower, List.length_map]
  have hlength : sign'.length + cs.length = sign.length + 8 := by
    rw [← List.length_append, ← htext', htext, List.length_append]
    rfl
  have hshort := hsign'.length_le
  omega

/-- An operand is read in the general notation if it has a digit. Of the words only `Infinity` is
left to it, in this case. -/
theorem Number.ofLiteral?_eq_filtered (text : String) :
    Number.ofLiteral? text =
      if text = "Infinity" ∨ text = "+Infinity" then some infinity
      else if text = "-Infinity" then some negInfinity
      else if text.toList.any Char.isDigit then Settings.float? text
      else none := by
  by_cases hcase : text ∈ infinityWords
  · simp only [infinityWords, List.mem_cons, List.not_mem_nil, or_false] at hcase
    obtain rfl | rfl | rfl := hcase <;> rfl
  · have hcases := hcase
    simp only [infinityWords, List.mem_cons, List.not_mem_nil, or_false, not_or] at hcases
    obtain ⟨hbare, hplus, hminus⟩ := hcases
    rw [if_neg (not_or.mpr ⟨hbare, hplus⟩), if_neg hminus]
    cases hread : Number.ofLiteral? text with
    | some n =>
        obtain hinfinity | hdecimal := Number.exists_ofLiteral?_iff.mp ⟨n, hread⟩
        · exact absurd hinfinity hcase
        · rw [if_pos (List.any_eq_true.mpr hdecimal.exists_digit), Settings.float?, hread]
    | none =>
        split
        · next hdigit =>
            obtain ⟨c, hc, hdigit⟩ := List.any_eq_true.mp hdigit
            obtain ⟨sign, negative, cs, hsplit, hsign, htext⟩ := exists_splitSign text.toList
            have hno : ∀ word ∈ ["inf", "infinity", "nan"], (String.ofList cs).toLower ≠ word := by
              intro word hword hlower
              have hmap : (String.ofList cs).toLower.toList = cs.map Char.toLower := by
                show (String.map Char.toLower (String.ofList cs)).toList = _
                rw [String.toList_map, String.toList_ofList]
              have hspells : SpellsWord word text :=
                ⟨sign, negative, cs, hsign, htext, by rw [← hlower, hmap]⟩
              rw [hspells.not_digit hword c hc] at hdigit
              cases hdigit
            unfold Settings.float?
            simp only [hread, hsplit]
            split
            · next hlower => exact absurd hlower (hno _ (by decide))
            · next hlower => exact absurd hlower (hno _ (by decide))
            · next hlower => exact absurd hlower (hno _ (by decide))
            · rfl
        · rfl

end Verdict
