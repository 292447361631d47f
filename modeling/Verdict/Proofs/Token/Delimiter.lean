import Verdict.Token.Scan

/-!
# Delimiters in their context

`Token.Delimiter before d rest` says that `d` is cut off as a delimiter between the character
`before` and the text `rest`; `delimiterLength` finds exactly these (`delimiterLength_eq` and
`exists_delimiter`).

A text may be looked at without what follows it wherever nothing goes on across the end: neither a
word nor a sign of two characters. `Apart` says so of a place, and `delimiterLength_append` is the
fact on which all locality of tokens rests.
-/

namespace Verdict

namespace Token

/-- The delimiters that are cut off wherever they stand. -/
def signs : List (List Char) :=
  [['('], [')'], ['['], [']'], ['>', '='], ['<', '='], ['>'], ['<'], ['=']]

/-- The delimiters that are cut off where they are whole words. -/
def words : List (List Char) :=
  [['A', 'N', 'D'], ['O', 'R']]

/-- A delimiter between the character before it and the text behind it. -/
inductive Delimiter (before : Option Char) : List Char → List Char → Prop
  | sign {d rest : List Char} : d ∈ signs → (d = ['>'] ∨ d = ['<'] → rest.head? ≠ some '=') →
      Delimiter before d rest
  | word {d rest : List Char} : d ∈ words → wordStarts before → wordEnds rest →
      Delimiter before d rest

/-- A delimiter is found with its whole length. -/
theorem Delimiter.delimiterLength_eq {before : Option Char} {d rest : List Char}
    (h : Delimiter before d rest) : delimiterLength before (d ++ rest) = d.length := by
  cases h with
  | sign hd hrest =>
      simp only [signs, List.mem_cons, List.not_mem_nil, or_false] at hd
      rcases hd with rfl | rfl | rfl | rfl | rfl | rfl | rfl | rfl | rfl <;> try rfl
      all_goals
        cases rest with
        | nil => rfl
        | cons c rest =>
            have hc : c ≠ '=' := fun he => hrest (by simp) (by rw [he]; rfl)
            simp [delimiterLength, hc]
  | word hd hstarts hends =>
      simp only [words, List.mem_cons, List.not_mem_nil, or_false] at hd
      rcases hd with rfl | rfl <;> simp [delimiterLength, hstarts, hends]

/-- Where a length is found, there is a delimiter of this length. -/
theorem exists_delimiter {before : Option Char} {cs : List Char}
    (h : delimiterLength before cs ≠ 0) :
    ∃ d rest, cs = d ++ rest ∧ Delimiter before d rest := by
  unfold delimiterLength at h
  split at h
  · next rest => exact ⟨['('], rest, rfl, .sign (by decide) (by simp)⟩
  · next rest => exact ⟨[')'], rest, rfl, .sign (by decide) (by simp)⟩
  · next rest => exact ⟨['['], rest, rfl, .sign (by decide) (by simp)⟩
  · next rest => exact ⟨[']'], rest, rfl, .sign (by decide) (by simp)⟩
  · next rest => exact ⟨['>', '='], rest, rfl, .sign (by decide) (by simp)⟩
  · next rest => exact ⟨['<', '='], rest, rfl, .sign (by decide) (by simp)⟩
  · next rest hne =>
      refine ⟨['>'], rest, rfl, .sign (by decide) fun _ hhead => ?_⟩
      cases rest with
      | nil => cases hhead
      | cons c rest => exact hne rest (by rw [Option.some.inj hhead])
  · next rest hne =>
      refine ⟨['<'], rest, rfl, .sign (by decide) fun _ hhead => ?_⟩
      cases rest with
      | nil => cases hhead
      | cons c rest => exact hne rest (by rw [Option.some.inj hhead])
  · next rest => exact ⟨['='], rest, rfl, .sign (by decide) (by simp)⟩
  · next rest =>
      split at h
      · next hword =>
          rw [Bool.and_eq_true] at hword
          exact ⟨['A', 'N', 'D'], rest, rfl, .word (by decide) hword.1 hword.2⟩
      · exact absurd rfl h
  · next rest =>
      split at h
      · next hword =>
          rw [Bool.and_eq_true] at hword
          exact ⟨['O', 'R'], rest, rfl, .word (by decide) hword.1 hword.2⟩
      · exact absurd rfl h
  · exact absurd rfl h

/-! ## The character before a place -/

/-- The last character of a text that stands after a character. -/
def after (before : Option Char) (cs : List Char) : Option Char :=
  cs.foldl (fun _ c => some c) before

@[simp] theorem after_nil (before : Option Char) : after before [] = before := rfl

@[simp] theorem after_cons (before : Option Char) (c : Char) (cs : List Char) :
    after before (c :: cs) = after (some c) cs := rfl

theorem after_append (before : Option Char) (a b : List Char) :
    after before (a ++ b) = after (after before a) b :=
  List.foldl_append

/-- Behind some text it does not matter what stood before it. -/
theorem after_congr {cs : List Char} (h : cs ≠ []) (before before' : Option Char) :
    after before cs = after before' cs := by
  cases cs with
  | nil => exact absurd rfl h
  | cons c cs => rfl

theorem exists_after_eq {cs : List Char} (h : cs ≠ []) (before : Option Char) :
    ∃ c ∈ cs, after before cs = some c := by
  induction cs generalizing before with
  | nil => exact absurd rfl h
  | cons c cs ih =>
      cases cs with
      | nil => exact ⟨c, List.mem_cons_self, rfl⟩
      | cons c' cs =>
          obtain ⟨last, hmem, hlast⟩ := ih (by simp) (some c)
          exact ⟨last, List.mem_cons_of_mem _ hmem, hlast⟩

theorem wordEnds_append {cs : List Char} (h : cs ≠ []) (tail : List Char) :
    wordEnds (cs ++ tail) = wordEnds cs := by
  cases cs with
  | nil => exact absurd rfl h
  | cons c cs => rfl

/-! ## The shapes of delimiters -/

/-- No word goes on into a sign or out of it. -/
theorem wordEnds_of_mem_signs : ∀ d ∈ signs, d ≠ [] ∧ wordEnds d ∧ wordStarts (after none d) := by
  decide

/-- A sign of two characters ends in an equals sign after one that is a sign itself. -/
theorem signs_of_two : ∀ d ∈ signs, d = [d.headD ' '] ∨ d = ['>', '='] ∨ d = ['<', '='] := by
  decide

/-- A whole word has word characters only. -/
theorem isWordChar_of_mem_words : ∀ d ∈ words, d ≠ [] ∧ ∀ c ∈ d, Text.isWordChar c := by
  intro d hd
  simp only [words, List.mem_cons, List.not_mem_nil, or_false] at hd
  rcases hd with rfl | rfl
  · exact ⟨List.cons_ne_nil _ _, List.all_eq_true.mp rfl⟩
  · exact ⟨List.cons_ne_nil _ _, List.all_eq_true.mp rfl⟩

theorem wordEnds_of_mem_words {d : List Char} (h : d ∈ words) (rest : List Char) :
    wordEnds (d ++ rest) = false := by
  obtain ⟨hne, hall⟩ := isWordChar_of_mem_words d h
  obtain ⟨c, cs, rfl⟩ := List.exists_cons_of_ne_nil hne
  simp [wordEnds, hall c List.mem_cons_self]

/-- Behind word characters no word starts. -/
theorem wordStarts_after_of_word {cs : List Char} (hne : cs ≠ [])
    (hall : ∀ c ∈ cs, Text.isWordChar c) (before : Option Char) :
    wordStarts (after before cs) = false := by
  obtain ⟨c, hmem, hlast⟩ := exists_after_eq hne before
  simp [hlast, wordStarts, hall c hmem]

theorem Delimiter.ne_nil {before : Option Char} {d rest : List Char}
    (h : Delimiter before d rest) : d ≠ [] := by
  cases h with
  | sign hd _ => exact (wordEnds_of_mem_signs d hd).1
  | word hd _ _ => exact (isWordChar_of_mem_words d hd).1

theorem Delimiter.isBlank_head {before : Option Char} {d rest : List Char}
    (h : Delimiter before d rest) : Text.isBlank (d.headD ' ') = false := by
  have hsigns : ∀ d ∈ signs, Text.isBlank (d.headD ' ') = false := by decide
  have hwords : ∀ d ∈ words, Text.isBlank (d.headD ' ') = false := by decide
  cases h with
  | sign hd _ => exact hsigns d hd
  | word hd _ _ => exact hwords d hd

theorem Delimiter.delimiterLength_ne_zero {before : Option Char} {d rest : List Char}
    (h : Delimiter before d rest) : delimiterLength before (d ++ rest) ≠ 0 := by
  rw [h.delimiterLength_eq]
  exact fun hzero => h.ne_nil (List.length_eq_zero_iff.mp hzero)

/-! ## Places where nothing goes on -/

/-- No word goes on from a character to the text behind it. -/
def WordApart (before : Option Char) (cs : List Char) : Prop :=
  wordStarts before ∨ wordEnds cs

/-- Neither a word nor a sign goes on from a character to the text behind it. -/
def Apart (before : Option Char) (cs : List Char) : Prop :=
  WordApart before cs ∧ (before = some '>' ∨ before = some '<' → cs.head? ≠ some '=')

/-- No word goes on into a delimiter. -/
theorem Delimiter.wordApart_before {before : Option Char} {d rest : List Char}
    (h : Delimiter before d rest) : WordApart before (d ++ rest) := by
  cases h with
  | sign hd _ =>
      obtain ⟨hne, hends, _⟩ := wordEnds_of_mem_signs d hd
      exact .inr (by rw [wordEnds_append hne, hends])
  | word _ hstarts _ => exact .inl hstarts

/-- No word goes on behind a delimiter. -/
theorem Delimiter.wordApart_after {before : Option Char} {d rest : List Char}
    (h : Delimiter before d rest) : WordApart (after before d) rest := by
  cases h with
  | sign hd _ =>
      obtain ⟨hne, _, hstarts⟩ := wordEnds_of_mem_signs d hd
      exact .inl (by rw [after_congr hne before none, hstarts])
  | word _ _ hends => exact .inr hends

/-- A delimiter is one after any other character from which no word goes on. -/
theorem Delimiter.of_wordApart {before before' : Option Char} {d rest : List Char}
    (h : Delimiter before' d rest) (hapart : WordApart before (d ++ rest)) :
    Delimiter before d rest := by
  cases h with
  | sign hd hrest => exact .sign hd hrest
  | word hd _ hends =>
      rcases hapart with hstarts | hword
      · exact .word hd hstarts hends
      · rw [wordEnds_of_mem_words hd] at hword
        cases hword

/-- A delimiter stays one when text follows that is apart. -/
theorem Delimiter.append {before : Option Char} {d rest tail : List Char}
    (h : Delimiter before d rest) (hapart : Apart (after before (d ++ rest)) tail) :
    Delimiter before d (rest ++ tail) := by
  cases rest with
  | cons c rest =>
      cases h with
      | sign hd hrest => exact .sign hd hrest
      | word hd hstarts hends => exact .word hd hstarts hends
  | nil =>
      -- the delimiter ended the text, so only the tail can make it longer or part of a word
      rw [List.append_nil] at hapart
      cases h with
      | sign hd _ =>
          refine .sign hd fun hsign => hapart.2 ?_
          rcases hsign with rfl | rfl
          · exact .inl rfl
          · exact .inr rfl
      | word hd hstarts _ =>
          obtain ⟨hne, hall⟩ := isWordChar_of_mem_words d hd
          rcases hapart.1 with hlast | hends
          · rw [wordStarts_after_of_word hne hall] at hlast
            cases hlast
          · exact .word hd hstarts hends

/-- A delimiter stays one when the end of the text behind it is taken away. -/
theorem Delimiter.of_append {before : Option Char} {d rest tail : List Char}
    (h : Delimiter before d (rest ++ tail)) : Delimiter before d rest := by
  cases rest with
  | nil =>
      cases h with
      | sign hd _ => exact .sign hd fun _ => by simp
      | word hd hstarts _ => exact .word hd hstarts rfl
  | cons c rest =>
      cases h with
      | sign hd hrest => exact .sign hd hrest
      | word hd hstarts hends => exact .word hd hstarts hends

/-- No delimiter reaches across a place where nothing goes on. -/
theorem Delimiter.not_across {before : Option Char} {a s rest : List Char}
    (h : Delimiter before (a ++ s) rest) (ha : a ≠ []) (hs : s ≠ []) :
    ¬ Apart (after before a) (s ++ rest) := by
  rintro ⟨hword, hsign⟩
  cases h with
  | sign hd _ =>
      obtain ⟨x, a, rfl⟩ := List.exists_cons_of_ne_nil ha
      obtain ⟨y, s, rfl⟩ := List.exists_cons_of_ne_nil hs
      -- a sign that reaches across has two characters, the second of them an equals sign
      rcases signs_of_two _ hd with htwo | htwo | htwo
      · simp at htwo
      · cases a with
        | nil =>
            simp only [List.cons_append, List.nil_append, List.cons.injEq] at htwo
            obtain ⟨rfl, rfl, _⟩ := htwo
            exact hsign (.inl rfl) rfl
        | cons z a => simp at htwo
      · cases a with
        | nil =>
            simp only [List.cons_append, List.nil_append, List.cons.injEq] at htwo
            obtain ⟨rfl, rfl, _⟩ := htwo
            exact hsign (.inr rfl) rfl
        | cons z a => simp at htwo
  | word hd _ _ =>
      -- both sides of the place are characters of one word
      obtain ⟨_, hall⟩ := isWordChar_of_mem_words _ hd
      rcases hword with hstarts | hends
      · rw [wordStarts_after_of_word ha fun c hc => hall c (List.mem_append_left _ hc)] at hstarts
        cases hstarts
      · obtain ⟨y, s, rfl⟩ := List.exists_cons_of_ne_nil hs
        simp [wordEnds, hall y (by simp)] at hends

/-- **Locality.** Where nothing goes on behind a text, what follows makes no difference to the
delimiter at its head. -/
theorem delimiterLength_append {before : Option Char} {a tail : List Char} (ha : a ≠ [])
    (hapart : Apart (after before a) tail) :
    delimiterLength before (a ++ tail) = delimiterLength before a := by
  by_cases hshort : delimiterLength before a = 0
  · by_cases hlong : delimiterLength before (a ++ tail) = 0
    · rw [hshort, hlong]
    · obtain ⟨d, rest, hcs, hd⟩ := exists_delimiter hlong
      -- it ends behind the first text or within it
      rcases List.append_eq_append_iff.mp hcs with ⟨s, rfl, rfl⟩ | ⟨r, rfl, rfl⟩
      · by_cases hs : s = []
        · subst hs
          rw [List.append_nil] at hd
          have hwhole : Delimiter before a ([] ++ rest) := hd
          exact absurd hshort (by simpa using hwhole.of_append.delimiterLength_ne_zero)
        · exact absurd hapart (hd.not_across ha hs)
      · exact absurd hshort hd.of_append.delimiterLength_ne_zero
  · obtain ⟨d, rest, rfl, hd⟩ := exists_delimiter hshort
    rw [hd.delimiterLength_eq, List.append_assoc, (hd.append hapart).delimiterLength_eq]

end Token

end Verdict
