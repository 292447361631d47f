import Verdict.Proofs.Token.Cuts
import Verdict.Proofs.Tree.Accepted

/-!
# Spaces between tokens

At a gap of blanks or at a bracket a text falls into two texts that are cut each for itself, so
nothing that stands beyond has a say in how a text is cut. And every token is cut into itself. So
the tokens of a text may be written down anew, with any gaps between them (`Token.written`): they
are cut apart again and come to the same tree. The main statement is `Token.scan_local`.
-/

namespace Verdict

namespace Token

/-- Some blanks, at least one. -/
def IsGap (gap : String) : Prop :=
  gap ≠ "" ∧ ∀ c ∈ gap.toList, Text.isBlank c

-- decided along the text, and not over all characters that there are
instance (gap : String) : Decidable (IsGap gap) :=
  decidable_of_iff (gap ≠ "" ∧ gap.toList.all Text.isBlank = true) (by rw [List.all_eq_true, IsGap])

/-- Tokens written one after the other, each one but the first with a gap before it. -/
def written (first : Token) : List (String × Token) → String
  | [] => first.text
  | (gap, token) :: rest => first.text ++ gap ++ written token rest

/-! ## Gaps -/

/-- Blanks in front of a text spell nothing. -/
theorem spelled_blanks_append {gap : List Char} (h : ∀ c ∈ gap, Text.isBlank c)
    (rest : List Char) : spelled (gap ++ rest) = spelled rest := by
  induction gap with
  | nil => rfl
  | cons c gap ih =>
      obtain ⟨hc, hgap⟩ := List.forall_mem_cons.mp h
      rw [List.cons_append, ← List.nil_append (c :: (gap ++ rest)), spelled_blank hc, ih hgap]
      rfl

/-- At a gap a text falls into two. -/
theorem spelled_gap {gap : String} (h : IsGap gap) (a rest : List Char) :
    spelled (a ++ (gap.toList ++ rest)) = spelled a ++ spelled rest := by
  obtain ⟨hne, hblank⟩ := h
  have hchars : gap.toList ≠ [] := by
    simpa using hne
  obtain ⟨c, cs, hcs⟩ := List.exists_cons_of_ne_nil hchars
  rw [hcs] at hblank ⊢
  obtain ⟨hc, hcs⟩ := List.forall_mem_cons.mp hblank
  rw [List.cons_append, spelled_blank hc, spelled_blanks_append hcs]

/-- A text that is not blank has a token. -/
theorem ne_nil_of_scan {text : String} {tokens : List Token} (h : scan text = .ok tokens) :
    tokens ≠ [] := by
  rintro rfl
  obtain ⟨hblank, hspelled⟩ := scan_eq_ok_iff.mp h
  have hlexemes : lexemes text.toList = [] := List.map_eq_nil_iff.mp hspelled
  -- without lexemes there is no character but blanks
  have hsolid : solid text.toList = [] := by
    rw [← flatten_lexemes, hlexemes]
    rfl
  have hall : ∀ c ∈ text.toList, Text.isBlank c = true := by
    simpa [solid] using hsolid
  rw [List.all_eq_true.mpr hall] at hblank
  cases hblank

/-! ## Tokens written anew -/

/-- Tokens that spell themselves are spelled by the text in which they are written. -/
theorem spelled_written {first : Token} {rest : List (String × Token)}
    (htokens : ∀ token ∈ first :: rest.map Prod.snd, spelled token.text.toList = [token])
    (hgaps : ∀ p ∈ rest, IsGap p.1) :
    spelled (written first rest).toList = first :: rest.map Prod.snd := by
  induction rest generalizing first with
  | nil => exact htokens first List.mem_cons_self
  | cons p rest ih =>
      obtain ⟨gap, token⟩ := p
      obtain ⟨hgap, hgaps⟩ := List.forall_mem_cons.mp hgaps
      obtain ⟨hfirst, htokens⟩ := List.forall_mem_cons.mp htokens
      have hchars : (written first ((gap, token) :: rest)).toList =
          first.text.toList ++ (gap.toList ++ (written token rest).toList) := by
        simp [written]
      rw [hchars, spelled_gap hgap, hfirst, ih htokens hgaps]
      rfl

/-- **Locality of tokens.** Two texts that are not blank have tokens, and with a gap between the
texts these are the tokens of the whole, one list behind the other; with a bracket between the texts
it stands between the lists. Every token of a text is cut into itself alone. Written down with any
gaps between them, the tokens of a text are cut apart again, and the text that is written has the
tree of the first one, if there is any. -/
theorem scan_local :
    (∀ a b : String, a.toList.all Text.isBlank = false → b.toList.all Text.isBlank = false →
      ∃ ta tb, scan a = .ok ta ∧ scan b = .ok tb ∧
        (∀ gap, IsGap gap → scan (a ++ gap ++ b) = .ok (ta ++ tb)) ∧
        ∀ c ∈ brackets, scan (a ++ String.ofList [c] ++ b) =
          .ok (ta ++ [ofText (String.ofList [c])] ++ tb)) ∧
    ∀ text tokens, scan text = .ok tokens → tokens ≠ [] ∧
      (∀ token ∈ tokens, scan token.text = .ok [token]) ∧
      ∀ first rest, tokens = first :: rest.map Prod.snd → (∀ p ∈ rest, IsGap p.1) →
        scan (written first rest) = .ok tokens ∧
        ∀ t, Tree.parse (written first rest) = .ok t ↔ Tree.parse text = .ok t := by
  constructor
  · intro a b ha hb
    have hta : scan a = .ok (spelled a.toList) := scan_eq_ok_iff.mpr ⟨ha, rfl⟩
    have htb : scan b = .ok (spelled b.toList) := scan_eq_ok_iff.mpr ⟨hb, rfl⟩
    have hne : spelled a.toList ≠ [] := ne_nil_of_scan hta
    refine ⟨_, _, hta, htb, fun gap hgap => ?_, fun c hc => ?_⟩
    · refine scan_of_spelled ?_ (List.append_ne_nil_of_left_ne_nil hne _)
      rw [String.toList_append, String.toList_append, List.append_assoc, spelled_gap hgap]
    · refine scan_of_spelled ?_ (by simp)
      rw [String.toList_append, String.toList_append, String.toList_ofList, List.append_assoc,
        List.singleton_append, spelled_bracket hc]
      simp
  · intro text tokens h
    refine ⟨ne_nil_of_scan h, fun token => scan_text_of_scan h, ?_⟩
    rintro first rest rfl hgaps
    have hwritten : scan (written first rest) = .ok (first :: rest.map Prod.snd) :=
      scan_of_spelled (spelled_written (fun token => spelled_text_of_scan h) hgaps)
        (List.cons_ne_nil _ _)
    exact ⟨hwritten, fun t => Tree.parse_eq_ok_congr (hwritten.trans h.symm)⟩

/-- With a gap between them, two halves of a word do not become one. Letters that only a word kept
apart stand apart as tokens, and so does what is written around them. -/
theorem scan_local_halves :
    let text := "éAND[x>"
    let spaced := "é\n AND\u3000[ x\t>"
    let tokens := [.operand "é", .operator .and, .operand "[", .operand "x", .operator .gt]
    (∃ ta tb, scan "x AN" = .ok ta ∧ scan "D= y" = .ok tb ∧ IsGap " \n" ∧
      scan "x AN \nD= y" = .ok (ta ++ tb) ∧
      scan "x AN[D= y" = .ok (ta ++ [.operand "["] ++ tb)) ∧
    scan text = .ok tokens ∧ scan "é" = .ok [.operand "é"] ∧ scan spaced = .ok tokens ∧
      ∀ t, Tree.parse spaced = .ok t ↔ Tree.parse text = .ok t := by
  intro text spaced tokens
  have htext : scan text = .ok tokens :=
    scan_of_spelled (by decide +kernel) (List.cons_ne_nil _ _)
  have hgap : IsGap " \n" := by decide
  obtain ⟨hlocal, hagain⟩ := scan_local
  obtain ⟨ta, tb, hta, htb, hgaps, hbrackets⟩ := hlocal "x AN" "D= y" (by decide) (by decide)
  obtain ⟨-, hself, hwritten⟩ := hagain text tokens htext
  obtain ⟨hspaced, hparse⟩ := hwritten (.operand "é")
    [("\n ", .operator .and), ("\u3000", .operand "["), (" ", .operand "x"), ("\t", .operator .gt)]
    rfl (by decide)
  exact ⟨⟨ta, tb, hta, htb, hgap, hgaps " \n" hgap, hbrackets '[' (by decide)⟩, htext,
    hself (.operand "é") List.mem_cons_self, hspaced, hparse⟩

end Token

end Verdict
