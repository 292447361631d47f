import Verdict.Proofs.Symbol
import Verdict.Proofs.Token.Lexeme

/-!
# What a scan gives

`Token.spelled` are the tokens that a text spells, and a scan gives them for every text that is not
blank (`scan_eq_ok_iff`). They inherit the locality of the lexemes. An operand that a scan gives is
a text that spells this operand and nothing else (`scan_operand`), so it may be written anew in
other surroundings.
-/

namespace Verdict

namespace Token

/-- The tokens that a text spells. -/
def spelled (cs : List Char) : List Token :=
  (lexemes cs).map fun cs => ofText (String.ofList cs)

theorem spelled_blank {c : Char} (h : Text.isBlank c) (a rest : List Char) :
    spelled (a ++ c :: rest) = spelled a ++ spelled rest := by
  simp only [spelled, lexemes_blank h, List.map_append]

/-- A bracket spells a token of its own. -/
theorem spelled_bracket {c : Char} (h : c ∈ ['(', ')', '[', ']']) (a rest : List Char) :
    spelled (a ++ c :: rest) = spelled a ++ ofText (String.ofList [c]) :: spelled rest := by
  simp only [spelled, lexemes_bracket h, List.map_append, List.map_cons]

theorem spelled_opening (a rest : List Char) :
    spelled (a ++ '(' :: rest) = spelled a ++ .opening :: spelled rest :=
  spelled_bracket (by decide) a rest

theorem spelled_closing (a rest : List Char) :
    spelled (a ++ ')' :: rest) = spelled a ++ .closing :: spelled rest :=
  spelled_bracket (by decide) a rest

theorem ofText_symbol (op : Operator) : ofText (Symbol.known op).text = .operator op := by
  cases op <;> decide

theorem spelled_symbol (op : Operator) : spelled op.symbol.toList = [.operator op] := by
  cases op <;> decide

/-- What the text of a token stands for: a parenthesis, the operator that has this symbol, or else
itself as an operand. -/
inductive StandsFor : String → Token → Prop
  | opening : StandsFor "(" .opening
  | closing : StandsFor ")" .closing
  | operator (op : Operator) : StandsFor op.symbol (.operator op)
  | operand {text : String} : text ≠ "(" → text ≠ ")" → (∀ op : Operator, text ≠ op.symbol) →
      StandsFor text (.operand text)

theorem standsFor_ofText (text : String) : StandsFor text (ofText text) := by
  unfold ofText
  by_cases hopening : text = "("
  · rw [if_pos hopening, hopening]
    exact .opening
  by_cases hclosing : text = ")"
  · rw [if_neg hopening, if_pos hclosing, hclosing]
    exact .closing
  rw [if_neg hopening, if_neg hclosing]
  cases hop : Operator.ofSymbol? text with
  | some op =>
      rw [Operator.ofSymbol?_eq_some_iff.mp hop]
      exact .operator op
  | none => exact .operand hopening hclosing (Operator.ofSymbol?_eq_none_iff.mp hop)

theorem StandsFor.text_eq {text : String} {token : Token} (h : StandsFor text token) :
    token.text = text := by
  cases h <;> rfl

/-- A text is the text of the token that it stands for. -/
theorem text_ofText (text : String) : (ofText text).text = text :=
  (standsFor_ofText text).text_eq

/-- Blanks spell nothing. -/
theorem spelled_of_all_blank {cs : List Char} (h : cs.all Text.isBlank) : spelled cs = [] := by
  induction cs with
  | nil => rfl
  | cons c cs ih =>
      rw [List.all_cons, Bool.and_eq_true] at h
      rw [← List.nil_append (c :: cs), spelled_blank h.1, ih h.2]
      rfl

/-- A scan gives the tokens that a text spells, unless the text is blank. -/
theorem scan_eq_ok_iff {text : String} {tokens : List Token} :
    scan text = .ok tokens ↔
      text.toList.all Text.isBlank = false ∧ spelled text.toList = tokens := by
  unfold scan
  cases text.toList.all Text.isBlank with
  | true =>
      rw [if_pos rfl]
      exact ⟨fun h => (nomatch h), fun h => (nomatch h.1)⟩
  | false =>
      rw [if_neg Bool.false_ne_true]
      exact ⟨fun h => ⟨rfl, Except.ok.inj h⟩, fun h => congrArg Except.ok h.2⟩

/-- A text that spells something is not blank. -/
theorem scan_of_spelled {text : String} {tokens : List Token} (h : spelled text.toList = tokens)
    (hne : tokens ≠ []) : scan text = .ok tokens := by
  refine scan_eq_ok_iff.mpr ⟨?_, h⟩
  refine Bool.eq_false_iff.mpr fun hblank => hne ?_
  rw [← h, spelled_of_all_blank hblank]

/-- Only the text of an operand spells it. -/
theorem eq_of_ofText {text w : String} (h : ofText text = .operand w) : text = w := by
  rw [← text_ofText text, h]
  rfl

/-- A token that a scan gives is spelled by its own text, and nothing else is. -/
theorem spelled_text_of_scan {text : String} {token : Token} {tokens : List Token}
    (h : scan text = .ok tokens) (htoken : token ∈ tokens) :
    spelled token.text.toList = [token] := by
  rw [← (scan_eq_ok_iff.mp h).2] at htoken
  obtain ⟨cs, hcs, rfl⟩ := List.mem_map.mp htoken
  rw [text_ofText, String.toList_ofList, spelled, lexemes_of_mem hcs, List.map_singleton]

theorem scan_text_of_scan {text : String} {token : Token} {tokens : List Token}
    (h : scan text = .ok tokens) (htoken : token ∈ tokens) : scan token.text = .ok [token] :=
  scan_of_spelled (spelled_text_of_scan h htoken) (List.cons_ne_nil _ _)

/-- An operand that a scan gives spells itself, and nothing else. -/
theorem scan_operand {text w : String} {tokens : List Token} (h : scan text = .ok tokens)
    (hw : .operand w ∈ tokens) : scan w = .ok [.operand w] :=
  scan_text_of_scan h hw

/-- A text that is cut into itself alone and is neither a parenthesis nor an operator symbol. -/
def IsOperandText (w : String) : Prop :=
  (scan w).map (List.map Token.text) = .ok [w] ∧ w ≠ "(" ∧ w ≠ ")" ∧ ∀ op : Operator, w ≠ op.symbol

theorem isOperandText_iff {w : String} : IsOperandText w ↔ scan w = .ok [.operand w] := by
  constructor
  · rintro ⟨hscan, hopening, hclosing, hsymbol⟩
    cases htokens : scan w with
    | error e =>
        rw [htokens] at hscan
        cases hscan
    | ok tokens =>
        rw [htokens] at hscan
        obtain ⟨token, rfl, htext⟩ := List.map_eq_singleton_iff.mp (Except.ok.inj hscan)
        cases token with
        | opening => exact absurd htext.symm hopening
        | closing => exact absurd htext.symm hclosing
        | operator op => exact absurd htext.symm (hsymbol op)
        | operand text => rw [show text = w from htext]
  · intro h
    refine ⟨?_, ?_, ?_, ?_⟩
    · rw [h]
      rfl
    · rintro rfl
      rw [scan_of_spelled (show _ = [.opening] by decide) (List.cons_ne_nil _ _)] at h
      cases h
    · rintro rfl
      rw [scan_of_spelled (show _ = [.closing] by decide) (List.cons_ne_nil _ _)] at h
      cases h
    · rintro op rfl
      rw [scan_of_spelled (spelled_symbol op) (List.cons_ne_nil _ _)] at h
      cases h

end Token

end Verdict
