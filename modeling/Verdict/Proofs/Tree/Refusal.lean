import Verdict.Proofs.Tree.Assembly
import Verdict.Proofs.Tree.Unlimited

/-!
# Texts that are refused

What has been built is never lost, and nothing is built from parentheses alone: a pass over the
tokens ends without a tree exactly if it started without one, in every group that was open, and
came past nothing but parentheses (`Draft.isAbsent_of_assemble`). A pass that keeps the limits
cannot fail. So only three kinds of text are refused, and each of them for what is in it; every
other text has a tree, however odd the text. The main statement is `Tree.parse_refused_iff`.
-/

namespace Verdict

/-- An opening or a closing parenthesis. -/
def Token.IsParenthesis (token : Token) : Prop :=
  token = .opening ∨ token = .closing

instance : DecidablePred Token.IsParenthesis :=
  fun _ => inferInstanceAs (Decidable (_ ∨ _))

/-! ## What is built and what is not -/

namespace Draft

variable {draft d : Draft} {outer : List Draft}

/-- Closing the open groups leaves no tree if none of them has one. -/
theorem isAbsent_of_closeAll (h : draft.closeAll outer = .ok d) :
    d.tree.isAbsent = true ↔ ∀ e ∈ draft :: outer, e.tree.isAbsent = true := by
  induction outer generalizing draft with
  | nil =>
      cases h
      simp
  | cons enclosing outer ih =>
      obtain ⟨next, hattach, hrest⟩ := bind_eq_ok h
      rw [ih hrest, List.forall_mem_cons, tree_of_attach hattach, Tree.isAbsent_attach,
        Bool.and_eq_true]
      simp only [List.forall_mem_cons]
      tauto

/-- A pass leaves no tree if it starts with none in any open group and comes past parentheses
only. -/
theorem isAbsent_of_assemble {tokens : List Token} (h : draft.assemble outer tokens = .ok d) :
    d.tree.isAbsent = true ↔
      (∀ e ∈ draft :: outer, e.tree.isAbsent = true) ∧
        ∀ token ∈ Token.reached outer.length tokens, token.IsParenthesis := by
  induction tokens generalizing draft outer with
  | nil =>
      rw [isAbsent_of_closeAll h]
      simp
  | cons token rest ih =>
      cases token with
      | operator op =>
          obtain ⟨next, hpush, hrest⟩ := bind_eq_ok h
          have hnext : next.tree.isAbsent = false := by
            rw [tree_of_pushOperator hpush]
            rfl
          rw [ih hrest]
          simp [hnext, Token.IsParenthesis]
      | operand text =>
          obtain ⟨next, hattach, hrest⟩ := bind_eq_ok h
          have hnext : next.tree.isAbsent = false := by
            rw [tree_of_attach hattach, Tree.isAbsent_attach]
            exact Bool.and_false _
          rw [ih hrest]
          simp [hnext, Token.IsParenthesis]
      | opening =>
          -- the group starts from nothing, inside the draft and the groups around it
          rw [ih (assemble_of_opening h)]
          simp [Token.IsParenthesis, empty, Tree.isAbsent]
      | closing =>
          cases outer with
          | nil =>
              cases h
              simp
          | cons enclosing outer =>
              obtain ⟨next, hattach, hrest⟩ := bind_eq_ok h
              rw [ih hrest]
              simp only [List.forall_mem_cons, tree_of_attach hattach, Tree.isAbsent_attach,
                Bool.and_eq_true, List.length_cons, Token.reached_succ_closing]
              simp only [Token.IsParenthesis, or_true, true_and]
              tauto

end Draft

/-! ## Tokens beyond the limits -/

/-- Building these tokens goes beyond the limits: a group that is entered stands too deep, or a tree
that is held on the way has too many levels. -/
def Course.Exceeds (tokens : List Token) : Prop :=
  maxLevels < Token.deepest 0 tokens ∨ ∃ t ∈ (build .absent tokens).held, maxLevels < t.depth

instance (tokens : List Token) : Decidable (Course.Exceeds tokens) :=
  inferInstanceAs (Decidable (_ ∨ _))

theorem Course.exceeds_iff_not_within {tokens : List Token} :
    Exceeds tokens ↔ ¬ Within 0 .absent tokens := by
  unfold Exceeds Within
  simp only [Nat.zero_add, not_and_or, Nat.not_le, not_forall, exists_prop]

namespace Tree

variable {tokens : List Token} {text : String}

theorem ofTokens_of_exceeds (h : Course.Exceeds tokens) :
    ofTokens tokens = .error (.tooDeep (maxLevels + 1)) := by
  rw [ofTokens_eq_ite, if_neg (Course.exceeds_iff_not_within.mp h)]

/-- Within the limits nothing fails, and only parentheses come to no tree. -/
theorem ofTokens_of_not_exceeds (h : ¬ Course.Exceeds tokens) :
    ∃ t, ofTokens tokens = .ok t ∧
      (t.isAbsent = true ↔ ∀ token ∈ Token.reached 0 tokens, token.IsParenthesis) := by
  have hwithin : Course.Within 0 .absent tokens := by
    by_contra hnot
    exact h (Course.exceeds_iff_not_within.mpr hnot)
  have hof : ofTokens tokens = .ok (Course.build .absent tokens).tree := by
    rw [ofTokens_eq_ite, if_pos hwithin]
  have habsent := Draft.isAbsent_of_assemble (assemble_of_ofTokens hof)
  refine ⟨_, hof, habsent.trans (and_iff_right ?_)⟩
  intro e he
  rw [List.mem_singleton.mp he]
  rfl

theorem ofTokens_eq_absent_iff :
    ofTokens tokens = .ok .absent ↔
      ¬ Course.Exceeds tokens ∧ ∀ token ∈ Token.reached 0 tokens, token.IsParenthesis := by
  constructor
  · intro h
    have hlimits : ¬ Course.Exceeds tokens := by
      intro hexceeds
      rw [ofTokens_of_exceeds hexceeds] at h
      cases h
    obtain ⟨t, hof, habsent⟩ := ofTokens_of_not_exceeds hlimits
    rw [hof] at h
    cases h
    exact ⟨hlimits, habsent.mp rfl⟩
  · rintro ⟨hlimits, hbare⟩
    obtain ⟨t, hof, habsent⟩ := ofTokens_of_not_exceeds hlimits
    rw [hof, eq_absent_of_isAbsent (habsent.mpr hbare)]

/-! ## Texts -/

/-- The texts that have no tree: texts of blanks, texts of parentheses as far as the rule goes, and
texts beyond the limits. -/
inductive Refused (text : String) : Prop
  | blank : (∀ c ∈ text.toList, Text.isBlank c) → Refused text
  | bare {tokens : List Token} : Token.scan text = .ok tokens →
      (∀ token ∈ Token.reached 0 tokens, token.IsParenthesis) → Refused text
  | exceeding {tokens : List Token} : Token.scan text = .ok tokens → Course.Exceeds tokens →
      Refused text

/-- A text of one of the three kinds has an error, and it lies in the text. -/
theorem Refused.parse_eq_error (h : Refused text) :
    ∃ e, parse text = .error e ∧ e.IsInvalidInput := by
  have hexceeding : ∀ {tokens}, Token.scan text = .ok tokens → Course.Exceeds tokens →
      ∃ e, parse text = .error e ∧ e.IsInvalidInput := by
    intro tokens hscan hexceeds
    refine ⟨.tooDeep (maxLevels + 1), ?_, rfl⟩
    rw [parse_of_scan hscan, ofTokens_of_exceeds hexceeds]
    rfl
  cases h with
  | blank hall =>
      refine ⟨.blankText, ?_, rfl⟩
      show (Token.scan text).bind _ = _
      rw [Token.scan, if_pos (List.all_eq_true.mpr hall)]
      rfl
  | @bare tokens hscan hbare =>
      by_cases hexceeds : Course.Exceeds tokens
      · exact hexceeding hscan hexceeds
      · refine ⟨.noExpression text, ?_, rfl⟩
        rw [parse_of_scan hscan, ofTokens_eq_absent_iff.mpr ⟨hexceeds, hbare⟩]
        rfl
  | exceeding hscan hexceeds => exact hexceeding hscan hexceeds

/-- Any other text has a tree. -/
theorem exists_parse_of_not_refused (h : ¬ Refused text) :
    ∃ t, parse text = .ok t ∧ t.isAbsent = false := by
  have hsolid : text.toList.all Text.isBlank = false := by
    rw [Bool.eq_false_iff]
    exact fun hall => h (.blank (List.all_eq_true.mp hall))
  have hscan : Token.scan text = .ok (Token.spelled text.toList) :=
    Token.scan_eq_ok_iff.mpr ⟨hsolid, rfl⟩
  obtain ⟨t, hof, habsent⟩ := ofTokens_of_not_exceeds fun hexceeds => h (.exceeding hscan hexceeds)
  have hpresent : t.isAbsent = false := by
    rw [Bool.eq_false_iff]
    exact fun hnone => h (.bare hscan (habsent.mp hnone))
  exact ⟨t, parse_eq_ok_iff.mpr ⟨_, hscan, hof, hpresent⟩, hpresent⟩

/-- **Texts that are refused.** A text is refused exactly if it is blank, or if all of its tokens
before the first closing parenthesis that closes nothing are parentheses, or if building it goes
beyond the limits, and every refusal lies in the text. Every other text has a tree. In the same way
a list of tokens comes to no tree exactly if its tokens before that parenthesis are parentheses and
no limit is passed. -/
theorem parse_refused_iff (text : String) :
    ((∃ e, parse text = .error e) ↔ Refused text) ∧
    (∀ e, parse text = .error e → e.IsInvalidInput) ∧
    (¬ Refused text → ∃ t, parse text = .ok t ∧ t.isAbsent = false) ∧
    ∀ texts : List String,
      let tokens := texts.map Token.ofText
      List.Forall₂ Token.StandsFor texts tokens ∧
      (ofTokens tokens = .ok .absent ↔
        ¬ Course.Exceeds tokens ∧ ∀ token ∈ Token.reached 0 tokens, token.IsParenthesis) := by
  have hrefused : ∀ e, parse text = .error e → Refused text := by
    intro e he
    by_contra hnot
    obtain ⟨t, ht, -⟩ := exists_parse_of_not_refused hnot
    rw [he] at ht
    cases ht
  refine ⟨⟨fun ⟨e, he⟩ => hrefused e he, fun h => ?_⟩, fun e he => ?_,
    exists_parse_of_not_refused, fun texts => ⟨?_, ofTokens_eq_absent_iff⟩⟩
  · obtain ⟨e, he, -⟩ := h.parse_eq_error
    exact ⟨e, he⟩
  · obtain ⟨e', he', hinput⟩ := (hrefused e he).parse_eq_error
    rw [he] at he'
    cases he'
    exact hinput
  · rw [List.forall₂_map_right_iff, List.forall₂_same]
    exact fun text _ => Token.standsFor_ofText text

/-- An operator behind the rule does not help a text of parentheses, one parenthesis too many is
enough to refuse a text, and an operator without any operand has a tree. -/
theorem parse_refused_iff_bare :
    let bare := "(())) AND"
    let deep := String.ofList (List.replicate 101 '(') ++ "a"
    let odd := "()=)("
    (Refused bare ∧ ∃ e, parse bare = .error e) ∧ (Refused deep ∧ ∃ e, parse deep = .error e) ∧
      (parse bare = .error (.noExpression bare) ∧ (RuleError.noExpression bare).IsInvalidInput) ∧
      ¬ Refused odd ∧ ∃ t, parse odd = .ok t ∧ t.isAbsent = false := by
  intro bare deep odd
  have hbare : Token.scan bare = .ok
      [.opening, .opening, .closing, .closing, .closing, .operator .and] :=
    Token.scan_of_spelled (by decide +kernel) (List.cons_ne_nil _ _)
  have hdeep : Token.scan deep = .ok (List.replicate 101 .opening ++ [.operand "a"]) :=
    Token.scan_of_spelled (by decide +kernel) (List.cons_ne_nil _ _)
  have hodd : Token.scan odd = .ok [.opening, .closing, .operator .eq, .closing, .opening] :=
    Token.scan_of_spelled (by decide +kernel) (List.cons_ne_nil _ _)
  have hrefused : Refused bare := .bare hbare (by decide)
  have hlarge : Refused deep := .exceeding hdeep (.inl (by decide +kernel))
  have herror : parse bare = .error (.noExpression bare) := by
    rw [parse_of_scan hbare, show ofTokens _ = .ok .absent by decide +kernel]
    rfl
  have hnot : ¬ Refused odd := by
    rintro (hall | ⟨hscan, hall⟩ | ⟨hscan, hexceeds⟩)
    · exact absurd (hall '=' (by decide)) (by decide)
    · cases hodd.symm.trans hscan
      exact absurd hall (by decide)
    · cases hodd.symm.trans hscan
      exact absurd hexceeds (by decide +kernel)
  exact ⟨⟨hrefused, (parse_refused_iff bare).1.mpr hrefused⟩,
    ⟨hlarge, (parse_refused_iff deep).1.mpr hlarge⟩,
    ⟨herror, (parse_refused_iff bare).2.1 _ herror⟩,
    hnot, (parse_refused_iff odd).2.2.1 hnot⟩

end Tree

end Verdict
