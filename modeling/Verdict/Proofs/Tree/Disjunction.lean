import Verdict.Proofs.Token.Scan
import Verdict.Proofs.Tree.Joined

/-!
# Joining trees and reading their disjunction

Several texts are joined by reading each of them and putting `OR` above the trees from left to
right. The same tree comes from reading one text, in which each of them stands in parentheses and
`OR` between them, if no parenthesis reaches out of its part: `parse_disjunction`. The step of the
induction is `grow_join`: a part in parentheses is a group of its own, which is attached as a
whole, and the levels are checked at the same step on both sides.
-/

namespace Verdict

namespace Tree

/-- The text of several texts in parentheses with `OR` between them. -/
def disjunction (texts : List String) : String :=
  " OR ".intercalate (texts.map fun text => "(" ++ text ++ ")")

/-- A text that is read to a tree, whose parentheses pair up and leave room for one more around
them. -/
def IsPart (text : String) (t : Tree) : Prop :=
  parse text = .ok t ∧ Token.Nested (maxLevels - 1) (Token.spelled text.toList)

/-! ## The tokens of a disjunction -/

/-- The tokens of the further parts. -/
def furtherTokens (texts : List String) : List Token :=
  texts.flatMap fun text =>
    .operator .or :: .opening :: (Token.spelled text.toList ++ [.closing])

theorem spelled_disjunction (first : String) (rest : List String) :
    Token.spelled (disjunction (first :: rest)).toList =
      .opening :: (Token.spelled first.toList ++ .closing :: furtherTokens rest) := by
  induction rest generalizing first with
  | nil =>
      have hchars : (disjunction [first]).toList = [] ++ '(' :: (first.toList ++ ')' :: []) := by
        simp [disjunction]
      rw [hchars, Token.spelled_opening, Token.spelled_closing]
      rfl
  | cons second rest ih =>
      have hchars : (disjunction (first :: second :: rest)).toList =
          [] ++ '(' :: (first.toList ++ ')' :: ([] ++ ' ' :: (Operator.or.symbol.toList ++ ' ' ::
            (disjunction (second :: rest)).toList))) := by
        simp only [disjunction, List.map_cons, String.intercalate_cons_cons, String.toList_append,
          List.append_assoc]
        rfl
      rw [hchars, Token.spelled_opening, Token.spelled_closing, Token.spelled_blank (by decide),
        Token.spelled_blank (by decide), Token.spelled_symbol, ih]
      simp [furtherTokens, show Token.spelled [] = [] from rfl]

/-! ## Building a disjunction -/

/-- A part in parentheses is attached as a whole. -/
theorem grow_part {text : String} {t : Tree} (h : IsPart text t) (d : Draft) (more : List Token) :
    Group.grow 0 d (.opening :: (Token.spelled text.toList ++ .closing :: more)) =
      (d.attach (.ofTree t)).bind fun d' => Group.grow 0 d' more := by
  obtain ⟨hparse, hnested⟩ := h
  obtain ⟨tokens, hscan, hof, _⟩ := parse_eq_ok_iff.mp hparse
  obtain rfl := (Token.scan_eq_ok_iff.mp hscan).2
  obtain ⟨rest, hgroup⟩ := grow_of_ofTokens hof
  have hlevels : 0 < maxLevels := by decide
  have hroom : 1 + (maxLevels - 1) ≤ maxLevels := by omega
  rw [Group.grow_opening hlevels, Group.grow_append hnested hroom,
    Group.grow_nesting hnested hroom (m := 0) (by omega), hgroup]
  show (Group.grow _ _ _).bind _ = _
  rw [Group.grow_closing]
  rfl

/-- Joining one more part after another is building on with their tokens. -/
theorem grow_join {texts : List String} {trees : List Tree} (h : List.Forall₂ IsPart texts trees)
    {joined : Tree} (hjoined : joined.isAbsent = false) :
    (Group.grow 0 (.ofTree joined) (furtherTokens texts)).map (fun p => p.1.tree) =
      join joined joined.depth trees := by
  induction h generalizing joined with
  | nil =>
      show Except.map _ (Group.grow 0 _ []) = _
      rw [Group.grow_nil]
      rfl
  | @cons text t texts trees hpart _ ih =>
      have htokens : furtherTokens (text :: texts) = .operator .or ::
          (.opening :: (Token.spelled text.toList ++ .closing :: furtherTokens texts)) := by
        simp [furtherTokens]
      have hdepth : (binary .or joined t).depth = max joined.depth t.depth + 1 := rfl
      have hpush : (operator (.known .or) joined .absent).depth = joined.depth + 1 := by
        simp [depth]
      rw [htokens, Group.grow_operator, Draft.pushOperator_ofTree, Draft.checked_ofTree, hpush,
        join_cons]
      -- the operator alone is too much for a tree of all levels; then so is the join
      by_cases hleft : maxLevels < joined.depth + 1
      · have ht := depth_le_of_parse hpart.1
        have hmax : max joined.depth t.depth = joined.depth := by omega
        rw [if_pos hleft, hdepth, hmax, if_pos hleft]
        rfl
      · rw [if_neg hleft]
        show Except.map _ (Group.grow 0 _ _) = _
        rw [grow_part hpart, Draft.attach_ofTree, attach_operator hjoined,
          Draft.checked_ofTree]
        show Except.map _ (Except.bind (if _ < (binary .or joined t).depth then _ else _) _) = _
        -- the operator found its place, and the part may still be too much for it
        by_cases hboth : maxLevels < (binary .or joined t).depth
        · rw [if_pos hboth, if_pos hboth]
          rfl
        · rw [if_neg hboth, if_neg hboth]
          exact ih rfl

/-- Building the tokens of a disjunction is joining the trees of its parts. -/
theorem ofTokens_disjunction {first : String} {t : Tree} (hfirst : IsPart first t)
    {rest : List String} {trees : List Tree} (hrest : List.Forall₂ IsPart rest trees) :
    ofTokens (Token.spelled (disjunction (first :: rest)).toList) = any (t :: trees) := by
  rw [spelled_disjunction, ofTokens_eq, grow_part hfirst,
    Draft.empty_attach (depth_le_of_parse hfirst.1)]
  exact grow_join hrest (isAbsent_of_parse hfirst.1)

/-! ## Reading a disjunction -/

/-- Trees that are there join to a tree that is there. -/
theorem isAbsent_of_any {trees : List Tree} (htrees : ∀ t ∈ trees, t.isAbsent = false) {t : Tree}
    (h : any trees = .ok t) : t.isAbsent = false := by
  cases trees with
  | nil => cases h
  | cons first rest =>
      exact join_invariant (P := fun t => t.isAbsent = false) (fun _ _ _ _ _ => rfl)
        (fun t ht => htrees t (List.mem_cons_of_mem _ ht)) (htrees first List.mem_cons_self) h

/-- Texts that are all parts are read to one tree each. -/
theorem exists_isPart {texts : List String}
    (h : ∀ text ∈ texts, (∃ t, parse text = .ok t) ∧
      ∃ tokens, Token.scan text = .ok tokens ∧ Token.Nested (maxLevels - 1) tokens) :
    ∃ trees, List.Forall₂ IsPart texts trees := by
  induction texts with
  | nil => exact ⟨[], .nil⟩
  | cons text rest ih =>
      obtain ⟨trees, htrees⟩ := ih fun text ht => h text (List.mem_cons_of_mem _ ht)
      obtain ⟨⟨t, hparse⟩, tokens, hscan, hnested⟩ := h text List.mem_cons_self
      obtain rfl := (Token.scan_eq_ok_iff.mp hscan).2
      exact ⟨t :: trees, .cons ⟨hparse, hnested⟩ htrees⟩

/-- **Joining is reading a disjunction.** If every one of several texts is read, and its
parentheses pair up and leave room for one more around them, then reading the disjunction of the
texts comes to the same as joining them: the same tree, or the same error, which lies in the input
alone. -/
theorem parse_disjunction {texts : List String} (hne : texts ≠ [])
    (h : ∀ text ∈ texts, (∃ t, parse text = .ok t) ∧
      ∃ tokens, Token.scan text = .ok tokens ∧ Token.Nested (maxLevels - 1) tokens) :
    parse (disjunction texts) = anyOf texts ∧
      ∀ e, anyOf texts = .error e → e.IsInvalidInput := by
  obtain ⟨trees, hparts⟩ := exists_isPart h
  have hmap := mapM_parse_eq_ok_iff.mpr (hparts.imp fun _ _ hpart => hpart.1)
  have hany : anyOf texts = any trees := by
    show (texts.mapM parse).bind _ = _
    rw [hmap]
    rfl
  cases hparts with
  | nil => exact absurd rfl hne
  | @cons first t rest trees hfirst hrest =>
      have hof := ofTokens_disjunction hfirst hrest
      have hscan := Token.scan_of_spelled (spelled_disjunction first rest) (List.cons_ne_nil _ _)
      rw [← spelled_disjunction] at hscan
      rw [hany]
      refine ⟨?_, fun e he => ?_⟩
      · cases hjoined : any (t :: trees) with
        | error e =>
            rw [parse_of_scan hscan, hof, hjoined]
            rfl
        | ok joined =>
            -- a text is refused if it has no tree, but every part has one
            have hpresent : ∀ t' ∈ t :: trees, t'.isAbsent = false := fun t' ht' => by
              obtain ⟨_, _, hparse⟩ := exists_parse_of_mem (mapM_parse_eq_ok_iff.mp hmap) ht'
              exact isAbsent_of_parse hparse
            exact parse_eq_ok_iff.mpr
              ⟨_, hscan, hof.trans hjoined, isAbsent_of_any hpresent hjoined⟩
      · obtain ⟨levels, rfl⟩ := exists_tooDeep_of_join he
        rfl

/-- Two texts, the second with a missing child, are joined by reading their disjunction. -/
theorem parse_disjunction_pair :
    let texts := ["a > 1 b", "(c) AND"]
    (texts ≠ [] ∧ ∀ text ∈ texts, (∃ t, parse text = .ok t) ∧
      ∃ tokens, Token.scan text = .ok tokens ∧ Token.Nested (maxLevels - 1) tokens) ∧
      disjunction texts = "(a > 1 b) OR ((c) AND)" ∧
      parse (disjunction texts) = anyOf texts := by
  intro texts
  have hfirst : Token.spelled "a > 1 b".toList =
      [.operand "a", .operator .gt, .operand "1", .operand "b"] := by decide +kernel
  have hsecond : Token.spelled "(c) AND".toList =
      [.opening, .operand "c", .closing, .operator .and] := by decide +kernel
  have hall : ∀ text ∈ texts, (∃ t, parse text = .ok t) ∧
      ∃ tokens, Token.scan text = .ok tokens ∧ Token.Nested (maxLevels - 1) tokens := by
    intro text ht
    rcases List.mem_pair.mp ht with rfl | rfl
    · have hscan := Token.scan_of_spelled hfirst (List.cons_ne_nil _ _)
      have hof : ofTokens [.operand "a", .operator .gt, .operand "1", .operand "b"] =
          .ok (binary .gt (.operand "a") (.operand "b")) := by decide +kernel
      exact ⟨⟨_, parse_eq_ok_iff.mpr ⟨_, hscan, hof, rfl⟩⟩, _, hscan,
        .operand (.operator (.operand (.operand .nil)))⟩
    · have hscan := Token.scan_of_spelled hsecond (List.cons_ne_nil _ _)
      have hof : ofTokens [.opening, .operand "c", .closing, .operator .and] =
          .ok (binary .and (.operand "c") .absent) := by decide +kernel
      exact ⟨⟨_, parse_eq_ok_iff.mpr ⟨_, hscan, hof, rfl⟩⟩, _, hscan,
        .group (.operand .nil) (.operator .nil)⟩
  exact ⟨⟨by decide, hall⟩, by decide +kernel, (parse_disjunction (by decide) hall).1⟩

end Tree

end Verdict
