import Verdict.Proofs.Token.Scan
import Verdict.Proofs.Tree.Accepted

/-!
# Reading a printed tree

A tree is printed with every operator in parentheses. `Tree.tokens` are the tokens of that text
(`spelled_text`): the parentheses and blanks around an operand do not reach into it. From them a
complete tree is built as a unit (`grow_tokens`), since the left child fills the empty left place,
the operator goes above it, and the right child fills the right place. So reading what was printed
gives the tree back (`parse_text`), and reading, printing and reading again is reading once.
-/

namespace Verdict

namespace Tree

/-- The tokens of a tree as it is printed. -/
def tokens : Tree → List Token
  | absent => [.operand "_"]
  | operand token => [.operand token]
  | operator symbol left right =>
    .opening :: (left.tokens ++ .ofText symbol.text :: (right.tokens ++ [.closing]))

/-! ## The tokens of a printed tree -/

/-- A printed tree spells its tokens, if its operands spell themselves. -/
theorem spelled_text {t : Tree} (hknown : t.Known)
    (hoperands : ∀ w ∈ t.operands, Token.scan w = .ok [.operand w]) :
    Token.spelled t.text.toList = t.tokens := by
  induction t with
  | absent => decide
  | operand token => exact (Token.scan_eq_ok_iff.mp (hoperands token List.mem_cons_self)).2
  | operator symbol left right ihl ihr =>
      obtain ⟨hsymbol, hleft, hright⟩ := hknown
      cases symbol with
      | unknown text => exact absurd hsymbol Bool.false_ne_true
      | known op =>
          -- a bracket or a blank stands on both sides of every part
          have hl := ihl hleft fun w hw => hoperands w (List.mem_append_left _ hw)
          have hr := ihr hright fun w hw => hoperands w (List.mem_append_right _ hw)
          have hop := Token.spelled_symbol op
          have hchars : (operator (.known op) left right).text.toList =
              [] ++ '(' :: (left.text.toList ++ ' ' :: (op.symbol.toList ++ ' ' ::
                (right.text.toList ++ ')' :: []))) := by
            simp [text, Symbol.text]
          rw [hchars, Token.spelled_opening, Token.spelled_blank (by decide),
            Token.spelled_blank (by decide), Token.spelled_closing, hl, hr, hop]
          rw [tokens, Token.ofText_symbol]
          rfl

theorem tokens_ne_nil (t : Tree) : t.tokens ≠ [] := by
  cases t <;> exact List.cons_ne_nil _ _

/-! ## Building from the tokens of a tree -/

/-- From the tokens of a complete tree the tree is built as a unit, and then attached. -/
theorem grow_tokens {t : Tree} (hcomplete : t.Complete) (hknown : t.Known)
    (hdepth : t.depth ≤ maxLevels) {n : Nat} (hn : n + t.depth ≤ maxLevels + 1) (d : Draft)
    (more : List Token) :
    Group.grow n d (t.tokens ++ more) =
      (d.attach (.ofTree t)).bind fun d' => Group.grow n d' more := by
  induction t generalizing n d more with
  | absent => exact absurd hcomplete id
  | operand token => exact Group.grow_operand
  | operator symbol left right ihl ihr =>
      obtain ⟨hcl, hcr⟩ := hcomplete
      obtain ⟨hsymbol, hkl, hkr⟩ := hknown
      cases symbol with
      | unknown text => exact absurd hsymbol Bool.false_ne_true
      | known op =>
          simp only [depth] at hdepth hn
          have hpos := hcl.depth_pos
          -- the group holds the left child, then the operator above it, then both children
          have hleft : Draft.empty.attach (.ofTree left) = .ok (.ofTree left) :=
            Draft.empty_attach (by omega)
          have hpush : (Draft.ofTree left).pushOperator op =
              .ok (.ofTree (.operator (.known op) left .absent)) := by
            rw [Draft.pushOperator_ofTree, Draft.checked_ofTree_of_le]
            simp only [depth]
            omega
          have hright : (Draft.ofTree (.operator (.known op) left .absent)).attach (.ofTree right) =
              .ok (.ofTree (.operator (.known op) left right)) := by
            rw [Draft.attach_ofTree, attach_operator hcl.isAbsent,
              Draft.checked_ofTree_of_le]
            exact hdepth
          have hgroup : Group.grow (n + 1) .empty
              (left.tokens ++ .operator op :: (right.tokens ++ .closing :: more)) =
                .ok (.ofTree (.operator (.known op) left right), more) := by
            rw [ihl hcl hkl (by omega) (by omega), hleft]
            show Group.grow _ _ _ = _
            rw [Group.grow_operator, hpush]
            show Group.grow _ _ _ = _
            rw [ihr hcr hkr (by omega) (by omega), hright]
            exact Group.grow_closing
          have htokens : (operator (.known op) left right).tokens ++ more =
              .opening :: (left.tokens ++ .operator op :: (right.tokens ++ .closing :: more)) := by
            simp [tokens, Token.ofText_symbol]
          rw [htokens, Group.grow_opening (by omega), hgroup]
          rfl

/-- Building the tokens of a complete tree gives the tree. -/
theorem ofTokens_tokens {t : Tree} (hcomplete : t.Complete) (hknown : t.Known)
    (hdepth : t.depth ≤ maxLevels) : ofTokens t.tokens = .ok t := by
  have hgrow := grow_tokens hcomplete hknown hdepth (n := 0) (by omega) .empty []
  rw [List.append_nil, Draft.empty_attach hdepth] at hgrow
  rw [ofTokens_eq, hgrow]
  show Except.map _ (Group.grow 0 _ []) = _
  rw [Group.grow_nil]
  rfl

/-- Printing a complete tree and reading the text gives the tree, if its operands spell
themselves. -/
theorem parse_text_of_scan {t : Tree} (hcomplete : t.Complete) (hknown : t.Known)
    (hdepth : t.depth ≤ maxLevels)
    (hoperands : ∀ w ∈ t.operands, Token.scan w = .ok [.operand w]) : parse t.text = .ok t :=
  parse_eq_ok_iff.mpr ⟨t.tokens,
    Token.scan_of_spelled (spelled_text hknown hoperands) t.tokens_ne_nil,
    ofTokens_tokens hcomplete hknown hdepth, hcomplete.isAbsent⟩

/-- The operands of a tree that was read spell themselves. -/
theorem scan_operand_of_parse {text : String} {t : Tree} (h : parse text = .ok t) :
    ∀ w ∈ t.operands, Token.scan w = .ok [.operand w] := by
  obtain ⟨tokens, hscan, hof, _⟩ := parse_eq_ok_iff.mp h
  intro w hw
  exact Token.scan_operand hscan ((built_of_ofTokens hof).operands w hw)

/-- **Printing and reading.** A complete tree of known operators within the levels, whose operands
are operand texts, is read back from its printed form. A complete tree that was read from any text
is such a tree. -/
theorem parse_text :
    (∀ t : Tree, t.depth ≤ maxLevels → t.Known → t.Complete →
      (∀ w ∈ t.operands, Token.IsOperandText w) → parse t.text = .ok t) ∧
    ∀ (text : String) (t : Tree), parse text = .ok t → t.Complete → parse t.text = .ok t := by
  constructor
  · intro t hdepth hknown hcomplete hoperands
    exact parse_text_of_scan hcomplete hknown hdepth
      fun w hw => Token.isOperandText_iff.mp (hoperands w hw)
  · intro text t h hcomplete
    exact parse_text_of_scan hcomplete (known_of_parse h) (depth_le_of_parse h)
      (scan_operand_of_parse h)

/-- A comparison that was built by hand is read back, and so is the tree of a text that no printed
tree looks like. -/
theorem parse_text_comparison :
    let t := binary .gt (.operand "größe") (.operand "1")
    let u := binary .or (binary .and (.operand "a") (.operand "]")) (.operand "ORx")
    (t.depth ≤ maxLevels ∧ t.Known ∧ t.Complete ∧ ∀ w ∈ t.operands, Token.IsOperandText w) ∧
      parse t.text = .ok t ∧
      parse "a AND]OR(ORx" = .ok u ∧ u.Complete ∧ parse u.text = .ok u := by
  intro t u
  have hspelled : ∀ w ∈ t.operands, Token.spelled w.toList = [.operand w] := by decide +kernel
  have hoperands : ∀ w ∈ t.operands, Token.IsOperandText w := fun w hw =>
    Token.isOperandText_iff.mpr (Token.scan_of_spelled (hspelled w hw) (List.cons_ne_nil _ _))
  have hparse : parse "a AND]OR(ORx" = .ok u :=
    parse_eq_ok_iff.mpr
      ⟨_, Token.scan_of_spelled rfl (by decide +kernel), by decide +kernel, rfl⟩
  have hdepth : t.depth ≤ maxLevels := by decide
  have hknown : t.Known := ⟨rfl, trivial, trivial⟩
  have ht : t.Complete := ⟨trivial, trivial⟩
  have hu : u.Complete := ⟨⟨trivial, trivial⟩, trivial⟩
  exact ⟨⟨hdepth, hknown, ht, hoperands⟩, parse_text.1 t hdepth hknown ht hoperands,
    hparse, hu, parse_text.2 _ u hparse hu⟩

end Tree

end Verdict
