import Verdict.Proofs.Token.Cuts
import Verdict.Proofs.Tree.Reprint

/-!
# Well-formed trees

What a tree that is read from a text looks like, however odd the text. A place on the right is
taken only after the one on the left (`Tree.LeftFirst`), so whatever is attached comes to stand
behind all operands that stay (`Tree.operands_attach`). While a group grows, the operands of its
tree, followed by those of the tokens that are still to come, can therefore only be thinned out
(`Group.Grows.operands_sublist`): a text may lose operands on the way to its tree, but none is
made up, doubled or moved. The main statement, `Tree.wellFormed_of_parse`, adds what holds of
every single operand.
-/

namespace Verdict

namespace Token

/-- The text of an operand; other tokens have none. -/
def operandText? : Token → Option String
  | .operand text => some text
  | _ => none

/-- The operands of a list of tokens, in order. -/
def operandTexts (tokens : List Token) : List String :=
  tokens.filterMap operandText?

@[simp] theorem operandTexts_operand (text : String) (rest : List Token) :
    operandTexts (.operand text :: rest) = text :: operandTexts rest := rfl

@[simp] theorem operandTexts_operator (op : Operator) (rest : List Token) :
    operandTexts (.operator op :: rest) = operandTexts rest := rfl

@[simp] theorem operandTexts_opening (rest : List Token) :
    operandTexts (.opening :: rest) = operandTexts rest := rfl

@[simp] theorem operandTexts_closing (rest : List Token) :
    operandTexts (.closing :: rest) = operandTexts rest := rfl

/-! ## Texts of operands -/

/-- The text of an operand is a single lexeme. -/
theorem lexemes_of_scan_operand {w : String} (h : scan w = .ok [.operand w]) :
    lexemes w.toList = [w.toList] := by
  have hspelled := (scan_eq_ok_iff.mp h).2
  unfold spelled at hspelled
  obtain ⟨cs, hcs, htext⟩ := List.map_eq_singleton_iff.mp hspelled
  have heq : String.ofList cs = w := eq_of_ofText htext
  rw [hcs, ← heq, String.toList_ofList]

/-- No blank stands in the text of an operand. -/
theorem isBlank_of_scan_operand {w : String} (h : scan w = .ok [.operand w]) :
    ∀ c ∈ w.toList, Text.isBlank c = false := by
  have hsolid : solid w.toList = w.toList := by
    rw [← flatten_lexemes, lexemes_of_scan_operand h, List.flatten_singleton]
  intro c hc
  have hkept := List.filter_eq_self.mp hsolid c hc
  simpa using hkept

theorem ne_empty_of_scan_operand {w : String} (h : scan w = .ok [.operand w]) : w ≠ "" := by
  rintro rfl
  have hblank := (scan_eq_ok_iff.mp h).1
  exact absurd hblank (by decide)

end Token

namespace Tree

/-! ## Left places and right places -/

/-- Every operator with a right child also has a left child. -/
def LeftFirst : Tree → Prop
  | absent => True
  | operand _ => True
  | operator _ left right =>
    (right.isAbsent = false → left.isAbsent = false) ∧ left.LeftFirst ∧ right.LeftFirst

/-- An operator whose left place is empty has no child at all. -/
theorem LeftFirst.right_eq_absent {symbol : Symbol} {right : Tree}
    (h : (operator symbol absent right).LeftFirst) : right = absent := by
  apply eq_absent_of_isAbsent
  by_contra hright
  exact absurd (h.1 (Bool.eq_false_iff.mpr hright)) (by decide)

theorem LeftFirst.attach {t child : Tree} (ht : t.LeftFirst) (hc : child.LeftFirst) :
    (t.attach child).LeftFirst := by
  cases t with
  | absent => exact hc
  | operand token => exact ht
  | operator symbol left right =>
      cases hleft : left.isAbsent with
      | true =>
          -- the left place is filled, and the right one has been empty all along
          obtain rfl := eq_absent_of_isAbsent hleft
          obtain rfl := ht.right_eq_absent
          show (operator symbol child absent).LeftFirst
          exact ⟨fun hright => absurd hright (by decide), hc, trivial⟩
      | false =>
          rw [attach_operator hleft]
          exact ⟨fun _ => hleft, ht.2.1, hc⟩

/-- What is attached stands behind the operands that stay. -/
theorem operands_attach {t child : Tree} (ht : t.LeftFirst) :
    (t.attach child).operands.Sublist (t.operands ++ child.operands) := by
  cases t with
  | absent => exact List.Sublist.refl _
  | operand token => exact List.sublist_append_left _ _
  | operator symbol left right =>
      cases hleft : left.isAbsent with
      | true =>
          obtain rfl := eq_absent_of_isAbsent hleft
          obtain rfl := ht.right_eq_absent
          show (child.operands ++ []).Sublist child.operands
          rw [List.append_nil]
      | false =>
          rw [attach_operator hleft]
          simp only [operands]
          -- the operands of the right child, which is replaced, are dropped
          exact (List.sublist_append_left _ _).append_right _

end Tree

/-! ## Groups that grow -/

/-- While a group grows, the operands of its tree and those still to come lose some of their
number and nothing else. -/
theorem Group.Grows.operands_sublist {n : Nat} {d d' : Draft} {tokens rest : List Token}
    (h : Grows n d tokens d' rest) (hd : d.tree.LeftFirst) :
    d'.tree.LeftFirst ∧
      (d'.tree.operands ++ Token.operandTexts rest).Sublist
        (d.tree.operands ++ Token.operandTexts tokens) := by
  -- by the tokens of the group, for every draft that it grows from
  induction h with
  | nil => exact ⟨hd, List.Sublist.refl _⟩
  | closing => exact ⟨hd, List.Sublist.refl _⟩
  | operator hstep _ ih =>
      have htree := Draft.tree_of_pushOperator hstep
      rw [htree] at ih
      obtain ⟨hleft, hsub⟩ := ih ⟨fun hright => absurd hright (by decide), hd, trivial⟩
      simp only [Tree.operands, List.append_nil] at hsub
      exact ⟨hleft, hsub⟩
  | @operand n text d d₁ d₂ rest rest₂ hstep _ ih =>
      have htree : d₁.tree = d.tree.attach (.operand text) := Draft.tree_of_attach hstep
      rw [htree] at ih
      obtain ⟨hleft, hsub⟩ := ih (hd.attach trivial)
      refine ⟨hleft, hsub.trans ?_⟩
      have hattach : (d.tree.attach (.operand text)).operands.Sublist (d.tree.operands ++ [text]) :=
        Tree.operands_attach hd
      simpa using hattach.append_right (Token.operandTexts rest)
  | @opening n d inner d₁ d₂ rest rest₁ rest₂ _ _ hstep _ ihi ih =>
      obtain ⟨hinner, hinsub⟩ := ihi (trivial : Tree.absent.LeftFirst)
      have htree : d₁.tree = d.tree.attach inner.tree := Draft.tree_of_attach hstep
      rw [htree] at ih
      obtain ⟨hleft, hsub⟩ := ih (hd.attach hinner)
      refine ⟨hleft, hsub.trans ?_⟩
      -- first the inner tree is attached, then its operands are traced back to their tokens
      have hattach : (d.tree.attach inner.tree).operands.Sublist
          (d.tree.operands ++ inner.tree.operands) := Tree.operands_attach hd
      have hfollowed := hattach.append_right (Token.operandTexts rest₁)
      rw [List.append_assoc] at hfollowed
      exact hfollowed.trans (hinsub.append_left d.tree.operands)

namespace Tree

/-- The operands of a tree are operands of its tokens, in the same order. -/
theorem operands_of_ofTokens {tokens : List Token} {t : Tree} (h : ofTokens tokens = .ok t) :
    t.LeftFirst ∧ t.operands.Sublist (Token.operandTexts tokens) := by
  obtain ⟨rest, hgrow⟩ := grow_of_ofTokens h
  have hgrows := Group.grow_eq_ok_iff.mp hgrow
  obtain ⟨hleft, hsub⟩ := hgrows.operands_sublist (trivial : Tree.absent.LeftFirst)
  exact ⟨hleft, (List.sublist_append_left _ _).trans hsub⟩

/-- **Well-formed trees.** A tree that is read from a text is within the levels, its symbols are
known, and no operator has a right child alone. Each of its operands is a text without blanks
that is neither empty nor a parenthesis nor a symbol and that is cut into itself. From left to
right they are operands of the text, in the order of the text and each no more than once. -/
theorem wellFormed_of_parse {text : String} {t : Tree} (h : parse text = .ok t) :
    t.depth ≤ maxLevels ∧ t.Known ∧ t.LeftFirst ∧
    (∀ w ∈ t.operands, w ≠ "" ∧ (∀ c ∈ w.toList, Text.isBlank c = false) ∧
      Token.IsOperandText w) ∧
    ∃ tokens, Token.scan text = .ok tokens ∧ t.operands.Sublist (Token.operandTexts tokens) := by
  obtain ⟨tokens, hscan, hof, _⟩ := parse_eq_ok_iff.mp h
  obtain ⟨hleft, hsub⟩ := operands_of_ofTokens hof
  refine ⟨depth_le_of_parse h, known_of_parse h, hleft, ?_, tokens, hscan, hsub⟩
  intro w hw
  have hself : Token.scan w = .ok [.operand w] := scan_operand_of_parse h w hw
  exact ⟨Token.ne_empty_of_scan_operand hself, Token.isBlank_of_scan_operand hself,
    Token.isOperandText_iff.mpr hself⟩

/-- Of the five operands of this text, two are dropped behind other operands and one gives way to
the last; the other two stay in their order. -/
theorem wellFormed_of_parse_thinned :
    let text := "x y AND(b c)é OR()"
    let t := operator (.known .or) (binary .and (.operand "x") (.operand "é")) .absent
    parse text = .ok t ∧
      t.depth ≤ maxLevels ∧ t.Known ∧ t.LeftFirst ∧
      (∀ w ∈ t.operands, w ≠ "" ∧ (∀ c ∈ w.toList, Text.isBlank c = false) ∧
        Token.IsOperandText w) ∧
      ∃ tokens, Token.scan text = .ok tokens ∧
        t.operands.Sublist (Token.operandTexts tokens) := by
  intro text t
  have hparse : parse text = .ok t :=
    parse_eq_ok_iff.mpr
      ⟨_, Token.scan_of_spelled rfl (by decide +kernel), by decide +kernel, rfl⟩
  exact ⟨hparse, wellFormed_of_parse hparse⟩

end Tree

end Verdict
