import Verdict.Proofs.Tree.Assembly

/-!
# Parentheses that do not pair up

The pass over the tokens does not tell a list from the balanced one that it is repaired to, wherever
it starts (`Draft.assemble_repaired`): it stops where the repair cuts the list, and at the end it
closes the open groups by itself. So both lists are built to the same tree, or both fail in the same
way: `Tree.ofTokens_repaired`.
-/

namespace Verdict

namespace Draft

/-- A closing parenthesis for every open group does what the end of the tokens does. -/
theorem assemble_replicate_closing (draft : Draft) (outer : List Draft) :
    draft.assemble outer (List.replicate outer.length .closing) = draft.closeAll outer := by
  induction outer generalizing draft with
  | nil => rfl
  | cons enclosing outer ih =>
      show (enclosing.attach draft).bind _ = (enclosing.attach draft).bind _
      congr 1
      funext d
      exact ih d

/-- The pass does not tell a list of tokens from the one that it is repaired to. -/
theorem assemble_repaired (draft : Draft) (outer : List Draft) (tokens : List Token) :
    draft.assemble outer (Token.repaired outer.length tokens) = draft.assemble outer tokens := by
  induction tokens generalizing draft outer with
  | nil => exact assemble_replicate_closing draft outer
  | cons token rest ih =>
      rw [Token.repaired]
      cases hnext : Token.opened outer.length [token] with
      | none =>
          -- the pass ends here, as at the end of the list that is cut here
          obtain ⟨rfl, houter⟩ := Token.opened_singleton_eq_none hnext
          obtain rfl := List.length_eq_zero_iff.mp houter
          rfl
      | some next =>
          apply assemble_cons_congr
          intro d outer' houter
          obtain rfl : next = outer'.length := Option.some.inj (hnext.symm.trans houter)
          exact ih d outer'

end Draft

namespace Tree

theorem ofTokens_eq_repaired (tokens : List Token) :
    ofTokens tokens = ofTokens (Token.repaired 0 tokens) := by
  rw [ofTokens_eq_assemble, ofTokens_eq_assemble]
  exact congrArg (Except.map Draft.tree) (Draft.assemble_repaired .empty [] tokens).symm

/-- **Parentheses that do not pair up.** Building a list of tokens comes to the same as building the
balanced list that it is repaired to, the same tree or the same error. That list is the front of the
tokens and a closing parenthesis for each of the `left` groups that are open behind the front. The
front is all of the tokens, or it ends before a closing parenthesis that closes nothing, and then it
makes no difference what stands behind this parenthesis. -/
theorem ofTokens_repaired (tokens : List Token) :
    ofTokens tokens = ofTokens (Token.repaired 0 tokens) ∧
    Token.Balanced (Token.repaired 0 tokens) ∧
    ∃ front left, Token.opened 0 front = some left ∧
      Token.repaired 0 tokens = front ++ List.replicate left .closing ∧
      (tokens = front ∨
        left = 0 ∧ ∃ more, tokens = front ++ .closing :: more ∧
          ∀ more', ofTokens (front ++ .closing :: more') = ofTokens tokens) := by
  refine ⟨ofTokens_eq_repaired tokens, Token.balanced_repaired tokens, ?_⟩
  obtain ⟨front, left, hfront, hrest⟩ := Token.exists_front 0 tokens
  refine ⟨front, left, hfront, ?_, ?_⟩
  · rcases hrest with rfl | ⟨rfl, more, rfl⟩
    · simpa [Token.repaired] using Token.repaired_append hfront []
    · exact Token.repaired_append hfront (.closing :: more)
  · rcases hrest with hwhole | ⟨rfl, more, rfl⟩
    · exact .inl hwhole
    · refine .inr ⟨rfl, more, rfl, ?_⟩
      intro more'
      -- both lists are cut at the same parenthesis
      rw [ofTokens_eq_repaired (front ++ .closing :: more'),
        ofTokens_eq_repaired (front ++ .closing :: more), Token.repaired_append hfront,
        Token.repaired_append hfront]
      rfl

/-- One list is cut before its second closing parenthesis, the other one gets two more. -/
example :
    Token.repaired 0 (["(", "a", ")", ")", "=", "b"].map Token.ofText) =
        ["(", "a", ")"].map Token.ofText ∧
      Token.repaired 0 (["a", "AND", "(", "(", "b"].map Token.ofText) =
        ["a", "AND", "(", "(", "b", ")", ")"].map Token.ofText := by
  decide +kernel

end Tree

end Verdict
