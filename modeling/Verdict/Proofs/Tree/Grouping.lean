import Verdict.Proofs.Tree.Assembly
import Verdict.Proofs.Tree.Unlimited

/-!
# Groups in parentheses

What a group in parentheses is worth to the rule around it is its tree. The pass over the tokens
builds the group from nothing, whatever draft it stands on and however many groups are open around
it, and then attaches what it has built (`Draft.assemble_grouped`); the levels that a draft keeps
beside its tree are those of the tree. So one group may stand for another one with the same tree in
any surroundings, paired or not, if the parentheses leave room for both, and a further pair of
parentheses around a group changes nothing: `Tree.group_independent`.
-/

namespace Verdict

namespace Token

variable {k : Nat} {tokens : List Token}

/-- A list of paired parentheses opens groups inside those that are open already, and none of its
groups is open behind it. -/
theorem Nested.deepest_append (h : Nested k tokens) (opened : Nat) (more : List Token) :
    deepest opened (tokens ++ more) = max (opened + deepest 0 tokens) (deepest opened more) := by
  induction h generalizing opened more with
  | nil =>
      have hle := le_deepest opened more
      show deepest opened more = max (opened + 0) (deepest opened more)
      omega
  | operator _ ih => exact ih opened more
  | operand _ ih => exact ih opened more
  | @group n inner rest _ _ ihi ih =>
      have hinner := ihi (opened + 1) (.closing :: (rest ++ more))
      have halone := ihi 1 (.closing :: rest)
      have hrest := ih opened more
      rw [List.cons_append, List.append_assoc, List.cons_append]
      show deepest (opened + 1) (inner ++ .closing :: (rest ++ more)) =
        max (opened + deepest 1 (inner ++ .closing :: rest)) _
      rw [hinner, halone]
      show max _ (max (opened + 1) (deepest opened (rest ++ more))) =
        max (opened + max _ (max 1 (deepest 0 rest))) _
      omega

theorem Nested.deepest_grouped (h : Nested k tokens) (opened : Nat) (more : List Token) :
    deepest opened (Token.grouped tokens ++ more) =
      max (opened + 1 + deepest 0 tokens) (deepest opened more) := by
  have hle := le_deepest opened more
  rw [grouped_append]
  show deepest (opened + 1) (tokens ++ .closing :: more) = _
  rw [h.deepest_append]
  show max _ (max (opened + 1) (deepest opened more)) = _
  omega

/-- Paired parentheses stand as deep in one another as groups are open at once. -/
theorem Nested.of_deepest (h : Nested k tokens) : Nested (deepest 0 tokens) tokens := by
  induction h with
  | nil => exact .nil
  | operator _ ih => exact .operator ih
  | operand _ ih => exact .operand ih
  | @group n inner rest hinner _ ihi ih =>
      have hgroup : deepest 0 (.opening :: (inner ++ .closing :: rest)) =
          max (deepest 0 inner) (deepest 0 rest - 1) + 1 := by
        show deepest 1 (inner ++ .closing :: rest) = _
        rw [hinner.deepest_append]
        show max _ (max 1 (deepest 0 rest)) = _
        omega
      rw [hgroup]
      exact .group (ihi.mono (by omega)) (ih.mono (by omega))

/-- The groups that are open before a token count, and those behind it. -/
theorem deepest_cons {opened next : Nat} {token : Token}
    (h : Token.opened opened [token] = some next) (rest : List Token) :
    deepest opened (token :: rest) = max opened (deepest next rest) := by
  have hle := le_deepest next rest
  cases token with
  | closing =>
      cases opened with
      | zero => cases h
      | succ outer =>
          cases h
          rfl
  | opening =>
      cases h
      show deepest (opened + 1) rest = _
      omega
  | operator op =>
      cases h
      show deepest opened rest = _
      omega
  | operand text =>
      cases h
      show deepest opened rest = _
      omega

/-- Whatever stands in front of two lists, groups are no deeper in front of the one that has no
deeper groups itself. -/
theorem deepest_append_le {s s' : List Token} (hs : ∀ opened, deepest opened s ≤ deepest opened s')
    (opened : Nat) (front : List Token) :
    deepest opened (front ++ s) ≤ deepest opened (front ++ s') := by
  induction front generalizing opened with
  | nil => exact hs opened
  | cons token front ih =>
      rw [List.cons_append, List.cons_append]
      cases hnext : Token.opened opened [token] with
      | none =>
          obtain ⟨rfl, rfl⟩ := opened_singleton_eq_none hnext
          exact Nat.le_refl _
      | some next =>
          have htail := ih next
          rw [deepest_cons hnext, deepest_cons hnext]
          omega

end Token

namespace Draft

variable {k : Nat} {tokens : List Token}

/-- Paired parentheses are gone through as in a rule of their own, whatever follows them. -/
theorem assemble_append (h : Token.Nested k tokens) {outer : List Draft}
    (hroom : outer.length + k ≤ maxLevels) (draft : Draft) (more : List Token) :
    draft.assemble outer (tokens ++ more) =
      (draft.assemble [] tokens).bind fun d => d.assemble outer more := by
  have halone : draft.assemble [] tokens = (Group.grow 0 draft tokens).bind fun p => .ok p.1 :=
    assemble_eq_grow draft [] tokens
  rw [assemble_eq_grow, halone, Group.grow_append h hroom,
    Group.grow_nesting h hroom (m := 0) (by omega)]
  cases Group.grow 0 draft tokens with
  | error e => rfl
  | ok p => exact (assemble_eq_grow p.1 outer more).symm

/-- A group in parentheses is built from nothing and then attached. -/
theorem assemble_grouped (h : Token.Nested k tokens) (draft : Draft) (outer : List Draft)
    {more : List Token}
    (hdeep : Token.deepest outer.length (Token.grouped tokens ++ more) ≤ maxLevels) :
    draft.assemble outer (Token.grouped tokens ++ more) =
      (assemble .empty [] tokens).bind fun inner =>
        (draft.attach inner).bind fun d => d.assemble outer more := by
  rw [h.deepest_grouped] at hdeep
  have hroom : (draft :: outer).length + Token.deepest 0 tokens ≤ maxLevels := by
    show outer.length + 1 + _ ≤ _
    omega
  rw [Token.grouped_append, assemble_opening (by omega), assemble_append h.of_deepest hroom]
  rfl

/-- What a rule is built to may be the first part of another one. -/
theorem empty_attach_of_assemble {draft : Draft} (h : assemble .empty [] tokens = .ok draft) :
    empty.attach draft = .ok draft := by
  rw [assemble_eq_grow] at h
  obtain ⟨p, hgrow, hdraft⟩ := bind_eq_ok h
  obtain rfl : p.1 = draft := Except.ok.inj hdraft
  have hbuilt := (Group.grow_eq_ok_iff.mp hgrow).built .empty fun _ hw => hw
  rw [hbuilt.eq_ofTree]
  exact empty_attach hbuilt.depth_le

/-- A rule in parentheses is built like the rule. -/
theorem assemble_grouped_alone (h : Token.Nested k tokens)
    (hdeep : Token.deepest 0 (Token.grouped tokens) ≤ maxLevels) :
    assemble .empty [] (Token.grouped tokens) = assemble .empty [] tokens := by
  rw [← List.append_nil (Token.grouped tokens)] at hdeep ⊢
  rw [assemble_grouped h .empty [] hdeep]
  cases hinner : assemble .empty [] tokens with
  | error e => rfl
  | ok inner =>
      show (empty.attach inner).bind _ = _
      rw [empty_attach_of_assemble hinner]
      rfl

/-- Lists that are gone through alike from everywhere, if groups are not too deep there, are so
behind any tokens. -/
theorem assemble_congr_append {s s' : List Token}
    (hs : ∀ (draft : Draft) (outer : List Draft), Token.deepest outer.length s ≤ maxLevels →
      Token.deepest outer.length s' ≤ maxLevels → draft.assemble outer s = draft.assemble outer s')
    (front : List Token) (draft : Draft) (outer : List Draft)
    (h : Token.deepest outer.length (front ++ s) ≤ maxLevels)
    (h' : Token.deepest outer.length (front ++ s') ≤ maxLevels) :
    draft.assemble outer (front ++ s) = draft.assemble outer (front ++ s') := by
  induction front generalizing draft outer with
  | nil => exact hs draft outer h h'
  | cons token front ih =>
      rw [List.cons_append] at h h' ⊢
      rw [List.cons_append]
      apply assemble_cons_congr
      intro d outer' hnext
      rw [Token.deepest_cons hnext] at h h'
      exact ih d outer' (by omega) (by omega)

end Draft

namespace Tree

variable {g g' : List Token}

/-- Building fails in one way only, one level too deep. -/
theorem eq_tooDeep_of_ofTokens {e : RuleError} (h : ofTokens g = .error e) :
    e = .tooDeep (maxLevels + 1) := by
  rw [ofTokens_eq_ite] at h
  split at h
  · cases h
  · cases h
    rfl

/-- Lists that are gone through alike from everywhere are built alike behind any tokens. -/
theorem ofTokens_congr_append {s s' : List Token}
    (hs : ∀ (draft : Draft) (outer : List Draft), Token.deepest outer.length s ≤ maxLevels →
      Token.deepest outer.length s' ≤ maxLevels → draft.assemble outer s = draft.assemble outer s')
    {front : List Token} (h : Token.deepest 0 (front ++ s) ≤ maxLevels)
    (h' : Token.deepest 0 (front ++ s') ≤ maxLevels) :
    ofTokens (front ++ s) = ofTokens (front ++ s') := by
  rw [ofTokens_eq_assemble, ofTokens_eq_assemble]
  exact congrArg (Except.map Draft.tree) (Draft.assemble_congr_append hs front .empty [] h h')

theorem ofTokens_congr_group {t : Tree} (hg : Token.Balanced g) (hg' : Token.Balanced g')
    (ht : ofTokens g = .ok t) (ht' : ofTokens g' = .ok t) {front more : List Token}
    (hdeep : Token.deepest 0 (front ++ Token.grouped g ++ more) ≤ maxLevels)
    (hdeep' : Token.deepest 0 (front ++ Token.grouped g' ++ more) ≤ maxLevels) :
    ofTokens (front ++ Token.grouped g ++ more) = ofTokens (front ++ Token.grouped g' ++ more) := by
  obtain ⟨k, hnested⟩ := Token.balanced_iff_nested.mp hg
  obtain ⟨k', hnested'⟩ := Token.balanced_iff_nested.mp hg'
  rw [List.append_assoc] at hdeep hdeep'
  rw [List.append_assoc, List.append_assoc]
  apply ofTokens_congr_append _ hdeep hdeep'
  intro draft outer h h'
  rw [Draft.assemble_grouped hnested draft outer h, Draft.assemble_grouped hnested' draft outer h',
    assemble_of_ofTokens ht, assemble_of_ofTokens ht']

theorem ofTokens_grouped_grouped (hg : Token.Balanced g) {front more : List Token}
    (hdeep : Token.deepest 0 (front ++ Token.grouped (Token.grouped g) ++ more) ≤ maxLevels) :
    ofTokens (front ++ Token.grouped (Token.grouped g) ++ more) =
      ofTokens (front ++ Token.grouped g ++ more) := by
  obtain ⟨k, hnested⟩ := Token.balanced_iff_nested.mp hg
  have hgrouped : Token.deepest 0 (Token.grouped g) = Token.deepest 0 g + 1 := by
    have happend := hnested.deepest_grouped 0 []
    rw [List.append_nil] at happend
    rw [happend]
    show max _ 0 = _
    omega
  have hle : ∀ opened, Token.deepest opened (Token.grouped g ++ more) ≤
      Token.deepest opened (Token.grouped (Token.grouped g) ++ more) := by
    intro opened
    rw [hnested.deepest_grouped, hnested.grouped.deepest_grouped]
    omega
  rw [List.append_assoc] at hdeep
  rw [List.append_assoc, List.append_assoc]
  apply ofTokens_congr_append _ hdeep (Nat.le_trans (Token.deepest_append_le hle 0 front) hdeep)
  intro draft outer h h'
  rw [Draft.assemble_grouped hnested.grouped draft outer h,
    Draft.assemble_grouped hnested draft outer h']
  rw [hnested.grouped.deepest_grouped] at h
  rw [Draft.assemble_grouped_alone hnested (by omega)]

theorem ofTokens_grouped (hg : Token.Balanced g)
    (hdeep : Token.deepest 0 (Token.grouped g) ≤ maxLevels) :
    ofTokens (Token.grouped g) = ofTokens g := by
  obtain ⟨k, hnested⟩ := Token.balanced_iff_nested.mp hg
  rw [ofTokens_eq_assemble, ofTokens_eq_assemble, Draft.assemble_grouped_alone hnested hdeep]

/-- **Groups are independent.** If two balanced lists of tokens are built to the same tree, then
either may stand in parentheses where the other one does, whatever tokens stand around them,
balanced or not: as long as no parentheses stand more than `maxLevels` deep before the rule ends,
both rules are built to the same tree, or both fail and it lies in the input. In the same sense one
more pair of parentheses around a group, or around a whole rule, changes nothing, whether the group
is built or fails. -/
theorem group_independent :
    (∀ (front g g' more : List Token) (t : Tree), Token.Balanced g → Token.Balanced g' →
      ofTokens g = .ok t → ofTokens g' = .ok t →
      Token.deepest 0 (front ++ Token.grouped g ++ more) ≤ maxLevels →
      Token.deepest 0 (front ++ Token.grouped g' ++ more) ≤ maxLevels →
      ofTokens (front ++ Token.grouped g ++ more) = ofTokens (front ++ Token.grouped g' ++ more) ∧
        ∀ e, ofTokens (front ++ Token.grouped g ++ more) = .error e → e.IsInvalidInput) ∧
    (∀ front g more : List Token, Token.Balanced g →
      Token.deepest 0 (front ++ Token.grouped (Token.grouped g) ++ more) ≤ maxLevels →
      ofTokens (front ++ Token.grouped (Token.grouped g) ++ more) =
        ofTokens (front ++ Token.grouped g ++ more)) ∧
    ∀ g : List Token, Token.Balanced g → Token.deepest 0 (Token.grouped g) ≤ maxLevels →
      ofTokens (Token.grouped g) = ofTokens g := by
  refine ⟨?_, ?_, ?_⟩
  · intro front g g' more t hg hg' ht ht' hdeep hdeep'
    refine ⟨ofTokens_congr_group hg hg' ht ht' hdeep hdeep', ?_⟩
    intro e he
    rw [eq_tooDeep_of_ofTokens he]
    rfl
  · intro front g more hg hdeep
    exact ofTokens_grouped_grouped hg hdeep
  · intro g hg hdeep
    exact ofTokens_grouped hg hdeep

/-- Behind an operator, in a group that is never closed, a group stands for another one with the
same tree, and so it does in more parentheses. -/
theorem group_independent_open :
    let g := ["b", "=", "1"].map Token.ofText
    let g' := ["(", "b", ")", "=", "2", "1"].map Token.ofText
    let front := ["(", "a", "OR"].map Token.ofText
    let more := ["AND", "c"].map Token.ofText
    let part := binary .eq (.operand "b") (.operand "1")
    let t := binary .and (binary .or (.operand "a") part) (.operand "c")
    Token.Balanced g ∧ Token.Balanced g' ∧ ofTokens g = .ok part ∧ ofTokens g' = .ok part ∧
      ofTokens (front ++ Token.grouped g ++ more) = .ok t ∧
      ofTokens (front ++ Token.grouped g' ++ more) = .ok t ∧
      ofTokens (front ++ Token.grouped (Token.grouped g) ++ more) = .ok t ∧
      ofTokens (Token.grouped g) = .ok part := by
  intro g g' front more part t
  obtain ⟨hreplace, hwrap, halone⟩ := group_independent
  have hg : Token.Balanced g := by decide
  have hg' : Token.Balanced g' := by decide
  have hpart : ofTokens g = .ok part := by decide +kernel
  have hpart' : ofTokens g' = .ok part := by decide +kernel
  have hrule : ofTokens (front ++ Token.grouped g ++ more) = .ok t := by decide +kernel
  have hsame := (hreplace front g g' more part hg hg' hpart hpart' (by decide) (by decide)).1
  have hmore := hwrap front g more hg (by decide)
  refine ⟨hg, hg', hpart, hpart', hrule, ?_, ?_, ?_⟩
  · rw [← hsame]
    exact hrule
  · rw [hmore]
    exact hrule
  · rw [halone g hg (by decide)]
    exact hpart

end Tree

end Verdict
