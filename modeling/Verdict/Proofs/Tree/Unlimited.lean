import Verdict.Proofs.Token.Scan
import Verdict.Proofs.Tree.Accepted

/-!
# Building without limits

`Course.build` builds the tree of a token list with nothing but the tree so far: no levels are
kept beside it, nothing is checked and nothing fails. It records every tree that it holds on the
way, also in groups that are dropped or replaced later on. `Token.deepest` counts how many groups
are open at once before the rule ends.

The builder with limits is this one with a check at every step (`grow_eq_course`): as long as no
group stands too deep and no tree held on the way has too many levels, both come to the same tree.
Otherwise the first step too far is one level too far, whatever the tokens (`ofTokens_eq_course`).
-/

namespace Verdict

/-! ## How deep groups stand -/

/-- The most groups that are open at once, starting from so many, up to a closing parenthesis that
closes none of them or to the end. -/
def Token.deepest (opened : Nat) : List Token → Nat
  | [] => opened
  | .opening :: rest => deepest (opened + 1) rest
  | .closing :: rest =>
    match opened with
    | 0 => 0
    | outer + 1 => max (outer + 1) (deepest outer rest)
  | .operator _ :: rest => deepest opened rest
  | .operand _ :: rest => deepest opened rest

/-- The groups that are open at the start count. -/
theorem Token.le_deepest (opened : Nat) (tokens : List Token) : opened ≤ deepest opened tokens := by
  induction tokens generalizing opened with
  | nil => exact Nat.le_refl _
  | cons token rest ih =>
      cases token with
      | opening => exact Nat.le_trans (Nat.le_succ _) (ih (opened + 1))
      | closing =>
          cases opened with
          | zero => exact Nat.le_refl _
          | succ outer => exact Nat.le_max_left _ _
      | operator op => exact ih opened
      | operand text => exact ih opened

/-! ## The course of building -/

namespace Tree

/-- The tree with one more part: a first part becomes the tree, an operand drops what follows it,
and an operator takes a left child if it has none, or else a right child in place of the one it
has. -/
def receive (current child : Tree) : Tree :=
  match current with
  | absent => child
  | operand token => operand token
  | operator symbol left right =>
    if left.isAbsent then operator symbol child right else operator symbol left child

theorem attach_eq_receive (current child : Tree) : current.attach child = current.receive child := by
  cases current with
  | absent => rfl
  | operand token => rfl
  | operator symbol left right => cases left <;> rfl

/-- One more part adds at most one level to the part. -/
theorem depth_receive_le (current child : Tree) :
    (current.receive child).depth ≤ max current.depth (child.depth + 1) := by
  cases current with
  | absent =>
      simp only [receive]
      omega
  | operand token => exact Nat.le_max_left _ _
  | operator symbol left right =>
      simp only [receive]
      split
      · simp only [depth]
        omega
      · simp only [depth]
        omega

end Tree

/-- What building without limits comes to: the tree, every tree held on the way, and the tokens
that follow. -/
structure Course (bound : Nat) where
  tree : Tree
  held : List Tree
  rest : List Token
  rest_le : rest.length ≤ bound

namespace Course

/-- The same course after some trees were held. -/
def after {bound bound' : Nat} (held : List Tree) (h : bound ≤ bound') (course : Course bound) :
    Course bound' :=
  ⟨course.tree, held ++ course.held, course.rest, Nat.le_trans course.rest_le h⟩

/-- Builds the group that starts here on top of the tree so far. An operator takes the tree so far
as its left child, an operand or a group is one more part of it, and a closing parenthesis ends
the group. -/
def build (current : Tree) : (tokens : List Token) → Course tokens.length
  | [] => ⟨current, [], [], Nat.le_refl _⟩
  | .closing :: rest => ⟨current, [], rest, Nat.le_succ _⟩
  | .operator op :: rest =>
    let next := Tree.operator (.known op) current .absent
    (build next rest).after [next] (Nat.le_succ _)
  | .operand text :: rest =>
    let next := current.receive (.operand text)
    (build next rest).after [next] (Nat.le_succ _)
  | .opening :: rest =>
    let inner := build .absent rest
    let next := current.receive inner.tree
    have : inner.rest.length < rest.length + 1 := Nat.lt_succ_of_le inner.rest_le
    (build next inner.rest).after (inner.held ++ [next]) (Nat.le_of_lt this)
termination_by tokens => tokens.length
decreasing_by
  · exact Nat.lt_succ_self _
  · exact Nat.lt_succ_self _
  · exact Nat.lt_succ_self _
  · exact this

/-- The tree at the end is the one at the start or was held on the way. -/
theorem tree_mem (current : Tree) (tokens : List Token) :
    (build current tokens).tree ∈ current :: (build current tokens).held := by
  fun_induction build current tokens with
  | case1 current => exact List.mem_cons_self
  | case2 current rest => exact List.mem_cons_self
  | case3 current op rest next ih => exact List.mem_cons_of_mem _ ih
  | case4 current text rest next ih => exact List.mem_cons_of_mem _ ih
  | case5 current rest inner next hlt _ ih =>
      show _ ∈ current :: ((inner.held ++ [next]) ++ _)
      simp only [List.append_assoc]
      exact List.mem_cons_of_mem _ (List.mem_append_right _ ih)

/-- One more group around a list of tokens stands around what its own group holds, and not around
what follows. -/
theorem deepest_succ (opened : Nat) (current : Tree) (tokens : List Token) :
    Token.deepest (opened + 1) tokens =
      max (opened + 1 + Token.deepest 0 tokens)
        (Token.deepest opened (build current tokens).rest) := by
  fun_induction build current tokens generalizing opened with
  | case1 current =>
      show opened + 1 = max (opened + 1 + 0) opened
      omega
  | case2 current rest => rfl
  | case3 current op rest next ih => exact ih opened
  | case4 current text rest next ih => exact ih opened
  | case5 current rest inner next hlt ihinner ih =>
      -- the inner group is seen from here and from one group further out
      have hhere : Token.deepest 1 rest =
          max (1 + Token.deepest 0 rest) (Token.deepest 0 inner.rest) := by
        simpa using ihinner 0
      have houter : Token.deepest (opened + 1 + 1) rest =
          max (opened + 1 + 1 + Token.deepest 0 rest) (Token.deepest (opened + 1) inner.rest) :=
        ihinner (opened + 1)
      have hnext := ih opened
      show Token.deepest (opened + 1 + 1) rest = max (opened + 1 + Token.deepest 1 rest)
        (Token.deepest opened (build next inner.rest).rest)
      omega

/-! ## The course with limits -/

/-- No group that is entered stands too deep, with so many groups around it, and no tree that is
held has too many levels. -/
def Within (nesting : Nat) (current : Tree) (tokens : List Token) : Prop :=
  nesting + Token.deepest 0 tokens ≤ maxLevels ∧
    ∀ t ∈ (build current tokens).held, t.depth ≤ maxLevels

instance (nesting : Nat) (current : Tree) (tokens : List Token) :
    Decidable (Within nesting current tokens) :=
  inferInstanceAs (Decidable (_ ∧ _))

variable {nesting : Nat} {current : Tree} {rest : List Token}

theorem within_operator {op : Operator} :
    Within nesting current (.operator op :: rest) ↔
      (Tree.operator (.known op) current .absent).depth ≤ maxLevels ∧
        Within nesting (.operator (.known op) current .absent) rest := by
  unfold Within
  rw [build]
  simp only [after, Token.deepest, List.cons_append, List.nil_append, List.forall_mem_cons]
  exact and_left_comm

theorem within_operand {text : String} :
    Within nesting current (.operand text :: rest) ↔
      (current.receive (.operand text)).depth ≤ maxLevels ∧
        Within nesting (current.receive (.operand text)) rest := by
  unfold Within
  rw [build]
  simp only [after, Token.deepest, List.cons_append, List.nil_append, List.forall_mem_cons]
  exact and_left_comm

theorem within_opening :
    Within nesting current (.opening :: rest) ↔
      Within (nesting + 1) .absent rest ∧
        (current.receive (build .absent rest).tree).depth ≤ maxLevels ∧
          Within nesting (current.receive (build .absent rest).tree) (build .absent rest).rest := by
  have hdeepest := deepest_succ 0 .absent rest
  unfold Within
  rw [build]
  simp only [after, Token.deepest, List.mem_append, List.mem_singleton, or_imp, forall_and,
    forall_eq]
  rw [hdeepest]
  have hmax : nesting + max (0 + 1 + Token.deepest 0 rest)
      (Token.deepest 0 (build .absent rest).rest) ≤ maxLevels ↔
        nesting + 1 + Token.deepest 0 rest ≤ maxLevels ∧
          nesting + Token.deepest 0 (build .absent rest).rest ≤ maxLevels := by
    omega
  rw [hmax]
  tauto

/-- A step with its check is a step of the course, if what comes after it is. A tree that is too
deep is so by one level. -/
theorem checked_bind_eq {next : Tree} (hnext : next.depth ≤ maxLevels + 1) {here later : Prop}
    [Decidable here] [Decidable later] (hiff : here ↔ next.depth ≤ maxLevels ∧ later)
    {f : Draft → Except RuleError (Draft × List Token)} {result : Draft × List Token}
    (hlater : next.depth ≤ maxLevels →
      f (.ofTree next) = if later then .ok result else .error (.tooDeep (maxLevels + 1))) :
    (Draft.ofTree next).checked.bind f =
      if here then .ok result else .error (.tooDeep (maxLevels + 1)) := by
  rw [Draft.checked_ofTree]
  by_cases hle : next.depth ≤ maxLevels
  · rw [if_neg (Nat.not_lt.mpr hle), if_congr (hiff.trans (and_iff_right hle)) rfl rfl]
    exact hlater hle
  · have hdepth : next.depth = maxLevels + 1 := by omega
    have hhere : ¬ here := fun h => hle (hiff.mp h).1
    rw [if_pos (Nat.not_le.mp hle), if_neg hhere, hdepth]
    rfl

/-- The tree of a group that stays within the limits is within the levels. -/
theorem Within.depth_tree_le {tokens : List Token} (h : Within nesting current tokens)
    (hcurrent : current.depth ≤ maxLevels) : (build current tokens).tree.depth ≤ maxLevels := by
  rcases List.mem_cons.mp (tree_mem current tokens) with hstart | hheld
  · rw [hstart]
    exact hcurrent
  · exact h.2 _ hheld

/-- **One course.** Building a group with limits is building it without them, as long as the course
stays within the limits; otherwise it fails one level too deep. -/
theorem grow_eq_course (current : Tree) (tokens : List Token) :
    ∀ nesting, nesting ≤ maxLevels → current.depth ≤ maxLevels →
      Group.grow nesting (.ofTree current) tokens =
        if Within nesting current tokens then
          .ok (.ofTree (build current tokens).tree, (build current tokens).rest)
        else .error (.tooDeep (maxLevels + 1)) := by
  -- along the recursion of the course; the tree so far is within the levels at every step
  fun_induction build current tokens with
  | case1 current =>
      intro nesting hnesting _
      have hwithin : Within nesting current [] := by
        unfold Within
        rw [build]
        exact ⟨hnesting, fun t ht => absurd ht List.not_mem_nil⟩
      rw [Group.grow_nil, if_pos hwithin]
  | case2 current rest =>
      intro nesting hnesting _
      have hwithin : Within nesting current (.closing :: rest) := by
        unfold Within
        rw [build]
        exact ⟨hnesting, fun t ht => absurd ht List.not_mem_nil⟩
      rw [Group.grow_closing, if_pos hwithin]
  | case3 current op rest next ih =>
      intro nesting hnesting hcurrent
      have hnext : next.depth ≤ maxLevels + 1 := by
        show max current.depth 0 + 1 ≤ _
        omega
      rw [Group.grow_operator, Draft.pushOperator_ofTree]
      exact checked_bind_eq hnext within_operator (ih nesting hnesting)
  | case4 current text rest next ih =>
      intro nesting hnesting hcurrent
      have hnext : next.depth ≤ maxLevels + 1 := by
        have hreceive := Tree.depth_receive_le current (.operand text)
        have hone : (Tree.operand text).depth ≤ maxLevels := show 1 ≤ maxLevels by decide
        show (current.receive (.operand text)).depth ≤ _
        omega
      rw [Group.grow_operand]
      show Except.bind ((Draft.ofTree current).attach (.ofTree (.operand text))) _ = _
      rw [Draft.attach_ofTree, Tree.attach_eq_receive]
      exact checked_bind_eq hnext within_operand (ih nesting hnesting)
  | case5 current rest inner next _ ihinner ih =>
      intro nesting hnesting hcurrent
      by_cases hroom : nesting < maxLevels
      · rw [Group.grow_opening hroom]
        show Except.bind (Group.grow (nesting + 1) (.ofTree .absent) rest) _ = _
        rw [ihinner (nesting + 1) hroom (Nat.zero_le _)]
        by_cases hinner : Within (nesting + 1) .absent rest
        · have hnext : next.depth ≤ maxLevels + 1 := by
            have hdepth : inner.tree.depth ≤ maxLevels := hinner.depth_tree_le (Nat.zero_le _)
            have hreceive := Tree.depth_receive_le current inner.tree
            show (current.receive inner.tree).depth ≤ _
            omega
          rw [if_pos hinner]
          show Except.bind ((Draft.ofTree current).attach (.ofTree inner.tree)) _ = _
          rw [Draft.attach_ofTree, Tree.attach_eq_receive]
          exact checked_bind_eq hnext (within_opening.trans (and_iff_right hinner))
            (ih nesting hnesting)
        · have hwithin : ¬ Within nesting current (.opening :: rest) :=
            fun h => hinner (within_opening.mp h).1
          rw [if_neg hinner, if_neg hwithin]
          rfl
      · have hfull : nesting = maxLevels := Nat.le_antisymm hnesting (Nat.not_lt.mp hroom)
        have hwithin : ¬ Within nesting current (.opening :: rest) := by
          rintro ⟨hdeepest, -⟩
          have hone : 1 ≤ Token.deepest 0 (.opening :: rest) := Token.le_deepest 1 rest
          omega
        rw [Group.grow_opening_of_le (Nat.not_lt.mp hroom), if_neg hwithin, hfull]

end Course

namespace Tree

/-- The tree of a list of tokens is the one that it has without limits, as long as they are kept. -/
theorem ofTokens_eq_ite (tokens : List Token) :
    ofTokens tokens =
      if Course.Within 0 .absent tokens then .ok (Course.build .absent tokens).tree
      else .error (.tooDeep (maxLevels + 1)) := by
  rw [ofTokens_eq]
  show Except.map _ (Group.grow 0 (.ofTree .absent) tokens) = _
  rw [Course.grow_eq_course .absent tokens 0 (Nat.zero_le _) (Nat.zero_le _)]
  split
  · rfl
  · rfl

/-- **Building with limits and without.** Whatever the texts of the tokens, they are built to the
tree that they have without limits, if no group that is entered before the rule ends stands more
than `maxLevels` deep and no tree held on the way, in any group, has more than `maxLevels` levels.
Otherwise building fails, and its message reports one level more than there may be. -/
theorem ofTokens_eq_course (texts : List String) :
    let tokens := texts.map Token.ofText
    let course := Course.build .absent tokens
    List.Forall₂ Token.StandsFor texts tokens ∧
    (ofTokens tokens =
      if Token.deepest 0 tokens ≤ maxLevels ∧ ∀ t ∈ course.held, t.depth ≤ maxLevels then
        .ok course.tree
      else .error (.tooDeep 101)) ∧
    (RuleError.tooDeep 101).IsInvalidInput ∧
    (RuleError.tooDeep 101).message = "无效的规则输入: 规则嵌套层数 101 超过上限 100" := by
  intro tokens course
  have htokens : List.Forall₂ Token.StandsFor texts tokens := by
    rw [List.forall₂_map_right_iff, List.forall₂_same]
    exact fun text _ => Token.standsFor_ofText text
  refine ⟨htokens, ?_, rfl, by decide +kernel⟩
  have hwithin : Course.Within 0 .absent tokens ↔
      Token.deepest 0 tokens ≤ maxLevels ∧ ∀ t ∈ course.held, t.depth ≤ maxLevels := by
    unfold Course.Within
    rw [Nat.zero_add]
  rw [ofTokens_eq, ← if_congr hwithin rfl rfl]
  show Except.map _ (Group.grow 0 (.ofTree .absent) tokens) = _
  rw [Course.grow_eq_course .absent tokens 0 (Nat.zero_le _) (Nat.zero_le _)]
  split
  · rfl
  · rfl

/-- A group behind an operand is dropped, and still its trees were held. -/
example :
    let course := Course.build .absent (["c", "(", "a", "=", ")"].map Token.ofText)
    course.tree = .operand "c" ∧ course.held =
      [.operand "c", .operand "a", .operator (.known .eq) (.operand "a") .absent, .operand "c"] := by
  decide +kernel

end Tree

end Verdict
