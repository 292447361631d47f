import Verdict.Token.Scan
import Verdict.Tree.Draft

/-!
# From tokens to trees

`Tree.ofTokens` builds the tree of a list of tokens from left to right and without precedence:
an operator takes the tree so far as its left child, an operand or a group in parentheses is
attached to the tree so far. A closing parenthesis without an opening one ends the rule, and
groups that are still open at the end are closed there. `Tree.parse` starts from a text.
-/

namespace Verdict

/-- What a group of tokens comes to: its draft, the place where it stopped, and the tokens that
follow its closing parenthesis. A group that is still open at the end stops one place further
for every group around it that is open, too. -/
structure Group (bound : Nat) where
  draft : Draft
  stop : Nat
  rest : List Token
  rest_le : rest.length ≤ bound

namespace Group

/-- The same group under a greater bound for what follows it. -/
def widen {bound bound' : Nat} (h : bound ≤ bound') (group : Group bound) : Group bound' :=
  ⟨group.draft, group.stop, group.rest, Nat.le_trans group.rest_le h⟩

/-- Builds the group that starts at a place, inside `nesting` others, on top of a draft. -/
def build (nesting place : Nat) (draft : Draft) :
    (tokens : List Token) → Except RuleError (Group tokens.length)
  | [] => .ok ⟨draft, place, [], Nat.le_refl _⟩
  | .closing :: rest => .ok ⟨draft, place, rest, Nat.le_succ _⟩
  | .operator op :: rest =>
    match draft.pushOperator op with
    | .error e => .error e
    | .ok draft' =>
      match build nesting (place + 1) draft' rest with
      | .error e => .error e
      | .ok group => .ok (group.widen (Nat.le_succ _))
  | .operand text :: rest =>
    match draft.attach (.leaf text) with
    | .error e => .error e
    | .ok draft' =>
      match build nesting (place + 1) draft' rest with
      | .error e => .error e
      | .ok group => .ok (group.widen (Nat.le_succ _))
  | .opening :: rest =>
    if maxLevels < nesting + 1 then .error (.tooDeep (nesting + 1))
    else
      match build (nesting + 1) (place + 1) .empty rest with
      | .error e => .error e
      | .ok inner =>
        match draft.attach inner.draft with
        | .error e => .error e
        | .ok draft' =>
          have : inner.rest.length < rest.length + 1 := Nat.lt_succ_of_le inner.rest_le
          match build nesting (inner.stop + 1) draft' inner.rest with
          | .error e => .error e
          | .ok group => .ok (group.widen (Nat.le_of_lt this))
termination_by tokens => tokens.length

end Group

namespace Tree

/-- The tree of a list of tokens; it is absent if no operand or operator is reached. -/
def ofTokens (tokens : List Token) : Except RuleError Tree :=
  (Group.build 0 0 .empty tokens).map fun group => group.draft.tree

/-- The tree of a rule text. -/
def parse (text : String) : Except RuleError Tree := do
  let tree ← ofTokens (← Token.scan text)
  if tree.isAbsent then .error (.noExpression text) else .ok tree

end Tree

end Verdict
