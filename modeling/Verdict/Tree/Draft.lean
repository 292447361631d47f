import Verdict.Error
import Verdict.Tree

/-!
# Trees under construction

A `Draft` is a tree that still grows, with the levels of its two children kept beside it, so
that its own levels are known without a walk. Every step checks the levels of the tree that it
forms against `maxLevels`.
-/

namespace Verdict

/-- A tree that still grows, with the levels of the children of its root. -/
structure Draft where
  tree : Tree
  leftDepth : Nat
  rightDepth : Nat
deriving DecidableEq, Repr, Inhabited

namespace Draft

/-- The draft that holds nothing yet. -/
def empty : Draft := ⟨.absent, 0, 0⟩

/-- The draft of one operand. -/
def leaf (token : String) : Draft := ⟨.operand token, 0, 0⟩

/-- The levels of the tree, from those of the children. -/
def depth (draft : Draft) : Nat :=
  match draft.tree with
  | .absent => 0
  | .operand _ => 1
  | .operator _ _ _ => max draft.leftDepth draft.rightDepth + 1

/-- The draft itself, if its tree has no more levels than allowed. -/
def checked (draft : Draft) : Except RuleError Draft :=
  if maxLevels < draft.depth then .error (.tooDeep draft.depth) else .ok draft

/-- Puts an operator above the tree, which becomes its left child. -/
def pushOperator (op : Operator) (draft : Draft) : Except RuleError Draft :=
  checked ⟨.operator (.known op) draft.tree .absent, draft.depth, 0⟩

/-- Puts a finished part below the root: a first part becomes the tree, an operand drops what
follows it, and an operator fills its left place first and then replaces its right one. -/
def attach (draft child : Draft) : Except RuleError Draft :=
  match draft.tree with
  | .absent => child.checked
  | .operand _ => .ok draft
  | .operator _ left _ =>
    let tree := draft.tree.attach child.tree
    if left.isAbsent then checked ⟨tree, child.depth, draft.rightDepth⟩
    else checked ⟨tree, draft.leftDepth, child.depth⟩

end Draft

end Verdict
