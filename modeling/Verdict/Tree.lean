import Verdict.Operator

/-!
# Rule trees

A rule is a binary tree: operands at the leaves, operators inside. A child may be missing, so a
tree may also be `absent`; a rule that was stored as nothing is the absent tree.
-/

namespace Verdict

/-- The tree of a rule, or of a part of one. -/
inductive Tree where
  | absent
  | operand (token : String)
  | operator (symbol : Symbol) (left right : Tree)
deriving DecidableEq, Repr, Inhabited

namespace Tree

/-- The number of levels: none for a missing tree, one for an operand. -/
def depth : Tree → Nat
  | absent => 0
  | operand _ => 1
  | operator _ left right => max left.depth right.depth + 1

/-- Whether there is no tree. -/
def isAbsent : Tree → Bool
  | absent => true
  | _ => false

/-- Whether the tree is one operand. -/
def isOperand : Tree → Bool
  | operand _ => true
  | _ => false

/-- The symbol at the root, if the root is an operator. -/
def symbol? : Tree → Option Symbol
  | operator symbol _ _ => some symbol
  | _ => none

/-- The left child of the root. -/
def left : Tree → Tree
  | operator _ left _ => left
  | _ => absent

/-- The right child of the root. -/
def right : Tree → Tree
  | operator _ _ right => right
  | _ => absent

/-- The text of the root: the token of an operand or the symbol of an operator. -/
def value : Tree → String
  | absent => ""
  | operand token => token
  | operator symbol _ _ => symbol.text

/-- The tree of an operator with both children. -/
def binary (op : Operator) (left right : Tree) : Tree :=
  operator (.known op) left right

/-- The tree written with every operator between its children in parentheses, and an underscore
for a missing child. -/
def text : Tree → String
  | absent => "_"
  | operand token => token
  | operator symbol left right =>
    "(" ++ left.text ++ " " ++ symbol.text ++ " " ++ right.text ++ ")"

/-- Puts a child below the root: an empty left place is filled first, after that the right
place is taken over, and an operand takes no child. A missing tree gives way to the child. -/
def attach : Tree → Tree → Tree
  | absent, child => child
  | operand token, _ => operand token
  | operator symbol absent right, child => operator symbol child right
  | operator symbol left _, child => operator symbol left child

end Tree

end Verdict
