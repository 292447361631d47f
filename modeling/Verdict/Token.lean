import Verdict.Operator

/-!
# Tokens

A token is a parenthesis, an operator or an operand. Square brackets are cut off like
parentheses, yet they are operands.
-/

namespace Verdict

/-- The smallest part of a rule text that means something. -/
inductive Token where
  | opening
  | closing
  | operator (op : Operator)
  | operand (text : String)
deriving DecidableEq, Repr, Inhabited

namespace Token

/-- The token that a text spells. -/
def ofText (text : String) : Token :=
  if text = "(" then .opening
  else if text = ")" then .closing
  else
    match Operator.ofSymbol? text with
    | some op => .operator op
    | none => .operand text

/-- The text of a token. -/
def text : Token → String
  | .opening => "("
  | .closing => ")"
  | .operator op => op.symbol
  | .operand text => text

end Token

end Verdict
