/-!
# Operators

The seven operators and their symbols. A tree that comes from storage may carry any text where a
symbol is due, so a `Symbol` is a known operator or a text that names none.
-/

namespace Verdict

/-- An operator of the rule language. -/
inductive Operator where
  | and
  | or
  | gt
  | lt
  | eq
  | ge
  | le
deriving DecidableEq, Repr, Inhabited

namespace Operator

/-- Every operator. -/
def all : List Operator := [and, or, gt, lt, eq, ge, le]

/-- The text that stands for an operator. -/
def symbol : Operator → String
  | and => "AND"
  | or => "OR"
  | gt => ">"
  | lt => "<"
  | eq => "="
  | ge => ">="
  | le => "<="

/-- The operator that a text stands for. -/
def ofSymbol? (text : String) : Option Operator :=
  all.find? fun op => op.symbol == text

/-- Whether an operator joins truth values instead of comparing. -/
def isLogical : Operator → Bool
  | and => true
  | or => true
  | _ => false

end Operator

/-- The symbol of an operator node: a known operator, or a text that names none. -/
inductive Symbol where
  | known (op : Operator)
  | unknown (text : String)
deriving DecidableEq, Repr, Inhabited

namespace Symbol

/-- The symbol that a text stands for. -/
def ofText (text : String) : Symbol :=
  match Operator.ofSymbol? text with
  | some op => .known op
  | none => .unknown text

/-- The text of a symbol. -/
def text : Symbol → String
  | .known op => op.symbol
  | .unknown text => text

end Symbol

end Verdict
