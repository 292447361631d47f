import Verdict.Number.Literal

/-!
# Values

A value is what a field of a record holds and what an operand stands for: a truth value, a
number or a text. `Value.text` is its text, by which values of different kinds are ordered.
-/

namespace Verdict

/-- A truth value, a number or a text. -/
inductive Value where
  | bool (value : Bool)
  | number (value : Number)
  | string (value : String)
deriving DecidableEq, Repr, Inhabited

namespace Value

/-- The name of a value's kind. -/
def kind : Value → String
  | bool _ => "boolean"
  | number _ => "number"
  | string _ => "string"

/-- The text of a value. -/
def text : Value → String
  | bool true => "true"
  | bool false => "false"
  | number n => n.text
  | string s => s

/-- Whether a value counts as true: the truth value itself, a number other than zero and `nan`,
a text that is not empty. -/
def isTruthy : Value → Bool
  | bool b => b
  | number n => n.isTruthy
  | string s => !s.isEmpty

/-- Equality of kind and value. -/
def same : Value → Value → Bool
  | bool a, bool b => a == b
  | number a, number b => a.same b
  | string a, string b => a == b
  | _, _ => false

/-- How two values stand to each other: numbers by value, everything else by text. Only `nan`
against a number has no answer. -/
def compare? : Value → Value → Option Ordering
  | number a, number b => a.compare? b
  | a, b => some (compareOfLessAndEq a.text b.text)

end Value

end Verdict
