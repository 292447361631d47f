import Verdict.Json.Fault
import Verdict.Text.Blank

/-!
# Errors of rules

`RuleError` lists the ways in which reading, combining, storing or evaluating rules can fail,
and `RuleError.message` words them. The only limit of the library is `maxLevels`, the number of
levels that a tree may have.
-/

namespace Verdict

/-- The greatest number of levels of a tree. -/
def maxLevels : Nat := 100

/-- Why a rule could not be read, combined, stored or evaluated. -/
inductive RuleError where
  | blankText
  | noExpression (text : String)
  | tooDeep (levels : Nat)
  | noRules
  | unknownOperator (symbol : String)
  | json (fault : Json.Fault)
deriving DecidableEq, Repr, Inhabited

namespace RuleError

/-- The part of the message that names what is wrong with the input, for the errors that lie in
the input alone. -/
def inputComplaint? : RuleError → Option String
  | .blankText => some "规则文本不能为空"
  | .noExpression text => some ("规则不包含任何表达式: '" ++ Text.trimmed text ++ "'")
  | .tooDeep levels =>
    some ("规则嵌套层数 " ++ Text.decimal levels ++ " 超过上限 " ++ Text.decimal maxLevels)
  | _ => none

/-- The wording of an error. -/
def message (e : RuleError) : String :=
  match e with
  | .noRules => "未提供任何规则"
  | .unknownOperator symbol => "未知的操作符: " ++ symbol
  | .json fault => "JSON 序列化错误: " ++ fault.message
  | _ => "无效的规则输入: " ++ e.inputComplaint?.getD ""

end RuleError

end Verdict
