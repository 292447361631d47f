import Verdict.Tree.Parse

/-!
# Any of several rules

`Tree.any` joins trees with `OR` from left to right, and `Tree.anyOf` does so for texts. The
levels of the joined tree are kept along the way and checked at every join; a single tree is
taken as it is.
-/

namespace Verdict

namespace Tree

/-- Joins more trees to the one so far, which is known to have at most `levels` levels. -/
def join (joined : Tree) (levels : Nat) : List Tree → Except RuleError Tree
  | [] => .ok joined
  | tree :: rest =>
    let levels' := max levels tree.depth + 1
    if maxLevels < levels' then .error (.tooDeep levels')
    else join (.binary .or joined tree) levels' rest

/-- The rule that holds when any of the given ones does. -/
def any : List Tree → Except RuleError Tree
  | [] => .error .noRules
  | tree :: rest => join tree tree.depth rest

/-- The rule that holds when any of the given texts does; the first text that cannot be read
fails the whole. -/
def anyOf (texts : List String) : Except RuleError Tree := do
  any (← texts.mapM parse)

end Tree

end Verdict
