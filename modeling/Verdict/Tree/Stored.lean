import Verdict.Evaluation
import Verdict.Record.Json
import Verdict.Tree.Json

/-!
# Evaluating stored rules

`Tree.evaluateStored` decodes a stored tree, then a stored record, and evaluates the one on the
other.
-/

namespace Verdict

/-- The verdict of a stored tree on a stored record. -/
def Tree.evaluateStored (tree record : Json) : Except RuleError Bool :=
  match Tree.ofJson tree with
  | .error e => .error e
  | .ok decoded =>
    match Record.ofJson record with
    | .error fault => .error (.json fault)
    | .ok fields => decoded.evaluate fields

end Verdict
