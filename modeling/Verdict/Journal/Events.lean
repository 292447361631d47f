import Verdict.Evaluation
import Verdict.Journal
import Verdict.Tree.Combine

/-!
# What is noted about rules

The entries that working with rules leaves in the journal, as functions of what is worked on:
`Journal.ofCreation` for a rule text, `Journal.ofCombination` for several, `Journal.ofWalk` for
the missing trees that a walk met, and `Journal.ofTracedEvaluation` for a walk with a trace. A
failure ends the entries where it happens, but a span that has begun is closed.
-/

namespace Verdict

/-- The span in which a rule is created. -/
def Span.ofCreation (text : String) : Span :=
  ⟨"create_rule", [("rule_string", .quoted text)]⟩

/-- The span in which rules are combined. -/
def Span.ofCombination (texts : List String) : Span :=
  ⟨"combine_rules", [("rule_count", .count texts.length)]⟩

/-- The span in which a rule is evaluated with a trace. -/
def Span.ofTracedEvaluation : Span :=
  ⟨"evaluate_traced", []⟩

namespace Journal

/-- A rule was read: how many tokens its text has, and what tree they make. -/
def ofReading (span : Span) (text : String) : Journal :=
  match Token.scan text with
  | .error _ => []
  | .ok tokens =>
    let scanned : Event :=
      ⟨.debug, "rule_engine::tokenizer", "规则文本分词完成", [("token_count", .count tokens.length)]⟩
    match Tree.parse text with
    | .error _ => [.event span scanned]
    | .ok tree =>
      let parsed : Event :=
        ⟨.debug, "rule_engine::parser", "规则解析完成", [("rule", .plain tree.text)]⟩
      [.event span scanned, .event span parsed]

/-- A rule was created. -/
def ofCreation (text : String) : Journal :=
  let span := Span.ofCreation text
  let created : Journal := match Tree.parse text with
    | .error _ => []
    | .ok tree =>
      [.event span ⟨.info, "rule_engine::engine", "规则已创建", [("ast", .plain tree.text)]⟩]
  ofReading span text ++ created ++ [.closed span]

/-- Rules were read one after the other, up to the first that cannot be. -/
def ofReadings (span : Span) : List String → Journal
  | [] => []
  | text :: rest =>
    ofReading span text ++
      match Tree.parse text with
      | .error _ => []
      | .ok _ => ofReadings span rest

/-- Rules were combined. -/
def ofCombination (texts : List String) : Journal :=
  let span := Span.ofCombination texts
  let combined : Journal := match Tree.anyOf texts with
    | .error _ => []
    | .ok tree =>
      [.event span ⟨.debug, "rule_engine::combiner", "规则合并完成",
        [("rule_count", .count texts.length)]⟩,
       .event span ⟨.info, "rule_engine::engine", "规则已合并", [("ast", .plain tree.text)]⟩]
  ofReadings span texts ++ combined ++ [.closed span]

/-- A walk met missing trees. -/
def ofWalk (span : Option Span) (walk : Walk) : Journal :=
  (walk.steps.filter Step.isMissing).map fun step =>
    .event span ⟨.warn, "rule_engine::executor", "节点缺失，按 false 处理",
      [("path", .quoted step.path.text)]⟩

/-- A rule was evaluated with a trace. -/
def ofTracedEvaluation (walk : Walk) : Journal :=
  let span := Span.ofTracedEvaluation
  let evaluated : Journal := match walk.outcome with
    | .error _ => []
    | .ok value =>
      [.event span ⟨.info, "rule_engine::engine", "规则评估完成",
        [("matched", .flag value.isTruthy), ("elapsed_ms", .count 0)]⟩]
  ofWalk span walk ++ evaluated ++ [.closed span]

/-- A stored tree was loaded. -/
def ofLoading (path : String) : Journal :=
  [.event none ⟨.info, "rule_engine::cli::runner", "已加载 AST 文件", [("path", .plain path)]⟩]

end Journal

end Verdict
