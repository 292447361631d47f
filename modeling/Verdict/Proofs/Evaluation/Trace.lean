import Verdict.Evaluation

/-!
# Evaluations and their steps

An evaluation carries its report along and adds lines to it as it goes, if it keeps a trace.
`Executor.evaluateNode_follows` says what comes of this: the outcome is that of the walk, and the
lines that were added are those of the walk's steps, in order, or none at all. So a trace has no
say in the outcome (`Executor.failure_or_verdict`).
-/

namespace Verdict

namespace Executor

variable {executor : Executor} {α β : Type}

/-! ## What is reported on the way -/

/-- The report after some steps. -/
def noted (executor : Executor) (steps : List Step) (report : Report) : Report :=
  { report with
    trace := report.trace ++ if executor.traceEnabled then steps.map Step.text else [] }

theorem noted_nil (executor : Executor) (report : Report) : executor.noted [] report = report := by
  simp [noted]

theorem noted_append (executor : Executor) (before after : List Step) (report : Report) :
    executor.noted (before ++ after) report =
      executor.noted after (executor.noted before report) := by
  unfold noted
  split <;> simp

/-- An evaluation goes through some steps to an outcome, whatever has been reported before. -/
def Follows (executor : Executor) (evaluating : Evaluating α) (steps : List Step)
    (outcome : Except RuleError α) : Prop :=
  ∀ report, evaluating.run.run report = (outcome, executor.noted steps report)

theorem follows_pure (a : α) : executor.Follows (pure a) [] (.ok a) := by
  intro report
  rw [noted_nil]
  rfl

theorem follows_throw (e : RuleError) :
    executor.Follows (throw e : Evaluating α) [] (.error e) := by
  intro report
  rw [noted_nil]
  rfl

theorem follows_note (step : Step) : executor.Follows (executor.note step) [step] (.ok ()) := by
  intro report
  unfold note noted
  split
  · rfl
  · rw [List.append_nil]
    rfl

/-- After a value, the steps of what comes next follow. -/
theorem Follows.bind_ok {evaluating : Evaluating α} {next : α → Evaluating β}
    {before after : List Step} {a : α} {outcome : Except RuleError β}
    (h : executor.Follows evaluating before (.ok a))
    (hnext : executor.Follows (next a) after outcome) :
    executor.Follows (evaluating >>= next) (before ++ after) outcome := by
  intro report
  rw [ExceptT.run_bind, StateT.run_bind, h, noted_append]
  exact hnext _

/-- After a failure, nothing follows. -/
theorem Follows.bind_error {evaluating : Evaluating α} {next : α → Evaluating β}
    {steps : List Step} {e : RuleError} (h : executor.Follows evaluating steps (.error e)) :
    executor.Follows (evaluating >>= next) steps (.error e) := by
  intro report
  rw [ExceptT.run_bind, StateT.run_bind, h]
  rfl

/-! ## Nodes -/

/-- **Steps of an evaluation.** The evaluation of a tree goes through the steps of its walk and
comes to the outcome of the walk. -/
theorem evaluateNode_follows (executor : Executor) (record : Record) (path : Path) (level : Nat)
    (tree : Tree) :
    executor.Follows (executor.evaluateNode record path level tree)
      (tree.walk record path level).steps (tree.walk record path level).outcome := by
  induction tree generalizing path level with
  | absent =>
      simp only [evaluateNode, Tree.walk]
      split
      · exact follows_throw _
      · exact (follows_note _).bind_ok (follows_pure _)
  | operand token =>
      simp only [evaluateNode, Tree.walk]
      split
      · exact follows_throw _
      · exact (follows_note _).bind_ok (follows_pure _)
  | operator symbol left right ihl ihr =>
      have hl := ihl (.left :: path) (level + 1)
      have hr := ihr (.right :: path) (level + 1)
      simp only [evaluateNode, Tree.walk]
      split
      · exact follows_throw _
      · -- the left child is evaluated first, then the right one, and then the symbol is looked at
        cases hlo : (left.walk record (.left :: path) (level + 1)).outcome with
        | error e =>
            rw [hlo] at hl
            exact hl.bind_error
        | ok leftValue =>
            rw [hlo] at hl
            cases hro : (right.walk record (.right :: path) (level + 1)).outcome with
            | error e =>
                rw [hro] at hr
                exact hl.bind_ok hr.bind_error
            | ok rightValue =>
                rw [hro] at hr
                cases symbol with
                | unknown text =>
                    show executor.Follows _ (_ ++ _) _
                    rw [← List.append_nil (right.walk _ _ _).steps]
                    exact hl.bind_ok (hr.bind_ok (follows_throw _))
                | known op =>
                    show executor.Follows _ (_ ++ _ ++ _) _
                    rw [List.append_assoc]
                    exact hl.bind_ok (hr.bind_ok ((follows_note _).bind_ok (follows_pure _)))

theorem outcome_evaluateNode (executor : Executor) (record : Record) (path : Path) (level : Nat)
    (tree : Tree) :
    Evaluating.outcome (executor.evaluateNode record path level tree) =
      (tree.walk record path level).outcome :=
  congrArg Prod.fst (evaluateNode_follows executor record path level tree .empty)

/-! ## Whole trees -/

/-- The verdict is the truth of what the walk comes to. -/
theorem evaluate_eq_walkAll (executor : Executor) (tree : Tree) (record : Record) :
    executor.evaluate tree record = (tree.walkAll record).outcome.map Value.isTruthy := by
  have h := evaluateNode_follows executor record [] 1 tree .empty
  unfold evaluate Evaluating.outcome Tree.walkAll
  rw [ExceptT.run_bind, StateT.run_bind, h]
  cases (tree.walk record [] 1).outcome <;> rfl

/-- The trace holds the lines of all steps of the walk, if it is kept. -/
theorem execute_eq_walkAll (executor : Executor) (tree : Tree) (record : Record) :
    executor.execute tree record = (tree.walkAll record).outcome.map fun value =>
      ⟨value.isTruthy,
        if executor.traceEnabled then (tree.walkAll record).steps.map Step.text else []⟩ := by
  have h := evaluateNode_follows executor record [] 1 tree .empty
  unfold execute Evaluating.outcome Tree.walkAll
  rw [ExceptT.run_bind, StateT.run_bind, h]
  cases (tree.walk record [] 1).outcome <;> rfl

/-- With a trace or without one, all evaluations of a tree on a record fail alike, or else they
come to one verdict, and the traces that are kept are the same. -/
theorem failure_or_verdict (tree : Tree) (record : Record) :
    (∃ e, ∀ executor : Executor,
      executor.evaluate tree record = .error e ∧ executor.execute tree record = .error e) ∨
    ∃ matched lines, ∀ executor : Executor,
      executor.evaluate tree record = .ok matched ∧
        executor.execute tree record =
          .ok ⟨matched, if executor.traceEnabled then lines else []⟩ := by
  cases h : (tree.walkAll record).outcome with
  | error e =>
      refine .inl ⟨e, fun executor => ?_⟩
      rw [evaluate_eq_walkAll, execute_eq_walkAll, h]
      exact ⟨rfl, rfl⟩
  | ok value =>
      refine .inr ⟨value.isTruthy, (tree.walkAll record).steps.map Step.text, fun executor => ?_⟩
      rw [evaluate_eq_walkAll, execute_eq_walkAll, h]
      exact ⟨rfl, rfl⟩

end Executor

end Verdict
