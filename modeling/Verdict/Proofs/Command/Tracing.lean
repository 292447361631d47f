import Mathlib.Control.Monad.Basic
import Verdict.Command
import Verdict.Proofs.Evaluation.Trace
import Verdict.Proofs.Json.ReadBack

/-!
# Evaluating with a trace and without one

A command evaluates in one of two ways: with a trace it visits every tree, without one it knows
the verdict of an absent tree beforehand. `tracing_keeps_outcome` shows that the choice is seen in
two members of the output only. Whether a command fails, why, and what verdict it prints depend
on the rule, the file and the data alone.
-/

namespace Verdict

namespace Command

/-- The members that an evaluation prints: the verdict in any case, and the lines of the trace and
the time exactly if a trace is wanted. -/
structure Printed (members : Json.Members) (matched : Bool) (lines : List String)
    (traced : Bool) : Prop where
  result : members.get? "result" = some (.bool matched)
  trace : members.get? "trace" = if traced then some (.ofItems (lines.map .string)) else none
  time : (members.get? "evaluation_time_ms").isSome = traced
  only : ∀ key ∈ members.keys, key ∈ ["evaluation_time_ms", "result", "trace"]

theorem plainOutput_printed (matched : Bool) (lines : List String) :
    ∃ members, plainOutput matched = .object members ∧ Printed members matched lines false := by
  refine ⟨.cons "result" (.bool matched) .nil, rfl, ?_, ?_, ?_, ?_⟩
  all_goals simp [Json.Members.get?, Json.Members.keys]

/-- The members of a traced output come in the order of their keys, so each of them is inserted
behind the ones before it. -/
theorem tracedOutput_eq (report : Report) :
    tracedOutput report =
      .object (.cons "evaluation_time_ms" (.ofNat 0) (.cons "result" (.bool report.matched)
        (.cons "trace" (.ofItems (report.trace.map .string)) .nil))) := by
  have hresult : ∀ key ∈ ["evaluation_time_ms"], key < "result" := by decide
  have htrace : ∀ key ∈ ["evaluation_time_ms", "result"], key < "trace" := by decide
  have hone : Json.Members.nil.insert "evaluation_time_ms" (.ofNat 0) =
      .cons "evaluation_time_ms" (.ofNat 0) .nil := rfl
  have htwo : (Json.Members.cons "evaluation_time_ms" (.ofNat 0) .nil).insert "result"
        (.bool report.matched) =
      .cons "evaluation_time_ms" (.ofNat 0) (.cons "result" (.bool report.matched) .nil) :=
    Json.Members.insert_of_lt _ hresult
  have hthree : (Json.Members.cons "evaluation_time_ms" (.ofNat 0)
        (.cons "result" (.bool report.matched) .nil)).insert "trace"
          (.ofItems (report.trace.map .string)) =
      .cons "evaluation_time_ms" (.ofNat 0) (.cons "result" (.bool report.matched)
        (.cons "trace" (.ofItems (report.trace.map .string)) .nil)) :=
    Json.Members.insert_of_lt _ htrace
  simp only [tracedOutput, Json.ofMembers, Json.Members.ofList, List.foldl_cons, List.foldl_nil]
  rw [hone, htwo, hthree]

theorem tracedOutput_printed (matched : Bool) (lines : List String) :
    ∃ members, tracedOutput ⟨matched, lines⟩ = .object members ∧
      Printed members matched lines true := by
  refine ⟨_, tracedOutput_eq ⟨matched, lines⟩, ?_, ?_, ?_, ?_⟩
  all_goals simp [Json.Members.get?, Json.Members.keys]

/-! ## One tree on one record -/

/-- An absent tree has the verdict that it would have if it were visited. -/
theorem evaluate_of_isAbsent (tree : Tree) (record : Record) :
    (if tree.isAbsent then .ok false else tree.evaluate record) = tree.evaluate record := by
  cases tree <;> rfl

theorem verdict_plain (tree : Tree) (record : Record) :
    verdict tree record false = ((tree.evaluate record).mapError .evaluating).map fun matched =>
      (plainOutput matched).pretty := by
  show Except.map _ (Except.mapError _ (if _ then _ else _)) = _
  rw [evaluate_of_isAbsent]

/-- All outcomes of a tree on a record are one failure, or they print one verdict. -/
theorem verdict_failure_or_printed (tree : Tree) (record : Record) :
    (∃ e, ∀ traced, verdict tree record traced = .error e) ∨
    ∃ matched lines, ∀ traced, ∃ members,
      verdict tree record traced = .ok (Json.object members).pretty ∧
        Printed members matched lines traced := by
  rcases Executor.failure_or_verdict tree record with ⟨e, h⟩ | ⟨matched, lines, h⟩
  · refine .inl ⟨.evaluating e, fun traced => ?_⟩
    cases traced with
    | false =>
        rw [verdict_plain, Tree.evaluate, (h ⟨false⟩).1]
        rfl
    | true =>
        show Except.map _ (Except.mapError _ (Executor.execute ⟨true⟩ tree record)) = _
        rw [(h ⟨true⟩).2]
        rfl
  · refine .inr ⟨matched, lines, fun traced => ?_⟩
    cases traced with
    | false =>
        obtain ⟨members, houtput, hprinted⟩ := plainOutput_printed matched lines
        refine ⟨members, ?_, hprinted⟩
        rw [verdict_plain, Tree.evaluate, (h ⟨false⟩).1, ← houtput]
        rfl
    | true =>
        obtain ⟨members, houtput, hprinted⟩ := tracedOutput_printed matched lines
        refine ⟨members, ?_, hprinted⟩
        show Except.map _ (Except.mapError _ (Executor.execute ⟨true⟩ tree record)) = _
        rw [(h ⟨true⟩).2, ← houtput]
        rfl

/-! ## The command -/

/-- Apart from its journal, an evaluation depends on the tree and not on where it was found. -/
theorem runEvaluate_result (files : Files) (rule path : Option String) (data : String)
    (traced : Bool) :
    (runEvaluate files rule path data traced).result =
      treeOf files rule path >>= fun tree =>
        (Record.ofJsonText data).mapError .record >>= fun record => verdict tree record traced := by
  cases htree : treeOf files rule path with
  | error e =>
      simp only [runEvaluate, htree]
      rfl
  | ok tree =>
      cases hrecord : Record.ofJsonText data with
      | error fault =>
          simp only [runEvaluate, htree, hrecord]
          rfl
      | ok record =>
          simp only [runEvaluate, htree, hrecord]
          rfl

/-- The rule, the file and the data come first: without a tree or without a record, the command
fails before anything is evaluated. -/
theorem result_evaluate_cases (files : Files) (rule path : Option String) (data : String) :
    (∃ e, ∀ traceAll trace,
      (run files traceAll (.evaluate rule path data trace)).result = .error e) ∨
    ∃ tree record, ∀ traceAll trace,
      (run files traceAll (.evaluate rule path data trace)).result =
        verdict tree record (trace || traceAll) := by
  simp only [run, runEvaluate_result]
  cases treeOf files rule path with
  | error e => exact .inl ⟨e, fun _ _ => rfl⟩
  | ok tree =>
      cases Record.ofJsonText data with
      | error fault => exact .inl ⟨.record fault, fun _ _ => rfl⟩
      | ok record => exact .inr ⟨tree, record, fun _ _ => rfl⟩

/-- **Tracing keeps the outcome.** All evaluations of a tree on a record, with a trace or without
one, fail alike or come to one verdict. The command that evaluates a rule or a file on some data
fails alike for every combination of its own flag and the general one, or prints one verdict, and
it prints a trace and the time exactly if one of the two is set. -/
theorem tracing_keeps_outcome :
    (∀ (tree : Tree) (record : Record),
      (∃ e, ∀ executor : Executor,
        executor.evaluate tree record = .error e ∧ executor.execute tree record = .error e) ∨
      ∃ matched lines, ∀ executor : Executor,
        executor.evaluate tree record = .ok matched ∧
          executor.execute tree record =
            .ok ⟨matched, if executor.traceEnabled then lines else []⟩) ∧
    ∀ (files : Files) (rule path : Option String) (data : String),
      (∃ e, ∀ traceAll trace,
        (run files traceAll (.evaluate rule path data trace)).result = .error e) ∨
      ∃ matched lines, ∀ traceAll trace, ∃ members,
        (run files traceAll (.evaluate rule path data trace)).result =
            .ok (Json.object members).pretty ∧
          Printed members matched lines (trace || traceAll) := by
  refine ⟨Executor.failure_or_verdict, fun files rule path data => ?_⟩
  rcases result_evaluate_cases files rule path data with hfail | ⟨tree, record, hrun⟩
  · exact .inl hfail
  · rcases verdict_failure_or_printed tree record with ⟨e, h⟩ | ⟨matched, lines, h⟩
    · refine .inl ⟨e, fun traceAll trace => ?_⟩
      rw [hrun, h]
    · refine .inr ⟨matched, lines, fun traceAll trace => ?_⟩
      obtain ⟨members, hverdict, hprinted⟩ := h (trace || traceAll)
      exact ⟨members, (hrun traceAll trace).trans hverdict, hprinted⟩

/-- A file may hold no tree at all: then the plain run, which visits nothing, prints the verdict of
the run that goes to the root and finds it missing. -/
example :
    let result := fun trace => (run (fun _ => .ok "null".toUTF8) false
      (.evaluate none (some "tree.json") "\x7b\x7d" trace)).result
    result false = .ok "\x7b\n  \"result\": false\n\x7d" ∧
      result true = .ok ("\x7b\n  \"evaluation_time_ms\": 0,\n  \"result\": false,\n" ++
        "  \"trace\": [\n    \"root: 节点缺失 => false\"\n  ]\n\x7d") := by
  decide +kernel

end Command

end Verdict
