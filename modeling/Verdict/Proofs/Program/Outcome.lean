import Verdict.Program
import Verdict.Proofs.Command.Tracing
import Verdict.Proofs.CommandLine.Level

/-!
# Settings and the outcome of the program

The settings come from files and variables, and the level from the arguments as well, but all that
they decide is what is written to the journal and whether every evaluation is traced. So two runs of
one command agree in their outcome whatever their settings are (`Program.run_agree`): a trace is
printed or not, and the verdict is the same. Settings that cannot be gathered are no exception, as
the program goes on without them.
-/

namespace Verdict

namespace Command

/-! ## One command on two systems -/

/-- The file that a command reads. -/
def file? : Command → Option String
  | .evaluate _ path _ _ => path
  | _ => none

/-- Two outcomes of a command agree: those of an evaluation are one failure, or they print one
verdict and perhaps a trace that leads to it; all others are equal. -/
def Agree : Command → Except CommandError String → Except CommandError String → Prop
  | .evaluate _ _ _ _, result, result' =>
    (∃ e, result = .error e ∧ result' = .error e) ∨
    ∃ matched lines, ∀ outcome ∈ [result, result'], ∃ members traced,
      outcome = .ok (Json.object members).pretty ∧ Printed members matched lines traced
  | _, result, result' => result = result'

variable {files files' : Files}

theorem treeOf_congr {rule path : Option String}
    (hfile : ∀ name, path = some name → files name = files' name) :
    treeOf files rule path = treeOf files' rule path := by
  cases rule with
  | some text => rfl
  | none =>
      cases path with
      | none => rfl
      | some name => simp only [treeOf, loadTree, Files.text, hfile name rfl]

/-- A command that sees one file has outcomes that agree, whether all evaluations are traced or
not. -/
theorem agree_of_file (command : Command)
    (hfile : ∀ path, command.file? = some path → files path = files' path)
    (traceAll traceAll' : Bool) :
    command.Agree (command.run files traceAll).result (command.run files' traceAll').result := by
  cases command with
  | parse rule => rfl
  | combine rules => rfl
  | evaluate rule path data trace =>
      have hother : (run files' traceAll' (.evaluate rule path data trace)).result =
          (run files traceAll' (.evaluate rule path data trace)).result := by
        simp only [run, runEvaluate_result]
        rw [show treeOf files rule path = treeOf files' rule path from treeOf_congr hfile]
      rw [hother]
      rcases result_evaluate_cases files rule path data with ⟨e, hfail⟩ | ⟨tree, record, hrun⟩
      · exact .inl ⟨e, hfail traceAll trace, hfail traceAll' trace⟩
      · rw [hrun traceAll trace, hrun traceAll' trace]
        rcases verdict_failure_or_printed tree record with ⟨e, h⟩ | ⟨matched, lines, h⟩
        · exact .inl ⟨e, h _, h _⟩
        · have hprinted : ∀ traced, ∃ members traced', verdict tree record traced =
              .ok (Json.object members).pretty ∧ Printed members matched lines traced' :=
            fun traced => (h traced).imp fun members hmembers => ⟨traced, hmembers⟩
          refine .inr ⟨matched, lines, fun outcome houtcome => ?_⟩
          simp only [List.mem_cons, List.not_mem_nil, or_false] at houtcome
          rcases houtcome with rfl | rfl
          · exact hprinted _
          · exact hprinted _

end Command

namespace Program

/-! ## Two runs of the program -/

theorem finish_result (files : Files) (vars : Variables) (moment : String)
    (invocation : Invocation) :
    (finish files vars moment invocation).result =
      (invocation.command.run files (settingsOf files vars).2.traceEnabled).result := by
  rcases invocation with ⟨_ | level, command⟩ <;> rfl

/-- Without settings, evaluations are not traced unless they ask for it. -/
theorem traceEnabled_of_fault {files : Files} {vars : Variables} {fault : SettingsFault}
    (h : (settingsOf files vars).1 = some fault) :
    (settingsOf files vars).2.traceEnabled = false := by
  unfold settingsOf at h ⊢
  split
  · next hload =>
      rw [hload] at h
      cases h
  · rfl

theorem exitCode_of_agree {command : Command} {finished finished' : Finished}
    (h : command.Agree finished.result finished'.result) :
    finished.exitCode = finished'.exitCode := by
  have hresults : finished.result = finished'.result ∨
      ∃ output output', finished.result = .ok output ∧ finished'.result = .ok output' := by
    cases command with
    | evaluate rule path data trace =>
        rcases h with ⟨e, hfail, hfail'⟩ | ⟨matched, lines, hprinted⟩
        · exact .inl (hfail.trans hfail'.symm)
        · obtain ⟨⟨members, _, hok, -⟩, ⟨members', _, hok', -⟩, -⟩ :=
            List.forall_mem_cons.mp hprinted |>.imp_right List.forall_mem_cons.mp
          exact .inr ⟨_, _, hok, hok'⟩
    | _ => exact .inl h
  unfold Finished.exitCode
  rcases hresults with heq | ⟨output, output', hok, hok'⟩
  · rw [heq]
  · rw [hok, hok']

/-- **Settings only add a trace.** Take arguments that make a command, others that differ from them
in levels only, and two runs that see the same file of the command, on any variables and with any
other files, at any time. Both runs finish; they succeed alike, and their outcomes agree: what is
printed for a rule or for several is the same, and an evaluation fails with the same error or
prints the same verdict, with a trace or without it. If the settings cannot be gathered, the
command has the outcome that it has without any. -/
theorem run_agree {arguments arguments' : List String}
    (harguments : Relation.ReflTransGen CommandLine.LevelChanged arguments arguments')
    {invocation : Invocation} (hparse : Invocation.parse arguments = .ok invocation)
    {files files' : Files}
    (hfile : ∀ path, invocation.command.file? = some path → files path = files' path)
    (vars vars' : Variables) (moment moment' : String) :
    ∃ finished finished',
      run files vars moment arguments = .ok finished ∧
      run files' vars' moment' arguments' = .ok finished' ∧
      invocation.command.Agree finished.result finished'.result ∧
      finished.exitCode = finished'.exitCode ∧
      (finished.settingsFault.isSome →
        finished.result = (invocation.command.run files false).result) := by
  obtain ⟨invocation', hparse', hcommand⟩ :=
    CommandLine.exists_parse_of_levelsChanged harguments hparse
  have hagree := invocation.command.agree_of_file hfile
    (settingsOf files vars).2.traceEnabled (settingsOf files' vars').2.traceEnabled
  have hresult := finish_result files vars moment invocation
  have hresult' := finish_result files' vars' moment' invocation'
  rw [hcommand] at hresult'
  rw [← hresult, ← hresult'] at hagree
  refine ⟨finish files vars moment invocation, finish files' vars' moment' invocation', ?_, ?_,
    hagree, exitCode_of_agree hagree, fun hfault => ?_⟩
  · rw [run, hparse]
    rfl
  · rw [run, hparse']
    rfl
  · obtain ⟨fault, hfault⟩ := Option.isSome_iff_exists.mp hfault
    rw [hresult, traceEnabled_of_fault hfault]

/-- A program whose settings are damaged prints a verdict, and one that traces everything prints the
same verdict and its trace. -/
theorem run_agree_damaged :
    let damaged : Files := fun path =>
      if path = "config/default.toml" then .ok "= 1".toUTF8 else .error .missing
    let tracing : Files := fun path =>
      if path = "config/rule-engine.toml" then .ok "[engine]\ntrace_enabled = true\n".toUTF8
      else .error .missing
    let arguments := fun level =>
      ["-l" ++ level, "evaluate", "-r", "a > 1", "-d", "\x7b\"a\":2\x7d"]
    ∃ finished finished',
      run damaged [] "1ms" (arguments "error") = .ok finished ∧
      run tracing [("RUST_LOG", "off")] "2ms" (arguments "debug") = .ok finished' ∧
      finished.settingsFault = some (.notToml "config/default.toml") ∧
      finished.result = .ok "\x7b\n  \"result\": true\n\x7d" ∧
      finished'.result = .ok ("\x7b\n  \"evaluation_time_ms\": 0,\n  \"result\": true,\n" ++
        "  \"trace\": [\n    \"root.left: a => 2 (number)\",\n" ++
        "    \"root.right: 1 => 1 (number)\",\n    \"root: 2 > 1 => MATCHED\"\n  ]\n\x7d") ∧
      finished.exitCode = finished'.exitCode := by
  intro damaged tracing arguments
  let invocation := fun level : String =>
    (⟨some level, .evaluate (some "a > 1") none "\x7b\"a\":2\x7d" false⟩ : Invocation)
  have hparse : Invocation.parse (arguments "error") = .ok (invocation "error") := by
    decide +kernel
  have hparse' : Invocation.parse (arguments "debug") = .ok (invocation "debug") := by
    decide +kernel
  have hrespelled : CommandLine.Respelled ["-l" ++ "error"] ["-l" ++ "debug"] :=
    .joined ⟨0, rfl⟩ ⟨'e', _, rfl, by decide⟩ ⟨'d', _, rfl, by decide⟩
  have harguments : CommandLine.LevelChanged (arguments "error") (arguments "debug") :=
    .mk [] _ List.not_mem_nil hrespelled
  have hfile : ∀ path, (invocation "error").command.file? = some path →
      damaged path = tracing path := fun _ h => nomatch h
  obtain ⟨finished, finished', hrun, hrun', -, hexit, hdefault⟩ :=
    run_agree (.single harguments) hparse hfile [] [("RUST_LOG", "off")] "1ms" "2ms"
  have hfault : finished.settingsFault = some (.notToml "config/default.toml") := by
    rw [run, hparse] at hrun
    rw [← Except.ok.inj hrun]
    decide +kernel
  refine ⟨finished, finished', hrun, hrun', hfault, ?_, ?_, hexit⟩
  · rw [hdefault (by rw [hfault]; rfl)]
    decide +kernel
  · rw [run, hparse'] at hrun'
    rw [← Except.ok.inj hrun', finish_result]
    decide +kernel

end Program

end Verdict
