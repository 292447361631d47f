import Verdict.Journal.Filter
import Verdict.Journal.Line
import Verdict.Settings

/-!
# The program

`Program.run` is the whole program as a function of its arguments, its variables and its files.
The arguments are read first; then the settings are gathered, and if they cannot be, the program
goes on without them; then the command is carried out. Its output, its journal and the report of
its failure are what the program leaves behind.
-/

namespace Verdict

namespace Program

/-- The name under which the program looks for its settings. -/
def serviceName : String := "rule-engine"

/-- A line of a report with the number of its cause, if there are several: further lines of one
message are indented like the first. -/
def indented (number : Option Nat) (message : String) : String :=
  match number with
  | none => "    " ++ String.intercalate "\n    " (message.splitOn "\n")
  | some n =>
    let digits := Text.decimal n
    String.ofList (List.replicate (5 - digits.length) ' ') ++ digits ++ ": " ++
      String.intercalate "\n       " (message.splitOn "\n")

/-- The report of a chain of messages. -/
def report : List String → String
  | [] => ""
  | [message] => "Error: " ++ message
  | [message, cause] => "Error: " ++ message ++ "\n\nCaused by:\n" ++ indented none cause
  | message :: causes =>
    let lines := causes.zipIdx.map fun (cause, n) => indented (some n) cause
    "Error: " ++ message ++ "\n\nCaused by:\n" ++ String.intercalate "\n" lines

/-- What the program leaves behind once its arguments made a command. -/
structure Finished where
  settingsFault : Option SettingsFault
  lines : List Line
  result : Except CommandError String

/-- The exit code of the program. -/
def Finished.exitCode (finished : Finished) : Nat :=
  match finished.result with
  | .ok _ => 0
  | .error _ => 1

/-- The filter of the journal: the one that a variable spells, else that of the settings, else
everything from the usual level on. -/
def filterOf (vars : Variables) (settings : Settings) : Filter :=
  let fallback := (Filter.ofText? settings.logLevel).getD [⟨none, some .info⟩]
  match vars.get? "RUST_LOG" with
  | some text => (Filter.ofText? text).getD fallback
  | none => fallback

/-- The settings with the level that the arguments ask for. -/
def withLevel (level : Option String) (settings : Settings) : Settings :=
  match level with
  | some text => { settings with logLevel := text }
  | none => settings

/-- Gathers the settings, or goes on without them. -/
def settingsOf (files : Files) (vars : Variables) : Option SettingsFault × Settings :=
  match Settings.load files vars serviceName with
  | .ok settings => (none, settings)
  | .error fault => (some fault, .fallback)

/-- Carries out a command. All lines of the journal carry the same moment. -/
def finish (files : Files) (vars : Variables) (moment : String) (invocation : Invocation) :
    Finished :=
  let (fault, gathered) := settingsOf files vars
  let settings := withLevel invocation.logLevel gathered
  let run := invocation.command.run files settings.traceEnabled
  let format := if settings.jsonLogs then JournalFormat.json else .plain
  ⟨fault, Journal.lines format moment ((filterOf vars settings).apply run.journal), run.result⟩

/-- The files that the program may ask for. -/
def paths (vars : Variables) (arguments : List String) : List String :=
  let directory := Settings.directoryOf vars
  let settingsFiles :=
    (Settings.fileNames (Settings.environmentOf vars) serviceName).flatMap fun name =>
      Settings.candidates (Settings.below directory name)
  match Invocation.parse arguments with
  | .ok ⟨_, .evaluate _ (some path) _ _⟩ => path :: settingsFiles
  | _ => settingsFiles

/-- The whole program. -/
def run (files : Files) (vars : Variables) (moment : String) (arguments : List String) :
    Except Usage Finished :=
  (Invocation.parse arguments).map (finish files vars moment)

end Program

end Verdict
