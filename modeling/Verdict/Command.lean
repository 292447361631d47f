import Verdict.CommandLine
import Verdict.Journal.Events
import Verdict.Json.Printer
import Verdict.Record.Json
import Verdict.Tree.Json

/-!
# Running commands

`Command.run` carries out a command and returns the text that it prints, or why it failed, and
what it notes in the journal. Files are read through a function that is handed in. A failure is a
chain of messages, from what was being done down to its cause.
-/

namespace Verdict

/-- Why a file could not be read as a text. -/
inductive FileFault where
  | missing
  | directory
  | belowFile
  | notText
  | other (message : String)
deriving DecidableEq, Repr, Inhabited

/-- The wording of a file's fault. -/
def FileFault.message : FileFault → String
  | .missing => "No such file or directory (os error 2)"
  | .directory => "Is a directory (os error 21)"
  | .belowFile => "Not a directory (os error 20)"
  | .notText => "stream did not contain valid UTF-8"
  | .other message => message

/-- How files are read: the bytes at a path. -/
abbrev Files := String → Except FileFault ByteArray

/-- The text at a path. -/
def Files.text (files : Files) (path : String) : Except FileFault String :=
  match files path with
  | .error fault => .error fault
  | .ok bytes =>
    match String.fromUTF8? bytes with
    | some text => .ok text
    | none => .error .notText

/-- Why a command failed. -/
inductive CommandError where
  | parsing (e : RuleError)
  | combining (e : RuleError)
  | evaluating (e : RuleError)
  | record (fault : Json.Fault)
  | unreadable (path : String) (fault : FileFault)
  | badTree (path : String) (e : RuleError)
  | nothingToEvaluate
deriving DecidableEq, Repr, Inhabited

/-- An error of a rule and what caused it. -/
def RuleError.chain (e : RuleError) : List String :=
  match e with
  | .json fault => [e.message, fault.message]
  | _ => [e.message]

/-- The messages of a failure, from what was being done down to its cause. -/
def CommandError.chain : CommandError → List String
  | .parsing e => "规则解析失败" :: e.chain
  | .combining e => "规则合并失败" :: e.chain
  | .evaluating e => "规则评估失败" :: e.chain
  | .record fault => ["数据记录必须是仅含数字、字符串或布尔值的 JSON 对象", fault.message]
  | .unreadable path fault => ["无法读取 AST 文件: " ++ path, fault.message]
  | .badTree path e => ("AST 文件格式无效: " ++ path) :: e.chain
  | .nothingToEvaluate => ["必须提供 --rule 或 --ast"]

/-- What a command came to: its output or its failure, and what it noted. -/
structure Run where
  journal : Journal
  result : Except CommandError String

namespace Command

/-- Prints the tree of a rule text. -/
def runParse (rule : String) : Run :=
  ⟨.ofCreation rule,
   ((Tree.parse rule).mapError .parsing).map fun tree => tree.toJson.pretty⟩

/-- Prints the tree of several rule texts. -/
def runCombine (rules : List String) : Run :=
  ⟨.ofCombination rules,
   ((Tree.anyOf rules).mapError .combining).map fun tree => tree.toJson.pretty⟩

/-- The tree that a file stores. -/
def loadTree (files : Files) (path : String) : Except CommandError Tree :=
  match files.text path with
  | .error fault => .error (.unreadable path fault)
  | .ok text => (Tree.ofJsonText text).mapError (.badTree path)

/-- The tree to evaluate: that of the rule text if there is one, else that of the file. -/
def treeOf (files : Files) (rule path : Option String) : Except CommandError Tree :=
  match rule, path with
  | some text, _ => (Tree.parse text).mapError .parsing
  | none, some path => loadTree files path
  | none, none => .error .nothingToEvaluate

/-- What is noted while the tree to evaluate is found. -/
def treeJournal (files : Files) (rule path : Option String) : Journal :=
  match rule, path with
  | some text, _ => .ofCreation text
  | none, some path =>
    match loadTree files path with
    | .error _ => []
    | .ok _ => .ofLoading path
  | none, none => []

/-- The output of an evaluation with a trace. -/
def tracedOutput (report : Report) : Json :=
  .ofMembers [("evaluation_time_ms", .ofNat 0), ("result", .bool report.matched),
    ("trace", .ofItems (report.trace.map .string))]

/-- The output of an evaluation without a trace. -/
def plainOutput (matched : Bool) : Json :=
  .ofMembers [("result", .bool matched)]

/-- The outcome of evaluating a tree on a record. Without a trace, an absent tree is false and
is not even visited. -/
def verdict (tree : Tree) (record : Record) (traced : Bool) : Except CommandError String :=
  if traced then
    ((tree.execute true record).mapError .evaluating).map fun report =>
      (tracedOutput report).pretty
  else
    let matched := if tree.isAbsent then .ok false else tree.evaluate record
    (matched.mapError .evaluating).map fun matched => (plainOutput matched).pretty

/-- What is noted while a tree is evaluated on a record. -/
def verdictJournal (tree : Tree) (record : Record) (traced : Bool) : Journal :=
  if traced then .ofTracedEvaluation (tree.walkAll record)
  else if tree.isAbsent then []
  else .ofWalk none (tree.walkAll record)

/-- Prints the verdict of a rule on a record. The tree is found first, then the record is read,
and then the tree is evaluated. -/
def runEvaluate (files : Files) (rule path : Option String) (data : String) (traced : Bool) :
    Run :=
  let found := treeJournal files rule path
  match treeOf files rule path with
  | .error e => ⟨found, .error e⟩
  | .ok tree =>
    match Record.ofJsonText data with
    | .error fault => ⟨found, .error (.record fault)⟩
    | .ok record => ⟨found ++ verdictJournal tree record traced, verdict tree record traced⟩

/-- Carries out a command; `traceAll` asks for a trace of every evaluation. -/
def run (files : Files) (traceAll : Bool) : Command → Run
  | .parse rule => runParse rule
  | .combine rules => runCombine rules
  | .evaluate rule path data trace => runEvaluate files rule path data (trace || traceAll)

end Command

end Verdict
