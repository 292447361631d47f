import Verdict.Error
import Verdict.Record
import Verdict.Tree

/-!
# Evaluating rules

An operand stands for the field of its name, or else for the number that it spells, or else for
itself. `Executor.evaluateNode` comes to the value of a tree: it goes to the left child, to the
right child and then to the node, never skipping any, and adds a line to the report for every
position that it has finished, if a trace is kept. A missing child is visited like any other and
reads false. `Tree.walk` lists what an evaluation goes through, a `Step` for every position that
is finished, whether a trace is kept or not. `Tree.evaluate` is the verdict of a tree on a record,
and `Tree.execute` also returns the trace.
-/

namespace Verdict

/-- The value that an operand stands for on a record. -/
def Record.resolve (token : String) (record : Record) : Value :=
  match record.get? token with
  | some value => value
  | none =>
    match Number.ofLiteral? token with
    | some n => .number n
    | none => .string token

/-- The outcome of an operator on two values. -/
def Operator.apply (op : Operator) (left right : Value) : Bool :=
  match op with
  | .and => left.isTruthy && right.isTruthy
  | .or => left.isTruthy || right.isTruthy
  | .eq => left.same right
  | .gt => left.compare? right == some .gt
  | .lt => left.compare? right == some .lt
  | .ge => left.compare? right == some .gt || left.compare? right == some .eq
  | .le => left.compare? right == some .lt || left.compare? right == some .eq

/-! ## Steps -/

/-- One of the two places below an operator. -/
inductive Side where
  | left
  | right
deriving DecidableEq, Repr, Inhabited

/-- The name of a place below an operator. -/
def Side.text : Side → String
  | .left => "left"
  | .right => "right"

/-- The way from the root to a position, the last turn first. -/
abbrev Path := List Side

/-- A path written from the root on. -/
def Path.text : Path → String
  | [] => "root"
  | side :: path => Path.text path ++ "." ++ side.text

/-- What happened at a position of the tree. -/
inductive Step where
  | missing (path : Path)
  | operand (path : Path) (token : String) (value : Value)
  | operator (path : Path) (op : Operator) (left right : Value) (matched : Bool)
deriving DecidableEq, Repr

namespace Step

/-- The position of a step. -/
def path : Step → Path
  | missing path => path
  | operand path _ _ => path
  | operator path _ _ _ _ => path

/-- Whether a step met a missing tree. -/
def isMissing : Step → Bool
  | missing _ => true
  | _ => false

/-- What a step found, without its position. -/
def finding : Step → String
  | missing _ => "节点缺失 => false"
  | operand _ token value => token ++ " => " ++ value.text ++ " (" ++ value.kind ++ ")"
  | operator _ op left right matched =>
    left.text ++ " " ++ op.symbol ++ " " ++ right.text ++ " => " ++
      (if matched then "MATCHED" else "NOT_MATCHED")

/-- A step as a line of a trace. -/
def text (step : Step) : String :=
  step.path.text ++ ": " ++ step.finding

end Step

/-! ## The walk -/

/-- The steps of a walk in order, and the value or the failure that it ended with. -/
structure Walk where
  steps : List Step
  outcome : Except RuleError Value

namespace Tree

/-- What an evaluation of a tree that stands at a path and a level goes through. -/
def walk (record : Record) (path : Path) (level : Nat) (tree : Tree) : Walk :=
  if maxLevels < level then ⟨[], .error (.tooDeep level)⟩
  else
    match tree with
    | absent => ⟨[.missing path], .ok (.bool false)⟩
    | operand token =>
      let value := record.resolve token
      ⟨[.operand path token value], .ok value⟩
    | operator symbol left right =>
      let leftWalk := walk record (.left :: path) (level + 1) left
      match leftWalk.outcome with
      | .error e => ⟨leftWalk.steps, .error e⟩
      | .ok leftValue =>
        let rightWalk := walk record (.right :: path) (level + 1) right
        let steps := leftWalk.steps ++ rightWalk.steps
        match rightWalk.outcome with
        | .error e => ⟨steps, .error e⟩
        | .ok rightValue =>
          match symbol with
          | .unknown text => ⟨steps, .error (.unknownOperator text)⟩
          | .known op =>
            let matched := op.apply leftValue rightValue
            ⟨steps ++ [.operator path op leftValue rightValue matched], .ok (.bool matched)⟩

/-- The walk of a whole tree. -/
def walkAll (tree : Tree) (record : Record) : Walk :=
  tree.walk record [] 1

end Tree

/-! ## Evaluating -/

/-- A verdict with the lines that tell how it came about. -/
structure Report where
  matched : Bool
  trace : List String
deriving DecidableEq, Repr, Inhabited

/-- The report that an evaluation begins with. -/
def Report.empty : Report := ⟨false, []⟩

/-- An evaluation under way, which keeps a report until it ends with a value or a failure. -/
abbrev Evaluating := ExceptT RuleError (StateM Report)

/-- What an evaluation from the empty report ends with. -/
def Evaluating.outcome {α : Type} (evaluating : Evaluating α) : Except RuleError α :=
  (evaluating.run.run .empty).1

/-- What evaluates trees, and keeps a trace if it is told to. -/
structure Executor where
  traceEnabled : Bool
deriving DecidableEq, Repr, Inhabited

namespace Executor

/-- Adds the line of a step to the report, if a trace is kept. -/
def note (executor : Executor) (step : Step) : Evaluating Unit :=
  if executor.traceEnabled then
    modify fun report => { report with trace := report.trace ++ [step.text] }
  else pure ()

/-- The value of a tree that stands at a path and a level. -/
def evaluateNode (executor : Executor) (record : Record) (path : Path) (level : Nat)
    (tree : Tree) : Evaluating Value :=
  if maxLevels < level then throw (.tooDeep level)
  else
    match tree with
    | .absent => do
      executor.note (.missing path)
      return .bool false
    | .operand token => do
      let value := record.resolve token
      executor.note (.operand path token value)
      return value
    | .operator symbol left right => do
      let leftValue ← executor.evaluateNode record (.left :: path) (level + 1) left
      let rightValue ← executor.evaluateNode record (.right :: path) (level + 1) right
      match symbol with
      | .unknown text => throw (.unknownOperator text)
      | .known op =>
        let matched := op.apply leftValue rightValue
        executor.note (.operator path op leftValue rightValue matched)
        return .bool matched

/-- The verdict of a tree on a record. -/
def evaluate (executor : Executor) (tree : Tree) (record : Record) : Except RuleError Bool :=
  Evaluating.outcome do
    let value ← executor.evaluateNode record [] 1 tree
    return value.isTruthy

/-- The verdict of a tree on a record, with the trace that was kept. -/
def execute (executor : Executor) (tree : Tree) (record : Record) : Except RuleError Report :=
  Evaluating.outcome do
    let value ← executor.evaluateNode record [] 1 tree
    let report ← get
    return { report with matched := value.isTruthy }

end Executor

namespace Tree

/-- The verdict of a tree on a record. -/
def evaluate (tree : Tree) (record : Record) : Except RuleError Bool :=
  Executor.evaluate ⟨false⟩ tree record

/-- The verdict of a tree on a record, with a trace if one is wanted. -/
def execute (traced : Bool) (tree : Tree) (record : Record) : Except RuleError Report :=
  Executor.execute ⟨traced⟩ tree record

end Tree

end Verdict
