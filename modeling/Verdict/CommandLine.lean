/-!
# The command line

`Invocation.parse` reads the arguments of the program: a level of the log, which may stand before
and after the name of the command, and one of three commands with its own arguments. Arguments
are taken from left to right, and the first thing that is wrong, or the first request for help or
for the version, ends the reading. An option whose value stands in the next argument is settled
only when the next option or the end is reached, and so are its faults.
-/

namespace Verdict

/-- A command with its arguments. -/
inductive Command where
  | parse (rule : String)
  | combine (rules : List String)
  | evaluate (rule tree : Option String) (data : String) (trace : Bool)
deriving DecidableEq, Repr, Inhabited

/-- The arguments of the program. -/
structure Invocation where
  logLevel : Option String
  command : Command
deriving DecidableEq, Repr, Inhabited

/-- Why the arguments do not make a command: help or the version is asked for, or something is
wrong with them. -/
inductive Usage where
  | help
  | version
  | nothingGiven
  | missingCommand
  | unknownCommand
  | unknownArgument
  | missingArgument
  | missingValue
  | conflict
  | surplusValue
deriving DecidableEq, Repr, Inhabited

/-- The exit code for arguments that do not make a command. -/
def Usage.exitCode : Usage → Nat
  | .help => 0
  | .version => 0
  | _ => 2

/-- What is shown for arguments that do not make a command. -/
def Usage.message : Usage → String
  | .help => "rule-engine [-l LEVEL] parse RULE | combine RULE... | evaluate -r RULE | -a FILE -d DATA [-t]"
  | .version => "rule-engine 0.1.0"
  | .nothingGiven => "a command is needed: parse, combine or evaluate"
  | .missingCommand => "a command is needed: parse, combine or evaluate"
  | .unknownCommand => "no such command"
  | .unknownArgument => "an argument is unknown or superfluous"
  | .missingArgument => "a required argument is missing"
  | .missingValue => "an option lacks its value"
  | .conflict => "arguments exclude each other or are repeated"
  | .surplusValue => "a flag takes no value"

namespace CommandLine

/-! ## Grammar -/

/-- The places where arguments are read: before the name of a command, or after it. -/
inductive Place where
  | program
  | parse
  | combine
  | evaluate
deriving DecidableEq, Repr, Inhabited

/-- The options that take a value. -/
inductive ValueOption where
  | logLevel
  | rule
  | tree
  | data
deriving DecidableEq, Repr, Inhabited

/-- The options of the command line. -/
inductive Argument where
  | help
  | version
  | trace
  | valued (option : ValueOption)
deriving DecidableEq, Repr, Inhabited

/-- The place behind the name of a command. -/
def placeOf? : String → Option Place
  | "parse" => some .parse
  | "combine" => some .combine
  | "evaluate" => some .evaluate
  | _ => none

/-- Whether a text names a command, that for help included. -/
def isCommandName (text : String) : Bool :=
  (placeOf? text).isSome || text == "help"

/-- The option behind a letter at a place. -/
def short? (place : Place) (letter : Char) : Option Argument :=
  match letter with
  | 'h' => some .help
  | 'V' => some .version
  | 'l' => some (.valued .logLevel)
  | _ =>
    if place = .evaluate then
      match letter with
      | 'r' => some (.valued .rule)
      | 'a' => some (.valued .tree)
      | 'd' => some (.valued .data)
      | 't' => some .trace
      | _ => none
    else none

/-- The option behind a long name at a place. -/
def long? (place : Place) (name : String) : Option Argument :=
  match name with
  | "help" => some .help
  | "version" => some .version
  | "log-level" => some (.valued .logLevel)
  | _ =>
    if place = .evaluate then
      match name with
      | "rule" => some (.valued .rule)
      | "ast" => some (.valued .tree)
      | "data" => some (.valued .data)
      | "trace" => some .trace
      | _ => none
    else none

/-! ## What has been read -/

/-- An option or a list of plain arguments that has been begun but is not yet settled. -/
inductive Pending where
  | nothing
  | option (option : ValueOption) (value : Option String)
  | plain (values : List String)
deriving DecidableEq, Repr, Inhabited

/-- What has been read at a place. -/
structure Reading where
  logLevel : Option String
  rule : Option String
  tree : Option String
  data : Option String
  trace : Bool
  plain : List String
  pending : Pending
  optionsEnded : Bool
deriving DecidableEq, Repr, Inhabited

namespace Reading

/-- Nothing has been read. -/
def start : Reading := ⟨none, none, none, none, false, [], .nothing, false⟩

/-- The value of an option. -/
def value? (reading : Reading) : ValueOption → Option String
  | .logLevel => reading.logLevel
  | .rule => reading.rule
  | .tree => reading.tree
  | .data => reading.data

/-- Gives an option its value. An option has one value only, and a path is not empty. -/
def store (reading : Reading) (option : ValueOption) (value : String) : Except Usage Reading :=
  if (reading.value? option).isSome then .error .conflict
  else
    match option with
    | .logLevel => .ok { reading with logLevel := some value }
    | .rule => .ok { reading with rule := some value }
    | .tree =>
      if value = "" then .error .missingValue else .ok { reading with tree := some value }
    | .data => .ok { reading with data := some value }

/-- Settles what has been begun. -/
def settle (reading : Reading) : Except Usage Reading :=
  match reading.pending with
  | .nothing => .ok reading
  | .option _ none => .error .missingValue
  | .option option (some value) => store { reading with pending := .nothing } option value
  | .plain values => .ok { reading with plain := reading.plain ++ values, pending := .nothing }

/-- Takes an option without a value. -/
def flag (reading : Reading) (argument : Argument) : Except Usage Reading := do
  let settled ← reading.settle
  match argument with
  | .help => .error .help
  | .version => .error .version
  | _ => if settled.trace then .error .conflict else .ok { settled with trace := true }

/-- Takes an option with a value that is attached to it, or begins one whose value follows. -/
def valued (reading : Reading) (option : ValueOption) (attached : Option String) :
    Except Usage Reading := do
  let settled ← reading.settle
  match attached with
  | some value => settled.store option value
  | none => .ok { settled with pending := .option option none }

/-- The option that waits for its value in the next argument. -/
def awaiting? (reading : Reading) : Option ValueOption :=
  match reading.pending with
  | .option option none => some option
  | _ => none

end Reading

/-! ## Arguments -/

/-- Takes the letters after a single dash: options without values, up to one that takes what
follows it as its value, with or without an equals sign. -/
def takeLetters (place : Place) (reading : Reading) : List Char → Except Usage Reading
  | [] => .ok reading
  | letter :: rest =>
    match short? place letter with
    | none => .error .unknownArgument
    | some (.valued option) =>
      match rest with
      | [] => reading.valued option none
      | '=' :: value => reading.valued option (some (String.ofList value))
      | value => reading.valued option (some (String.ofList value))
    | some argument => do takeLetters place (← reading.flag argument) rest

/-- Takes what follows two dashes: a name, with a value after an equals sign. -/
def takeLong (place : Place) (reading : Reading) (cs : List Char) : Except Usage Reading :=
  let name := cs.takeWhile (· != '=')
  let attached := match cs.drop name.length with
    | [] => none
    | _ :: value => some (String.ofList value)
  match long? place (String.ofList name) with
  | none => .error .unknownArgument
  | some (.valued option) => reading.valued option attached
  | some argument => if attached.isSome then .error .surplusValue else reading.flag argument

/-- Takes an argument that is no option: the only one of `parse` or one of several of
`combine`. -/
def takePlain (place : Place) (reading : Reading) (text : String) : Except Usage Reading :=
  match place, reading.pending with
  | .combine, .plain values => .ok { reading with pending := .plain (values ++ [text]) }
  | .combine, _ => do .ok { (← reading.settle) with pending := .plain [text] }
  | .parse, .plain _ => .error .unknownArgument
  | .parse, _ =>
    if !reading.plain.isEmpty then .error .unknownArgument
    else do .ok { (← reading.settle) with pending := .plain [text] }
  | .program, _ =>
    .error (if reading.optionsEnded && isCommandName text then .unknownArgument
      else .unknownCommand)
  | .evaluate, _ => .error .unknownArgument

/-- Takes one argument behind the name of a command, or an option before it. -/
def take (place : Place) (reading : Reading) (text : String) : Except Usage Reading :=
  if reading.optionsEnded then takePlain place reading text
  else
    match text.toList with
    | ['-', '-'] => .ok { reading with optionsEnded := true }
    | '-' :: '-' :: name => takeLong place reading name
    | '-' :: letter :: letters => takeLetters place reading (letter :: letters)
    | _ =>
      match reading.awaiting? with
      | some option => .ok { reading with pending := .option option (some text) }
      | none => takePlain place reading text

/-- Takes all arguments behind the name of a command. -/
def takeAll (place : Place) (reading : Reading) : List String → Except Usage Reading
  | [] => reading.settle
  | text :: rest => do takeAll place (← take place reading text) rest

/-! ## Commands -/

/-- The command at a place, once everything is read. Options that exclude each other are found
before those that are missing. -/
def commandOf (place : Place) (reading : Reading) : Except Usage Command :=
  match place with
  | .program => .error .missingCommand
  | .parse =>
    match reading.plain with
    | rule :: _ => .ok (.parse rule)
    | [] => .error .missingArgument
  | .combine =>
    if reading.plain.isEmpty then .error .missingArgument else .ok (.combine reading.plain)
  | .evaluate =>
    match reading.rule, reading.tree, reading.data with
    | some _, some _, _ => .error .conflict
    | none, none, _ => .error .missingArgument
    | _, _, none => .error .missingArgument
    | rule, tree, some data => .ok (.evaluate rule tree data reading.trace)

/-- Follows the names behind the command for help: each has to be a command of the one before
it. -/
def takeHelp : List String → Usage
  | [] => .help
  | name :: rest => if isCommandName name && rest.isEmpty then .help else .unknownCommand

/-- Reads the arguments behind the name of a command. Only after them what was begun before the
name is settled; the level that was given later counts. -/
def takeCommand (before : Reading) (place : Place) (rest : List String) :
    Except Usage Invocation := do
  let reading ← takeAll place .start rest
  let command ← commandOf place reading
  let settled ← before.settle
  .ok ⟨reading.logLevel <|> settled.logLevel, command⟩

/-- Reads arguments up to the name of a command and hands on what follows it. -/
def takeProgram (reading : Reading) : List String → Except Usage Invocation
  | [] => do
    let settled ← reading.settle
    .error (if settled.logLevel.isNone then .nothingGiven else .missingCommand)
  | text :: rest =>
    if reading.optionsEnded || reading.awaiting?.isSome then do
      takeProgram (← take .program reading text) rest
    else if text = "help" then .error (takeHelp rest)
    else
      match placeOf? text with
      | some place => takeCommand reading place rest
      | none => do takeProgram (← take .program reading text) rest

end CommandLine

/-- The command that the arguments make. -/
def Invocation.parse (arguments : List String) : Except Usage Invocation :=
  CommandLine.takeProgram .start arguments

end Verdict
