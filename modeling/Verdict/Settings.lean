import Verdict.Command
import Verdict.Text.Utf8
import Verdict.Toml.Reader

/-!
# The settings of the program

`Settings.loadFrom` gathers the settings of the program from layers: what is handed in, the files
`default.toml`, one for the environment and one for the service, and the variables whose names
begin with `RULES_`. A later layer is laid over the earlier ones, key by key. A file that is not
there sets nothing; one that is no TOML, or a setting of the wrong kind, fails the whole.
-/

namespace Verdict

/-- What the program can be told before it starts. -/
structure Settings where
  serviceName : String
  environment : String
  traceEnabled : Bool
  logLevel : String
  logFormat : String
deriving DecidableEq, Repr, Inhabited

/-- Why the settings could not be gathered. -/
inductive SettingsFault where
  | notToml (path : String)
  | wrongKind (key : String)
deriving DecidableEq, Repr, Inhabited

/-- The wording of a fault of the settings. -/
def SettingsFault.message : SettingsFault → String
  | .notToml path => "invalid TOML in " ++ path
  | .wrongKind key => "invalid type for key `" ++ key ++ "`"

/-- The variables that the program was started with. -/
abbrev Variables := List (String × String)

/-- The value of a variable. -/
def Variables.get? (name : String) (vars : Variables) : Option String :=
  (vars.find? fun entry => entry.1 == name).map (·.2)

namespace Settings

/-! ## Layers -/

/-- A layer: settings under keys. A key is a name, or a path of names with points between them and
of places in brackets. -/
abbrev Layer := List (String × Setting)

/-- A character of a name in a path. -/
def isNameChar (c : Char) : Bool :=
  c.isAlphanum || c == '_' || c == '-'

/-- A step to a name at the head of a text, and what follows it. -/
def readName? (cs : List Char) : Option (Setting.Step × List Char) :=
  let name := cs.takeWhile isNameChar
  if name.isEmpty then none else some (.name (String.ofList name), cs.dropWhile isNameChar)

/-- A step to a place within the range of 64 bits, up to its closing bracket, and what follows
it. -/
def readPlace? (cs : List Char) : Option (Setting.Step × List Char) :=
  let (negative, unsigned) := match cs.dropWhile Toml.isSpace with
    | '-' :: rest => (true, rest)
    | rest => (false, rest)
  let (digits, rest) := splitDigits unsigned
  let index : Int := if negative then -Text.natOfDigits digits else Text.natOfDigits digits
  match digits, rest.dropWhile Toml.isSpace with
  | _ :: _, ']' :: rest' =>
    if -Int.pow 2 63 ≤ index && index < Int.pow 2 63 then some (.place index, rest') else none
  | _, _ => none

/-- The steps after the first one; `fuel` bounds their number. -/
def readSteps? : Nat → List Char → Option (List Setting.Step)
  | _, [] => some []
  | fuel + 1, '.' :: rest => do
    let (step, rest') ← readName? rest
    (readSteps? fuel rest').map (step :: ·)
  | fuel + 1, '[' :: rest => do
    let (step, rest') ← readPlace? rest
    (readSteps? fuel rest').map (step :: ·)
  | _, _ => none

/-- The path that a text spells. -/
def readPath? (cs : List Char) : Option (List Setting.Step) := do
  let (step, rest) ← readName? cs
  (readSteps? rest.length rest).map (step :: ·)

/-- The path of a key; a key that spells none is a name itself. -/
def pathOf (key : String) : List Setting.Step :=
  (readPath? key.toList).getD [.name key]

/-- Lays a layer over the settings so far. -/
def layOver (below : Option Setting) (layer : Layer) : Option Setting :=
  layer.foldl (fun below entry => some (Setting.layAt (pathOf entry.1) entry.2 below)) below

/-- The top entries of a document as a layer. -/
def layerOf : Setting.Entries → Layer
  | .nil => []
  | .cons name value rest => (name, value) :: layerOf rest

/-- A path below a directory; an absolute path stands for itself. -/
def below (directory name : String) : String :=
  if directory.isEmpty || name.startsWith "/" then name
  else if directory.endsWith "/" then directory ++ name
  else directory ++ "/" ++ name

/-- Whether a path has a name before the ending of its file; a name that begins with its only
point has no ending. -/
def isNamed (path : String) : Bool :=
  path != ".toml" && !path.endsWith "/.toml"

/-- The paths at which a file is looked for: its own, or else the same with the ending once
more. -/
def candidates (path : String) : List String :=
  [path, path ++ ".toml"]

/-- The layer of a file. Damaged characters are marked, and a file that cannot be read or has no
name is an empty layer. -/
def fileLayer (files : Files) (path : String) : Except SettingsFault Layer :=
  match (candidates path).find? fun path => (files path).isOk with
  | none => .ok []
  | some found =>
    match files found with
    | .error _ => .ok []
    | .ok bytes =>
      if !isNamed found then .ok []
      else
        match Toml.read (Text.decodeLossy bytes) with
        | some entries => .ok (layerOf entries)
        | none => .error (.notToml found)

/-- A whole number within the range of 64 bits. -/
def integer? (text : String) : Option Int :=
  let (negative, digits) := splitSign text.toList
  if digits.isEmpty || !digits.all Char.isDigit then none
  else
    let value : Int := Text.natOfDigits digits
    let signed := if negative then -value else value
    if -Int.pow 2 63 ≤ signed && signed < Int.pow 2 63 then some signed else none

/-- A floating point number: a literal, or a word for infinity or for no number in any case. -/
def float? (text : String) : Option Number :=
  match Number.ofLiteral? text with
  | some n => some n
  | none =>
    let (negative, word) := splitSign text.toList
    match (String.ofList word).toLower with
    | "inf" | "infinity" => some (.real negative .infinite)
    | "nan" => some .nan
    | _ => none

/-- The setting that the value of a variable spells: a truth value, a number, or its text. -/
def ofVariable (text : String) : Setting :=
  match text.toLower with
  | "true" => .bool true
  | "false" => .bool false
  | _ =>
    match integer? text with
    | some n => .integer n
    | none =>
      match float? text with
      | some n => .float n
      | none => .text text

/-- The start of the names of variables that are settings, in small letters. -/
def variableStart : List Char := "rules_".toList

/-- The layer of the variables. In their names two underscores stand for a point. -/
def variableLayer (vars : Variables) : Layer :=
  vars.filterMap fun entry =>
    let name := entry.1.toLower.toList
    if variableStart.isPrefixOf name then
      let key := String.ofList (name.drop variableStart.length)
      some (String.intercalate "." (key.splitOn "__"), ofVariable entry.2)
    else none

/-! ## Decoding -/

/-- The setting of a name in a section. A section may also be a list, whose places then stand for
the names; anything else is of the wrong kind. -/
def member? (section' : Option Setting) (key name : String) (place : Nat) :
    Except SettingsFault (Option Setting) :=
  match section' with
  | none => .ok none
  | some (.table entries) => .ok (entries.get? name)
  | some (.list items) => .ok (items.get? place)
  | some _ => .error (.wrongKind key)

/-- A text, or another one if it is not set. -/
def textOr (other key : String) : Option Setting → Except SettingsFault String
  | none => .ok other
  | some setting =>
    match setting.toText? with
    | some text => .ok text
    | none => .error (.wrongKind key)

/-- A truth value, false if it is not set. -/
def flagOf (key : String) : Option Setting → Except SettingsFault Bool
  | none => .ok false
  | some setting =>
    match setting.toBool? with
    | some value => .ok value
    | none => .error (.wrongKind key)

/-- The settings that all layers together make. -/
def decode (merged : Option Setting) : Except SettingsFault Settings := do
  let entries := Setting.entriesOf merged
  let engine := entries.get? "engine"
  let observability := entries.get? "observability"
  .ok {
    serviceName := ← textOr "" "service_name" (entries.get? "service_name")
    environment := ← textOr "" "environment" (entries.get? "environment")
    traceEnabled :=
      ← flagOf "engine.trace_enabled" (← member? engine "engine" "trace_enabled" 0)
    logLevel := ← textOr "info" "observability.log_level"
      (← member? observability "observability" "log_level" 0)
    logFormat := ← textOr "pretty" "observability.log_format"
      (← member? observability "observability" "log_format" 1) }

/-! ## Loading -/

/-- The settings when nothing can be gathered. -/
def fallback : Settings := ⟨"", "", false, "info", "pretty"⟩

/-- The files of settings, the later ones laid over the earlier. -/
def fileNames (environment service : String) : List String :=
  ["default.toml", environment ++ ".toml", service ++ ".toml"]

/-- The directory of the files of settings. -/
def directoryOf (vars : Variables) : String :=
  (vars.get? "CONFIG_DIR").getD "config"

/-- The environment that the program runs in. -/
def environmentOf (vars : Variables) : String :=
  (vars.get? "RULES_ENV").getD "development"

/-- Gathers the settings for an environment and a service from a directory and variables. -/
def loadFrom (files : Files) (vars : Variables) (directory environment service : String) :
    Except SettingsFault Settings := do
  let given : Layer := [("service_name", .text service), ("environment", .text environment)]
  let layers ← (fileNames environment service).mapM fun name =>
    fileLayer files (below directory name)
  decode (([given] ++ layers ++ [variableLayer vars]).foldl layOver none)

/-- Gathers the settings for a service; variables name the environment and the directory. -/
def load (files : Files) (vars : Variables) (service : String) :
    Except SettingsFault Settings :=
  loadFrom files vars (directoryOf vars) (environmentOf vars) service

/-- Whether the environment is the one for production. -/
def isProduction (settings : Settings) : Bool :=
  settings.environment == "production"

/-- Whether the journal is written for programs. -/
def jsonLogs (settings : Settings) : Bool :=
  settings.logFormat.toLower == "json"

end Settings

end Verdict
