import Verdict.Journal
import Verdict.Text.Quoted
import Verdict.Json.Printer

/-!
# Lines of the journal

Entries are written for people or for programs. For people every event is a line of text with its
moment, its level, its span, its target, its message and its details, and ends of spans are not
written. For programs every entry is a JSON object.
-/

namespace Verdict

/-- A line of what the program writes beside its output: a text or a JSON object. -/
inductive Line where
  | text (text : String)
  | object (members : List (String × Json))
deriving DecidableEq, Repr, Inhabited

/-- A line as it is written. -/
def Line.written : Line → String
  | .text content => content
  | .object members => (Json.ofMembers members).compact

/-- The form in which a journal is written. -/
inductive JournalFormat where
  | plain
  | json
deriving DecidableEq, Repr, Inhabited

/-- A detail in a line of text. -/
def Detail.text : Detail → String
  | .quoted content => Text.quoted content
  | .plain content => content
  | .count n => Text.decimal n
  | .flag true => "true"
  | .flag false => "false"

/-- A detail in a JSON object. -/
def Detail.toJson : Detail → Json
  | .quoted content => .string content
  | .plain content => .string content
  | .count n => .ofNat n
  | .flag value => .bool value

/-- Details as the text of a span shows them. -/
def detailsText (details : List (String × Detail)) : String :=
  String.intercalate " " (details.map fun detail => detail.1 ++ "=" ++ detail.2.text)

/-- A span in front of an event. -/
def Span.text (span : Span) : String :=
  if span.details.isEmpty then span.name
  else span.name ++ "\x7b" ++ detailsText span.details ++ "\x7d"

/-- A span as a JSON object. -/
def Span.toJson (span : Span) : Json :=
  .ofMembers (("name", .string span.name) :: span.details.map fun detail =>
    (detail.1, detail.2.toJson))

/-- A level with blanks before it up to a width of five. -/
def Level.padded (level : Level) : String :=
  String.ofList (List.replicate (5 - level.text.length) ' ') ++ level.text

namespace Entry

/-- An entry as a line of text, if it is an event. -/
def plainLine? (moment : String) : Entry → Option Line
  | event span e =>
    let place := match span with
      | some span => span.text ++ ": "
      | none => ""
    let details := if e.details.isEmpty then "" else " " ++ detailsText e.details
    some (.text (moment ++ " " ++ e.level.padded ++ " " ++ place ++ e.target ++ ": " ++
      e.message ++ details))
  | closed _ => none

/-- An entry as a JSON object. -/
def jsonLine (moment : String) : Entry → Line
  | event span e =>
    let place := match span with
      | some span => [("span", span.toJson), ("spans", .ofItems [span.toJson])]
      | none => []
    let details := e.details.map fun detail => (detail.1, detail.2.toJson)
    .object ([("timestamp", .string moment), ("level", .string e.level.text),
      ("target", .string e.target),
      ("fields", .ofMembers (("message", .string e.message) :: details))] ++ place)
  | closed span =>
    .object [("timestamp", .string moment), ("level", .string Level.info.text),
      ("target", .string spanTarget), ("fields", .ofMembers [("message", .string "close")]),
      ("span", span.toJson), ("spans", .ofItems [])]

end Entry

/-- The lines of a journal whose entries all carry the same moment. -/
def Journal.lines (format : JournalFormat) (moment : String) (journal : Journal) : List Line :=
  match format with
  | .plain => journal.filterMap (Entry.plainLine? moment)
  | .json => journal.map (Entry.jsonLine moment)

end Verdict
