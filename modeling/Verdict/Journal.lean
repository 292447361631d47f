import Verdict.Json

/-!
# The journal

While it works, the program notes what it does: an `Event` has a level, a target that names the
part of the program that speaks, a message and details. Events that belong together stand in a
`Span`, and the end of a span is noted, too. A journal is a list of such entries.
-/

namespace Verdict

/-- How much an entry matters, from the least to the most. -/
inductive Level where
  | trace
  | debug
  | info
  | warn
  | error
deriving DecidableEq, Repr, Inhabited

namespace Level

/-- The name of a level. -/
def text : Level → String
  | trace => "TRACE"
  | debug => "DEBUG"
  | info => "INFO"
  | warn => "WARN"
  | error => "ERROR"

/-- The weight of a level; more important levels weigh more. -/
def weight : Level → Nat
  | trace => 1
  | debug => 2
  | info => 3
  | warn => 4
  | error => 5

end Level

/-- The value of a detail: a text, which is quoted or stands as it is, a count or a truth
value. -/
inductive Detail where
  | quoted (text : String)
  | plain (text : String)
  | count (n : Nat)
  | flag (value : Bool)
deriving DecidableEq, Repr, Inhabited

/-- What happens between its beginning and its end belongs together. -/
structure Span where
  name : String
  details : List (String × Detail)
deriving DecidableEq, Repr, Inhabited

/-- Something that happened. -/
structure Event where
  level : Level
  target : String
  message : String
  details : List (String × Detail)
deriving DecidableEq, Repr, Inhabited

/-- An entry of a journal: an event, in a span or outside of any, or the end of a span. -/
inductive Entry where
  | event (span : Option Span) (event : Event)
  | closed (span : Span)
deriving DecidableEq, Repr, Inhabited

/-- The entries in the order in which they were noted. -/
abbrev Journal := List Entry

/-- The target of all spans. -/
def spanTarget : String := "rule_engine::engine"

end Verdict
