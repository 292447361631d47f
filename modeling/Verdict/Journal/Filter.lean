import Verdict.Journal
import Verdict.Text.Digits
import Verdict.Text.Letters
import Verdict.Text.Blank

/-!
# Filters of the journal

A filter says which entries are kept. It is a list of directives between commas: a level for
everything, `target=level` for the targets that begin with a text, or such a text alone, which
keeps all of its levels. Of several directives that fit a target the one with the longest text
decides, and of two with the same text the later one. A filter without directives keeps errors.
-/

namespace Verdict

/-- What a directive keeps: nothing, or every level from one on. -/
abbrev Threshold := Option Level

/-- A directive: the targets it is for, all of them if none is named, and what it keeps. -/
structure Directive where
  target : Option String
  threshold : Threshold
deriving DecidableEq, Repr, Inhabited

/-- The directives of a filter. -/
abbrev Filter := List Directive

namespace Filter

/-- The threshold with a number: zero keeps nothing and five keeps everything. -/
def thresholdOfNumber? : Nat → Option Threshold
  | 0 => some none
  | 1 => some (some .error)
  | 2 => some (some .warn)
  | 3 => some (some .info)
  | 4 => some (some .debug)
  | 5 => some (some .trace)
  | _ => none

/-- A whole number with an optional plus sign. -/
def number? (text : String) : Option Nat :=
  let digits := match text.toList with
    | '+' :: rest => rest
    | cs => cs
  if digits.isEmpty || !digits.all Char.isDigit then none else some (Text.natOfDigits digits)

/-- The threshold that a text names, by number or by name in any case. -/
def threshold? (text : String) : Option Threshold :=
  match number? text with
  | some n => thresholdOfNumber? n
  | none =>
    match text.toLower with
    | "" => some (some .error)
    | "off" => some none
    | "error" => some (some .error)
    | "warn" => some (some .warn)
    | "info" => some (some .info)
    | "debug" => some (some .debug)
    | "trace" => some (some .trace)
    | _ => none

/-- Whether a directive may begin with a character. -/
def mayBegin (c : Char) : Bool :=
  c == '-' || c == ':' || c == '_' || Text.isLetterOrNumeral c

/-- The directive that a text spells. Blanks around it do not count when the place of the equals
sign is looked for, but the parts are taken from the whole text at that place. -/
def directive? (text : String) : Option Directive :=
  let whole := text.toList
  let core := Text.trim whole
  match core with
  | [] => none
  | c :: _ =>
    if !mayBegin c || core.contains '[' then none
    else if core.contains '=' then
      let place := (core.takeWhile (· != '=')).length
      let target := String.ofList (whole.take place)
      match String.ofList (whole.drop (place + 1)) with
      | "" => some ⟨some target, some .trace⟩
      | level => (threshold? level).map fun threshold => ⟨some target, threshold⟩
    else
      match threshold? text with
      | some threshold => some ⟨none, threshold⟩
      | none => some ⟨some text, some .trace⟩

/-- The filter that a text spells; directives without text are passed over. -/
def ofText? (text : String) : Option Filter :=
  ((text.splitOn ",").filter fun part => !part.isEmpty).mapM directive?

/-- Whether a directive is for a target. -/
def fits (target : String) (directive : Directive) : Bool :=
  match directive.target with
  | none => true
  | some start => start.toList.isPrefixOf target.toList

/-- How exactly a directive names its targets. -/
def exactness (directive : Directive) : Nat :=
  match directive.target with
  | none => 0
  | some start => start.utf8ByteSize + 1

/-- The directive that decides about a target, among those that fit it. -/
def deciding? (target : String) (filter : Filter) : Option Directive :=
  (filter.filter (fits target)).foldl (fun best directive =>
    match best with
    | none => some directive
    | some other => if exactness other ≤ exactness directive then some directive else best) none

/-- Whether a filter keeps a level of a target. -/
def keeps (filter : Filter) (level : Level) (target : String) : Bool :=
  let directives := if filter.isEmpty then [⟨none, some .error⟩] else filter
  match deciding? target directives with
  | some ⟨_, some threshold⟩ => threshold.weight ≤ level.weight
  | _ => false

/-- The entries that a filter keeps. A span that is not kept is not named at its events. -/
def apply (filter : Filter) (journal : Journal) : Journal :=
  journal.filterMap fun entry =>
    match entry with
    | .event span event =>
      if filter.keeps event.level event.target then
        some (.event (if filter.keeps .info spanTarget then span else none) event)
      else none
    | .closed span => if filter.keeps .info spanTarget then some (.closed span) else none

end Filter

end Verdict
