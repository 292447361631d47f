import Verdict.Json.Fault

/-!
# JSON texts as they are written

A `Source` is a JSON text cut into its parts but not yet judged: members stay in the order of the
text, keys may repeat, numerals may be beyond every number, and the first place where the text
breaks off or breaks the grammar is a part like any other. A reader that decodes from left to
right takes the parts one by one and meets the first fault of either kind, in the data or in the
text, in the order in which they stand. `Source.toJson` decodes everything and `Source.skip`
decodes nothing.

Some breaks differ between the two: a text that ends inside a numeral is cut short for one who
wants the number and malformed for one who passes over it, and a text whose escapes do not name a
character cannot be decoded but can be passed over.
-/

namespace Verdict

namespace Json

/-- How a text breaks: it ends too early, or it breaks the grammar. -/
inductive Break where
  | cut
  | malformed
deriving DecidableEq, Repr, Inhabited

/-- The fault that a break is. -/
def Break.fault : Break → Fault
  | .cut => .cut
  | .malformed => .malformed

/-- What a broken value begins with: nothing that could begin a value, a quote, or the start of
another value. -/
inductive Beginning where
  | nothing
  | quote
  | plain
deriving DecidableEq, Repr, Inhabited

mutual

/-- A value as it is written. A string without text holds escapes that name no character. A
broken value has one break for those who decode it and one for those who pass over it. -/
inductive Source where
  | null
  | bool (value : Bool)
  | number (numeral : Numeral)
  | string (text : Option String)
  | array (items : Source.Items)
  | object (members : Source.Members)
  | broken (beginning : Beginning) (decoding skipping : Break)
deriving DecidableEq, Repr, Inhabited

/-- The items of an array, up to its end or to a break between them. -/
inductive Source.Items where
  | nil
  | fault (found : Break)
  | cons (item : Source) (rest : Source.Items)
deriving DecidableEq, Repr, Inhabited

/-- The members of an object, up to its end or to a break between them. Where the first key
should be, a stray value may stand instead; any key may itself be broken. -/
inductive Source.Members where
  | nil
  | fault (found : Break)
  | stray (value : Source)
  | brokenKey (decoding skipping : Break)
  | cons (key : Option String) (value : Source) (rest : Source.Members)
deriving DecidableEq, Repr, Inhabited

end

namespace Source

/-- The greatest number of arrays and objects that may stand in one another when a text is
decoded. -/
def maxNesting : Nat := 127

/-! ## Decoding everything -/

mutual

/-- The value, with room for so many arrays and objects in one another. -/
def toJson (room : Nat) : Source → Except Fault Json
  | .null => .ok .null
  | .bool value => .ok (.bool value)
  | .number numeral =>
    match numeral.value? with
    | some value => .ok (.number value)
    | none => .error .malformed
  | .string (some text) => .ok (.string text)
  | .string none => .error .malformed
  | .array items =>
    match room with
    | 0 => .error .malformed
    | room + 1 => (items.toJson room).map .array
  | .object members =>
    match room with
    | 0 => .error .malformed
    | room + 1 => (members.toJson room .nil).map .object
  | .broken _ decoding _ => .error decoding.fault

/-- The values of the items. -/
def Items.toJson (room : Nat) : Items → Except Fault Json.Items
  | .nil => .ok .nil
  | .fault found => .error found.fault
  | .cons item rest =>
    match item.toJson room with
    | .error e => .error e
    | .ok value => (rest.toJson room).map (.cons value)

/-- The members after those already decoded; of several with one key the last one stays. -/
def Members.toJson (room : Nat) : Members → Json.Members → Except Fault Json.Members
  | .nil, before => .ok before
  | .fault found, _ => .error found.fault
  | .stray _, _ => .error .malformed
  | .brokenKey decoding _, _ => .error decoding.fault
  | .cons none _ _, _ => .error .malformed
  | .cons (some key) value rest, before =>
    match value.toJson room with
    | .error e => .error e
    | .ok decoded => rest.toJson room (before.insert key decoded)

end

/-! ## Passing over -/

mutual

/-- Passes over a value: only the grammar is checked. -/
def skip : Source → Except Fault Unit
  | .array items => items.skip
  | .object members => members.skip
  | .broken _ _ skipping => .error skipping.fault
  | _ => .ok ()

/-- Passes over items. -/
def Items.skip : Items → Except Fault Unit
  | .nil => .ok ()
  | .fault found => .error found.fault
  | .cons item rest =>
    match item.skip with
    | .error e => .error e
    | .ok () => rest.skip

/-- Passes over members. -/
def Members.skip : Members → Except Fault Unit
  | .nil => .ok ()
  | .fault found => .error found.fault
  | .stray _ => .error .malformed
  | .brokenKey _ skipping => .error skipping.fault
  | .cons _ value rest =>
    match value.skip with
    | .error e => .error e
    | .ok () => rest.skip

end

/-- The complaint that a value is not what was expected. Numbers and texts are decoded first, so
that their own faults come before it. -/
def unexpected (expected : Expectation) : Source → Fault
  | .null => .data (.wrongShape .null expected)
  | .bool value => .data (.wrongShape (.bool value) expected)
  | .number numeral =>
    match numeral.value? with
    | some value => .data (.wrongShape value.shape expected)
    | none => .malformed
  | .string (some text) => .data (.wrongShape (.string text) expected)
  | .string none => .malformed
  | .array _ => .data (.wrongShape .sequence expected)
  | .object _ => .data (.wrongShape .map expected)
  | .broken _ decoding _ => decoding.fault

/-- Checks that a key has no part yet; a key that names a part must not be repeated. -/
def once {α : Type} (key : String) : Option α → Except Fault Unit
  | none => .ok ()
  | some _ => .error (.data (.repeated key))

/-- The text of a string. -/
def toText : Source → Except Fault String
  | .string (some text) => .ok text
  | other => .error (other.unexpected .string)

end Source

end Json

end Verdict
