import Verdict.Tree.Parse
import Verdict.Tree.Source
import Verdict.Timestamp

/-!
# Named rules

A `Rule` is what is stored of a rule: its name, a description if it has one, its text, the tree of
the text, and when it was created and changed. `Rule.toJson` is its stored form, without the
description if there is none, and `Rule.written` the same with the members in the order of the
parts. `Rule.ofJsonText` reads both back; a moment that is not stored is taken to be the present
one.
-/

namespace Verdict

/-- A rule with its name and its history. -/
structure Rule where
  name : String
  description : Option String
  text : String
  tree : Tree
  created : Timestamp
  updated : Timestamp
deriving DecidableEq, Repr, Inhabited

namespace Rule

/-- A new rule from its text; it is created and changed now. -/
def new (name text : String) (now : Timestamp) : Except RuleError Rule :=
  (Tree.parse text).map fun tree => ⟨name, none, text, tree, now, now⟩

/-- The rule with a description. -/
def describe (description : String) (rule : Rule) : Rule :=
  { rule with description := some description }

/-- The stored form of a rule. -/
def toJson (rule : Rule) : Json :=
  let description := match rule.description with
    | some text => [("description", .string text)]
    | none => []
  .ofMembers <|
    [("name", .string rule.name)] ++ description ++
    [("rule_string", .string rule.text), ("ast", rule.tree.toJson),
     ("created_at", .string rule.created.text), ("updated_at", .string rule.updated.text)]

/-- The stored form of a rule as a text is made from it at once: the members come in the order of
the parts, also in its tree. -/
def written (rule : Rule) : Json :=
  let times : Json.Members := .cons "created_at" (.string rule.created.text)
    (.cons "updated_at" (.string rule.updated.text) .nil)
  let texts : Json.Members := .cons "rule_string" (.string rule.text)
    (.cons "ast" rule.tree.written times)
  let described : Json.Members := match rule.description with
    | some text => .cons "description" (.string text) texts
    | none => texts
  .object (.cons "name" (.string rule.name) described)

/-! ## Reading -/

open Json (Source Fault)

/-- The parts of a rule that have been decoded so far. -/
structure Parts where
  name : Option String
  description : Option (Option String)
  text : Option String
  tree : Option Tree
  created : Option Timestamp
  updated : Option Timestamp
deriving Repr, Inhabited

/-- No part yet. -/
def Parts.none : Parts := ⟨.none, .none, .none, .none, .none, .none⟩

/-- A part that must be there. -/
def required {α : Type} (key : String) : Option α → Except Fault α
  | some part => .ok part
  | none => .error (.data (.missing key))

/-- The rule of all parts; name, text and tree must be there. -/
def Parts.finish (now : Timestamp) (parts : Parts) : Except Fault Rule := do
  let name ← required "name" parts.name
  let text ← required "rule_string" parts.text
  let tree ← required "ast" parts.tree
  .ok ⟨name, parts.description.getD .none, text, tree,
    parts.created.getD now, parts.updated.getD now⟩

/-- A text that may be left out by writing `null`. -/
def decodeOptionalText : Source → Except Fault (Option String)
  | .null => .ok none
  | other => other.toText.map some

/-- A timestamp in RFC 3339 form. -/
def decodeTimestamp : Source → Except Fault Timestamp
  | .string (some text) => (Timestamp.parse text).mapError fun fault => .data (.timestamp fault)
  | other => .error (other.unexpected .timestamp)

/-- The parts that items store from a place on. -/
def readItems (room place : Nat) (parts : Parts) : Source.Items → Except Fault Parts
  | .nil =>
    if place = 0 then .error (.data (.tooShort 0 .rule 6))
    else if place < 3 then .error (.data (.tooShort 2 .rule 6))
    else if place = 3 then .error (.data (.tooShort 3 .rule 6))
    else .ok parts
  | .fault found => .error found.fault
  | .cons item rest =>
    match place with
    | 0 => do
      let name ← item.toText
      readItems room 1 { parts with name := some name } rest
    | 1 => do
      let description ← decodeOptionalText item
      readItems room 2 { parts with description := some description } rest
    | 2 => do
      let text ← item.toText
      readItems room 3 { parts with text := some text } rest
    | 3 => do
      let tree ← Tree.ofSource room false item
      readItems room 4 { parts with tree := some tree } rest
    | 4 => do
      let created ← decodeTimestamp item
      readItems room 5 { parts with created := some created } rest
    | 5 => do
      let updated ← decodeTimestamp item
      readItems room 6 { parts with updated := some updated } rest
    | _ => .error .malformed

/-- The parts that members store, added to those already decoded. -/
def readMembers (room : Nat) (parts : Parts) : Source.Members → Except Fault Parts
  | .nil => .ok parts
  | .fault found => .error found.fault
  | .stray _ => .error .malformed
  | .brokenKey decoding _ => .error decoding.fault
  | .cons none _ _ => .error .malformed
  | .cons (some key) value rest =>
    if key = "name" then do
      Source.once key parts.name
      let name ← value.toText
      readMembers room { parts with name := some name } rest
    else if key = "description" then do
      Source.once key parts.description
      let description ← decodeOptionalText value
      readMembers room { parts with description := some description } rest
    else if key = "rule_string" then do
      Source.once key parts.text
      let text ← value.toText
      readMembers room { parts with text := some text } rest
    else if key = "ast" then do
      Source.once key parts.tree
      let tree ← Tree.ofSource room false value
      readMembers room { parts with tree := some tree } rest
    else if key = "created_at" then do
      Source.once key parts.created
      let created ← decodeTimestamp value
      readMembers room { parts with created := some created } rest
    else if key = "updated_at" then do
      Source.once key parts.updated
      let updated ← decodeTimestamp value
      readMembers room { parts with updated := some updated } rest
    else do
      value.skip
      readMembers room parts rest

/-- The rule that a JSON value stores in a text. -/
def ofSource (now : Timestamp) (room : Nat) : Source → Except Fault Rule
  | .object members =>
    match room with
    | 0 => .error .malformed
    | room + 1 => do (← readMembers room .none members).finish now
  | .array items =>
    match room with
    | 0 => .error .malformed
    | room + 1 => do (← readItems room 0 .none items).finish now
  | other => .error (other.unexpected .rule)

/-- The rule that a JSON text stores. -/
def ofJsonText (now : Timestamp) (text : String) : Except Fault Rule :=
  Source.decodeWhole (ofSource now Source.maxNesting) text

end Rule

end Verdict
