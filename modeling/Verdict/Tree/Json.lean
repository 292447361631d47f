import Verdict.Error
import Verdict.Json.Reader
import Verdict.Tree

/-!
# Trees as JSON

A node is stored as an object with the keys `type`, `value`, `left` and `right`, and a missing
tree as `null`. `Tree.ofJson` also takes a node as an array of up to four items in that order,
and its type as an object with one key whose value is `null`. Other keys are passed over, and the
children of an operand are decoded and then dropped. The nesting of the whole value is measured
first, and more levels than a tree may have are refused.
-/

namespace Verdict

namespace Tree

/-! ## Writing -/

/-- The members that store a node, in the order of their keys. -/
def node (kind value : String) (left right : Json) : Json :=
  .object (.cons "left" left (.cons "right" right
    (.cons "type" (.string kind) (.cons "value" (.string value) .nil))))

/-- The stored form of a tree. -/
def toJson : Tree → Json
  | absent => .null
  | operand token => node "operand" token .null .null
  | operator symbol left right => node "operator" symbol.text left.toJson right.toJson

/-- The members that store a node, in the order of its parts. -/
def nodeInOrder (kind value : String) (left right : Json) : Json :=
  .object (.cons "type" (.string kind) (.cons "value" (.string value)
    (.cons "left" left (.cons "right" right .nil))))

/-- The stored form of a tree as a text is made from it at once: every node has its members in the
order of its parts. -/
def written : Tree → Json
  | absent => .null
  | operand token => nodeInOrder "operand" token .null .null
  | operator symbol left right => nodeInOrder "operator" symbol.text left.written right.written

/-! ## Reading -/

/-- The two kinds of nodes. -/
inductive Kind where
  | operator
  | operand
deriving DecidableEq, Repr, Inhabited

/-- The kind that a name stands for. -/
def Kind.ofName (name : String) : Except Json.Fault Kind :=
  if name = "operator" then .ok .operator
  else if name = "operand" then .ok .operand
  else .error (.data (.unknownTag name))

/-- The parts of a node that have been decoded so far. -/
structure Parts where
  kind : Option Kind
  value : Option String
  left : Option Tree
  right : Option Tree
deriving DecidableEq, Repr, Inhabited

namespace Parts

/-- No part yet. -/
def none : Parts := ⟨.none, .none, .none, .none⟩

/-- The node of all parts; the type and the value must be there. -/
def finish (parts : Parts) : Except Json.Fault Tree :=
  match parts.kind, parts.value with
  | .none, _ => .error (.data (.missing "type"))
  | _, .none => .error (.data (.missing "value"))
  | some .operand, some value => .ok (.operand value)
  | some .operator, some value =>
    .ok (.operator (.ofText value) (parts.left.getD .absent) (parts.right.getD .absent))

end Parts

/-- The kind of a node from the value that stores it. -/
def Kind.decode : Json → Except Json.Fault Kind
  | .string name => Kind.ofName name
  | .object (.cons name value .nil) =>
    match Kind.ofName name, value with
    | .error e, _ => .error e
    | .ok kind, .null => .ok kind
    | .ok _, other => .error (.data (.wrongShape other.shape .nothing))
  | .object _ => .error (.data .notOneKey)
  | other => .error (.data (.wrongShape other.shape .tag))

/-- The text of a node from the value that stores it. -/
def decodeText : Json → Except Json.Fault String
  | .string text => .ok text
  | other => .error (.data (.wrongShape other.shape .string))

mutual

/-- The tree that a value stores. -/
def decode : Json → Except Json.Fault Tree
  | .null => .ok .absent
  | .object members =>
    match decodeMembers .none members with
    | .error e => .error e
    | .ok parts => parts.finish
  | .array items =>
    match decodeItems 0 .none items with
    | .error e => .error e
    | .ok parts => parts.finish
  | other => .error (.data (.wrongShape other.shape .node))

/-- The parts that items store from a place on. -/
def decodeItems (place : Nat) (parts : Parts) : Json.Items → Except Json.Fault Parts
  | .nil => if place < 2 then .error (.data (.tooShort place .node 4)) else .ok parts
  | .cons item rest =>
    match place with
    | 0 =>
      match Kind.decode item with
      | .error e => .error e
      | .ok kind => decodeItems 1 { parts with kind := some kind } rest
    | 1 =>
      match decodeText item with
      | .error e => .error e
      | .ok value => decodeItems 2 { parts with value := some value } rest
    | 2 =>
      match decode item with
      | .error e => .error e
      | .ok left => decodeItems 3 { parts with left := some left } rest
    | 3 =>
      match decode item with
      | .error e => .error e
      | .ok right => decodeItems 4 { parts with right := some right } rest
    | place + 4 => .error (.data (.tooLong (place + 5 + rest.toList.length)))

/-- The parts that members store, added to those already decoded. -/
def decodeMembers (parts : Parts) : Json.Members → Except Json.Fault Parts
  | .nil => .ok parts
  | .cons key value rest =>
    if key = "left" then
      match decode value with
      | .error e => .error e
      | .ok left => decodeMembers { parts with left := some left } rest
    else if key = "right" then
      match decode value with
      | .error e => .error e
      | .ok right => decodeMembers { parts with right := some right } rest
    else if key = "type" then
      match Kind.decode value with
      | .error e => .error e
      | .ok kind => decodeMembers { parts with kind := some kind } rest
    else if key = "value" then
      match decodeText value with
      | .error e => .error e
      | .ok text => decodeMembers { parts with value := some text } rest
    else decodeMembers parts rest

end

/-- The tree that a value stores, if its nesting is within the levels that a tree may have. -/
def ofJson (value : Json) : Except RuleError Tree :=
  let nesting := value.nestingUpTo (maxLevels + 1)
  if maxLevels < nesting then .error (.tooDeep nesting)
  else (decode value).mapError .json

/-- The tree that a JSON text stores. -/
def ofJsonText (text : String) : Except RuleError Tree :=
  match Json.parse text with
  | .error fault => .error (.json fault)
  | .ok value => ofJson value

end Tree

end Verdict
