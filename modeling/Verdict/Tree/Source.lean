import Verdict.Tree.Json

/-!
# Trees in JSON texts

`Tree.ofSource` decodes a node while its text is read from left to right, so that the first fault
of the text or of the data is the one reported. Unlike a finished value, a text may repeat a key,
and a key that names a part of the node must not be repeated.
-/

namespace Verdict

namespace Tree

open Json (Source Fault)

/-- Checks that the place after the only member of an object is its end. -/
def endOfTag : Source.Members → Except Fault Unit
  | .nil => .ok ()
  | .fault found => .error found.fault
  | _ => .error .malformed

/-- Decodes the value of the only member of an object that names a kind. -/
def decodeNothing : Source → Except Fault Unit
  | .null => .ok ()
  | other => .error (other.unexpected .nothing)

/-- The kind of a node from its text: a string, or an object whose only key names the kind. -/
def Kind.ofSource (room : Nat) : Source → Except Fault Kind
  | .string (some name) => Kind.ofName name
  | .object members =>
    match room, members with
    | 0, _ => .error .malformed
    | _ + 1, .nil => .error .malformed
    | _ + 1, .fault found => .error found.fault
    | _ + 1, .stray value => .error (value.unexpected .tagName)
    | _ + 1, .brokenKey decoding _ => .error decoding.fault
    | _ + 1, .cons none _ _ => .error .malformed
    | _ + 1, .cons (some name) value rest => do
      let kind ← Kind.ofName name
      decodeNothing value
      endOfTag rest
      .ok kind
  | .broken .plain _ _ => .error .malformed
  | .broken _ decoding _ => .error decoding.fault
  | _ => .error .malformed

mutual

/-- The tree that a text stores, with room for so many arrays and objects in one another; `null`
is the absent tree where a tree may be absent. -/
def ofSource (room : Nat) (optional : Bool) : Source → Except Fault Tree
  | .null => if optional then .ok .absent else .error (Source.null.unexpected .node)
  | .object members =>
    match room with
    | 0 => .error .malformed
    | room + 1 =>
      match readMembers room .none members with
      | .error e => .error e
      | .ok parts => parts.finish
  | .array items =>
    match room with
    | 0 => .error .malformed
    | room + 1 =>
      match readItems room 0 .none items with
      | .error e => .error e
      | .ok parts => parts.finish
  | other => .error (other.unexpected .node)

/-- The parts that items of a text store from a place on. -/
def readItems (room place : Nat) (parts : Parts) : Source.Items → Except Fault Parts
  | .nil => if place < 2 then .error (.data (.tooShort place .node 4)) else .ok parts
  | .fault found => .error found.fault
  | .cons item rest =>
    match place with
    | 0 =>
      match Kind.ofSource room item with
      | .error e => .error e
      | .ok kind => readItems room 1 { parts with kind := some kind } rest
    | 1 =>
      match item.toText with
      | .error e => .error e
      | .ok value => readItems room 2 { parts with value := some value } rest
    | 2 =>
      match ofSource room true item with
      | .error e => .error e
      | .ok left => readItems room 3 { parts with left := some left } rest
    | 3 =>
      match ofSource room true item with
      | .error e => .error e
      | .ok right => readItems room 4 { parts with right := some right } rest
    | _ => .error .malformed

/-- The parts that members of a text store, added to those already decoded. -/
def readMembers (room : Nat) (parts : Parts) : Source.Members → Except Fault Parts
  | .nil => .ok parts
  | .fault found => .error found.fault
  | .stray _ => .error .malformed
  | .brokenKey decoding _ => .error decoding.fault
  | .cons none _ _ => .error .malformed
  | .cons (some key) value rest =>
    if key = "left" then
      match Source.once key parts.left with
      | .error e => .error e
      | .ok () =>
        match ofSource room true value with
        | .error e => .error e
        | .ok left => readMembers room { parts with left := some left } rest
    else if key = "right" then
      match Source.once key parts.right with
      | .error e => .error e
      | .ok () =>
        match ofSource room true value with
        | .error e => .error e
        | .ok right => readMembers room { parts with right := some right } rest
    else if key = "type" then
      match Source.once key parts.kind with
      | .error e => .error e
      | .ok () =>
        match Kind.ofSource room value with
        | .error e => .error e
        | .ok kind => readMembers room { parts with kind := some kind } rest
    else if key = "value" then
      match Source.once key parts.value with
      | .error e => .error e
      | .ok () =>
        match value.toText with
        | .error e => .error e
        | .ok text => readMembers room { parts with value := some text } rest
    else
      match value.skip with
      | .error e => .error e
      | .ok () => readMembers room parts rest

end

end Tree

end Verdict
