import Verdict.Json.Reader
import Verdict.Record

/-!
# Records as JSON

A record is stored as an object whose values are truth values, numbers and texts.
`Record.ofJson` decodes a value, and `Record.ofJsonText` decodes a text from left to right: every
member must hold a scalar, and of several members with one key the last one stays. Numbers that
are not finite are stored as `null`, which is no scalar.
-/

namespace Verdict

/-- The scalar that a value stores. -/
def Value.ofJson? : Json → Option Value
  | .bool b => some (.bool b)
  | .number n => some (.number n.toNumber)
  | .string s => some (.string s)
  | _ => none

/-- The stored form of a value. -/
def Value.toJson : Value → Json
  | .bool b => .bool b
  | .number n => if n.isFinite then .number (.float n) else .null
  | .string s => .string s

namespace Record

/-- The members that store fields, in the order of the fields. -/
def membersOf : List Field → Json.Members
  | [] => .nil
  | field :: rest => .cons field.1 field.2.toJson (membersOf rest)

/-- The stored form of a record. -/
def toJson (record : Record) : Json :=
  .object (membersOf record.fields)

/-- Sets the fields that members store. -/
def decodeMembers (record : Record) : Json.Members → Except Json.Fault Record
  | .nil => .ok record
  | .cons name value rest =>
    match Value.ofJson? value with
    | none => .error (.data .noScalar)
    | some scalar => decodeMembers (record.insert name scalar) rest

/-- The record that a value stores. -/
def ofJson : Json → Except Json.Fault Record
  | .object members => decodeMembers empty members
  | other => .error (.data (.wrongShape other.shape .object))

/-- Sets the fields that members of a text store, in the order of the text. -/
def decodeWritten (room : Nat) (record : Record) : Json.Source.Members → Except Json.Fault Record
  | .nil => .ok record
  | .fault found => .error found.fault
  | .stray _ => .error .malformed
  | .brokenKey decoding _ => .error decoding.fault
  | .cons none _ _ => .error .malformed
  | .cons (some name) value rest =>
    match value.toJson room with
    | .error e => .error e
    | .ok json =>
      match Value.ofJson? json with
      | none => .error (.data .noScalar)
      | some scalar => decodeWritten room (record.insert name scalar) rest

/-- The record that a JSON value stores in a text, with room for so much nesting. -/
def ofSource (room : Nat) : Json.Source → Except Json.Fault Record
  | .object members =>
    match room with
    | 0 => .error .malformed
    | room + 1 => decodeWritten room empty members
  | other => .error (other.unexpected .object)

/-- The record that a JSON text stores. -/
def ofJsonText (text : String) : Except Json.Fault Record :=
  Json.Source.decodeWhole (ofSource Json.Source.maxNesting) text

end Record

end Verdict
