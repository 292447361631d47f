import Verdict.Json.Numeral
import Verdict.Text.Quoted

/-!
# Faults of JSON texts and values

`Fault` says why a JSON text or value could not be taken: the text ended too early, it is
malformed, or its data are not of the expected form. `Complaint` lists the ways in which data
can miss their form and `Complaint.message` words them.
-/

namespace Verdict

namespace Json

/-- What was found where something else was expected. -/
inductive Shape where
  | bool (value : Bool)
  | integer (value : Int)
  | float (value : Number)
  | string (text : String)
  | null
  | sequence
  | map
deriving DecidableEq, Repr, Inhabited

/-- The shape as a complaint names it. -/
def Shape.text : Shape → String
  | .bool true => "boolean `true`"
  | .bool false => "boolean `false`"
  | .integer value => "integer `" ++ Text.decimalInt value ++ "`"
  | .float value => "floating point `" ++ String.ofList (floatText value) ++ "`"
  | .string text => "string " ++ Text.quoted text
  | .null => "null"
  | .sequence => "sequence"
  | .map => "map"

/-- The shape of a number. -/
def Num.shape : Num → Shape
  | .int value => .integer value
  | .float value => .float value

/-- The shape of a value. -/
def shape : Json → Shape
  | .null => .null
  | .bool value => .bool value
  | .number value => value.shape
  | .string text => .string text
  | .array _ => .sequence
  | .object _ => .map

/-- What a place in the data has to hold. -/
inductive Expectation where
  | node
  | rule
  | object
  | string
  | tag
  | nothing
  | tagName
  | timestamp
deriving DecidableEq, Repr, Inhabited

/-- The expectation as a complaint names it. -/
def Expectation.text : Expectation → String
  | .node => "struct AstJson"
  | .rule => "struct Rule"
  | .object => "a map"
  | .string => "a string"
  | .tag => "string or map"
  | .nothing => "unit"
  | .tagName => "variant identifier"
  | .timestamp => "an RFC 3339 formatted date and time string"

/-- Why the text of a timestamp could not be taken. -/
inductive TimestampFault where
  | premature
  | invalid
  | outOfRange
  | trailing
  | impossible
deriving DecidableEq, Repr, Inhabited

/-- The wording of a timestamp's fault. -/
def TimestampFault.message : TimestampFault → String
  | .premature => "premature end of input"
  | .invalid => "input contains invalid characters"
  | .outOfRange => "input is out of range"
  | .trailing => "trailing input"
  | .impossible => "no possible date and time matching input"

/-- The ways in which well-formed data can miss the expected form. -/
inductive Complaint where
  | wrongShape (found : Shape) (expected : Expectation)
  | notOneKey
  | unknownTag (name : String)
  | missing (field : String)
  | repeated (field : String)
  | tooShort (length : Nat) (expected : Expectation) (elements : Nat)
  | tooLong (length : Nat)
  | noScalar
  | timestamp (fault : TimestampFault)
deriving DecidableEq, Repr, Inhabited

/-- The wording of a complaint. -/
def Complaint.message : Complaint → String
  | .wrongShape found expected => "invalid type: " ++ found.text ++ ", expected " ++ expected.text
  | .notOneKey => "invalid value: map, expected map with a single key"
  | .unknownTag name => "unknown variant `" ++ name ++ "`, expected `operator` or `operand`"
  | .missing field => "missing field `" ++ field ++ "`"
  | .repeated field => "duplicate field `" ++ field ++ "`"
  | .tooShort length expected elements =>
    "invalid length " ++ Text.decimal length ++ ", expected " ++ expected.text ++ " with " ++
      Text.decimal elements ++ " elements"
  | .tooLong length =>
    "invalid length " ++ Text.decimal length ++ ", expected fewer elements in array"
  | .noScalar => "data did not match any variant of untagged enum Value"
  | .timestamp fault => fault.message

/-- Why a JSON text or value could not be taken. -/
inductive Fault where
  | cut
  | malformed
  | data (complaint : Complaint)
deriving DecidableEq, Repr, Inhabited

/-- The wording of a fault. -/
def Fault.message : Fault → String
  | .cut => "<eof>"
  | .malformed => "<syntax>"
  | .data complaint => complaint.message

end Json

end Verdict
