import Verdict.Json.Numeral

/-!
# Writing JSON texts

`Json.compact` writes a value without white space, and `Json.pretty` with a line for every item
and member, indented by two spaces for each level. Both write the same parts; only the `Layout`
between them differs.
-/

namespace Verdict

namespace Json

/-- The white space between the parts of a text: what stands before an item at a depth, and
after a colon. -/
structure Layout where
  newline : Nat → List Char
  afterColon : List Char

/-- No white space at all. -/
def Layout.compact : Layout := ⟨fun _ => [], []⟩

/-- A line for every item, two spaces of indentation for each level. -/
def Layout.pretty : Layout := ⟨fun depth => '\n' :: List.replicate (2 * depth) ' ', [' ']⟩

/-- A character inside a string: quotes, backslashes and controls are escaped. -/
def escapedChar (c : Char) : List Char :=
  if c == '"' then ['\\', '"']
  else if c == '\\' then ['\\', '\\']
  else if c == '\x08' then ['\\', 'b']
  else if c == '\x0c' then ['\\', 'f']
  else if c == '\n' then ['\\', 'n']
  else if c == '\r' then ['\\', 'r']
  else if c == '\t' then ['\\', 't']
  else if c.toNat < 0x20 then ['\\', 'u'] ++ Text.hexDigitsFixed 4 c.toNat
  else [c]

/-- The escaped characters of a text, in front of what follows. -/
def escapeOnto (text rest : List Char) : List Char :=
  text.foldr (fun c out => escapedChar c ++ out) rest

/-- A text as a string in quotes, in front of what follows. -/
def quoteOnto (text : String) (rest : List Char) : List Char :=
  '"' :: escapeOnto text.toList ('"' :: rest)

/-- The comma between an item and the one before it. -/
def separator (first : Bool) : List Char :=
  if first then [] else [',']

mutual

/-- The characters of a value that stands at a depth, in front of what follows. -/
def render (layout : Layout) (depth : Nat) : Json → List Char → List Char
  | .null, rest => 'n' :: 'u' :: 'l' :: 'l' :: rest
  | .bool true, rest => 't' :: 'r' :: 'u' :: 'e' :: rest
  | .bool false, rest => 'f' :: 'a' :: 'l' :: 's' :: 'e' :: rest
  | .number value, rest => value.text ++ rest
  | .string text, rest => quoteOnto text rest
  | .array .nil, rest => '[' :: ']' :: rest
  | .array items, rest => '[' :: items.render layout depth true rest
  | .object .nil, rest => '\x7b' :: '\x7d' :: rest
  | .object members, rest => '\x7b' :: members.render layout depth true rest

/-- The characters of items and of the bracket that closes them, in front of what follows;
`first` tells that no item stands before them. -/
def Items.render (layout : Layout) (depth : Nat) (first : Bool) :
    Items → List Char → List Char
  | .nil, rest => layout.newline depth ++ ']' :: rest
  | .cons item more, rest =>
    separator first ++ layout.newline (depth + 1) ++
      item.render layout (depth + 1) (more.render layout depth false rest)

/-- The characters of members and of the brace that closes them, in front of what follows;
`first` tells that no member stands before them. -/
def Members.render (layout : Layout) (depth : Nat) (first : Bool) :
    Members → List Char → List Char
  | .nil, rest => layout.newline depth ++ '\x7d' :: rest
  | .cons key value more, rest =>
    separator first ++ layout.newline (depth + 1) ++
      quoteOnto key (':' :: layout.afterColon ++
        value.render layout (depth + 1) (more.render layout depth false rest))

end

/-- A value as a text without white space. -/
def compact (value : Json) : String :=
  String.ofList (value.render .compact 0 [])

/-- A value as a text with a line for every item. -/
def pretty (value : Json) : String :=
  String.ofList (value.render .pretty 0 [])

end Json

end Verdict
