import Verdict.Toml
import Verdict.Toml.Scalar

/-!
# Reading TOML documents

`Toml.read` gives the settings of a whole document, or nothing if the text is no TOML. A document
is read line by line: a line holds a header, a key with its value, or nothing but a comment. Only
strings of three quotes, lists and tables in braces go on over the end of a line.
-/

namespace Verdict

namespace Toml

/-! ## Blanks, comments and ends of lines -/

/-- A blank inside a line. -/
def isSpace (c : Char) : Bool :=
  c == ' ' || c == '\t'

/-- A character that may stand in a comment or a string: anything but a control other than the
tab. -/
def isVisible (c : Char) : Bool :=
  c == '\t' || (0x20 ≤ c.toNat && c.toNat != 0x7F)

/-- Passes over the end of a line at the head of a text. -/
def lineEnd? : List Char → Option (List Char)
  | '\n' :: rest => some rest
  | '\r' :: '\n' :: rest => some rest
  | _ => none

/-- Passes over blanks and a comment. -/
def skipComment (cs : List Char) : List Char :=
  match cs.dropWhile isSpace with
  | '#' :: rest => rest.dropWhile isVisible
  | rest => rest

/-- Passes over the rest of a line that holds nothing more. -/
def restOfLine? (cs : List Char) : Option (List Char) :=
  match skipComment cs with
  | [] => some []
  | rest => lineEnd? rest

/-- Passes over blanks, comments and ends of lines; `fuel` bounds the lines. -/
def skipLines : Nat → List Char → List Char
  | 0, cs => cs
  | fuel + 1, cs =>
    let rest := skipComment cs
    match lineEnd? rest with
    | some next => skipLines fuel next
    | none => rest

/-! ## Strings -/

/-- The character with a code in hexadecimal digits, if there is one. -/
def charOfHex? (digits : List Char) : Option Char := do
  let code ← Text.natOfHex? digits
  if code < 0xD800 || (0xDFFF < code && code < 0x110000) then some (Char.ofNat code) else none

/-- A character given by so many hexadecimal digits, and what follows them. -/
def hexEscape? (count : Nat) (cs : List Char) : Option (Char × List Char) :=
  if (cs.take count).length = count then
    (charOfHex? (cs.take count)).map fun c => (c, cs.drop count)
  else none

/-- The character of an escape after its backslash, and what follows it. -/
def escape? : List Char → Option (Char × List Char)
  | 'b' :: rest => some ('\x08', rest)
  | 't' :: rest => some ('\t', rest)
  | 'n' :: rest => some ('\n', rest)
  | 'f' :: rest => some ('\x0c', rest)
  | 'r' :: rest => some ('\r', rest)
  | 'e' :: rest => some ('\x1b', rest)
  | '"' :: rest => some ('"', rest)
  | '\\' :: rest => some ('\\', rest)
  | 'x' :: rest => hexEscape? 2 rest
  | 'u' :: rest => hexEscape? 4 rest
  | 'U' :: rest => hexEscape? 8 rest
  | _ => none

/-- Reads a string of one line after its opening quote; `out` is what was read, in reverse, and
`fuel` bounds the characters. Without `escapes`, a backslash stands for itself. -/
def readInLine (escapes : Bool) (quote : Char) :
    Nat → List Char → List Char → Option (String × List Char)
  | 0, _, _ => none
  | _ + 1, _, [] => none
  | fuel + 1, out, c :: rest =>
    if c == quote then some (String.ofList out.reverse, rest)
    else if escapes && c == '\\' then do
      let (escaped, rest') ← escape? rest
      readInLine escapes quote fuel (escaped :: out) rest'
    else if isVisible c then readInLine escapes quote fuel (c :: out) rest
    else none

/-- Passes over blanks and ends of lines; `fuel` bounds the lines. -/
def skipBreaks : Nat → List Char → List Char
  | 0, cs => cs
  | fuel + 1, cs =>
    let rest := cs.dropWhile isSpace
    match lineEnd? rest with
    | some next => skipBreaks fuel next
    | none => rest

/-- Reads a string of several lines after its opening quotes. Up to two quotes may stand before
the closing ones, a backslash at the end of a line joins it to the next text, and other ends of
lines are kept as they are written. -/
def readInLines (escapes : Bool) (quote : Char) :
    Nat → List Char → List Char → Option (String × List Char)
  | 0, _, _ => none
  | _ + 1, _, [] => none
  | fuel + 1, out, c :: rest =>
    if c == quote then
      let run := 1 + (rest.takeWhile (· == quote)).length
      if run < 3 then readInLines escapes quote fuel (c :: out) rest
      else if 5 < run then none
      else some (String.ofList (List.replicate (run - 3) quote ++ out).reverse, rest.drop (run - 1))
    else if escapes && c == '\\' then
      match escape? rest with
      | some (escaped, rest') => readInLines escapes quote fuel (escaped :: out) rest'
      | none =>
        match lineEnd? (rest.dropWhile isSpace) with
        | some next => readInLines escapes quote fuel out (skipBreaks next.length next)
        | none => none
    else
      match c, rest with
      | '\r', '\n' :: next => readInLines escapes quote fuel ('\n' :: '\r' :: out) next
      | _, _ =>
        if c == '\n' || isVisible c then readInLines escapes quote fuel (c :: out) rest else none

/-- Reads a string in quotes of either kind, if there is one. -/
def readString? (cs : List Char) : Option (String × List Char) :=
  let fuel := cs.length + 1
  match cs with
  | '"' :: '"' :: '"' :: rest => readInLines true '"' fuel [] ((lineEnd? rest).getD rest)
  | '\'' :: '\'' :: '\'' :: rest => readInLines false '\'' fuel [] ((lineEnd? rest).getD rest)
  | '"' :: rest => readInLine true '"' fuel [] rest
  | '\'' :: rest => readInLine false '\'' fuel [] rest
  | _ => none

/-! ## Keys -/

/-- A character of a key without quotes. -/
def isKeyChar (c : Char) : Bool :=
  c.isAlphanum || c == '_' || c == '-'

/-- Reads one name of a key. -/
def readName? (cs : List Char) : Option (String × List Char) :=
  match cs with
  | '"' :: rest => readInLine true '"' (cs.length + 1) [] rest
  | '\'' :: rest => readInLine false '\'' (cs.length + 1) [] rest
  | _ =>
    let name := cs.takeWhile isKeyChar
    if name.isEmpty then none else some (String.ofList name, cs.dropWhile isKeyChar)

/-- Reads a key of one name or of several with points between them; `fuel` bounds the names. -/
def readKey? : Nat → List Char → Option (List String × List Char)
  | 0, _ => none
  | fuel + 1, cs => do
    let (name, rest) ← readName? (cs.dropWhile isSpace)
    match rest.dropWhile isSpace with
    | '.' :: rest' =>
      let (names, rest'') ← readKey? fuel rest'
      some (name :: names, rest'')
    | rest' => some ([name], rest')

/-! ## Values -/

/-- A character of an unquoted word. -/
def isWordPart (c : Char) : Bool :=
  c.isAlphanum || c == '+' || c == '-' || c == '_' || c == '.' || c == ':'

/-- Reads an unquoted word. A date takes a time after one blank with it. -/
def readWord? (cs : List Char) : Option (Setting × List Char) :=
  let word := cs.takeWhile isWordPart
  let rest := cs.dropWhile isWordPart
  match date? word, rest with
  | some (_, []), ' ' :: c :: rest' =>
    if c.isDigit then
      let time := (c :: rest').takeWhile isWordPart
      (scalar? (word ++ ' ' :: time)).map (·, (c :: rest').dropWhile isWordPart)
    else (scalar? word).map (·, rest)
  | _, _ => (scalar? word).map (·, rest)

/-- The greatest number of lists and tables in braces that may stand in one another. -/
def maxNesting : Nat := 80

mutual

/-- Reads a value, with room for so many lists and tables in one another; `fuel` bounds the
work. -/
def readValue? : Nat → Nat → List Char → Option (Setting × List Char)
  | 0, _, _ => none
  | fuel + 1, room, cs =>
    match room, cs with
    | 0, '[' :: _ => none
    | 0, '\x7b' :: _ => none
    | room + 1, '[' :: rest =>
      (readItems? fuel room rest).map fun (items, rest') => (.list (.ofList items), rest')
    | room + 1, '\x7b' :: rest =>
      (readPairs? fuel room .nil rest).map fun (nodes, rest') => (.table nodes.entries, rest')
    | _, '"' :: _ => (readString? cs).map fun (content, rest) => (.text content, rest)
    | _, '\'' :: _ => (readString? cs).map fun (content, rest) => (.text content, rest)
    | _, _ => readWord? cs

/-- Reads the items of a list up to its closing bracket. -/
def readItems? : Nat → Nat → List Char → Option (List Setting × List Char)
  | 0, _, _ => none
  | fuel + 1, room, cs =>
    match skipLines cs.length cs with
    | ']' :: rest => some ([], rest)
    | rest => do
      let (item, rest') ← readValue? fuel room rest
      match skipLines rest'.length rest' with
      | ',' :: rest'' =>
        let (items, end') ← readItems? fuel room rest''
        some (item :: items, end')
      | ']' :: rest'' => some ([item], rest'')
      | _ => none

/-- Reads the pairs of a table up to its closing brace and adds them to those before. A line may
end anywhere between a key, its equals sign, its value and the comma. -/
def readPairs? : Nat → Nat → Nodes → List Char → Option (Nodes × List Char)
  | 0, _, _, _ => none
  | fuel + 1, room, nodes, cs =>
    match skipLines cs.length cs with
    | '\x7d' :: rest => some (nodes, rest)
    | rest => do
      let (key, afterKey) ← readKey? fuel rest
      match skipLines afterKey.length afterKey with
      | '=' :: rest' =>
        let (value, rest'') ← readValue? fuel room (skipLines rest'.length rest')
        let nodes' ← putValue key value nodes
        match skipLines rest''.length rest'' with
        | ',' :: end' => readPairs? fuel room nodes' end'
        | '\x7d' :: end' => some (nodes', end')
        | _ => none
      | _ => none

end

/-! ## Documents -/

/-- Reads the header of a table or of a list of tables after its first bracket. -/
def readHeader? (cs : List Char) : Option (Bool × List String × List Char) :=
  match cs with
  | '[' :: rest => do
    let (path, rest') ← readKey? (rest.length + 1) rest
    match rest' with
    | ']' :: ']' :: rest'' => some (true, path, rest'')
    | _ => none
  | _ => do
    let (path, rest') ← readKey? (cs.length + 1) cs
    match rest' with
    | ']' :: rest'' => some (false, path, rest'')
    | _ => none

/-- Reads line after line: `header` is the path of the last header and `document` what was read
so far. -/
def readLines? : Nat → List String → Nodes → List Char → Option Nodes
  | 0, _, _, _ => none
  | fuel + 1, header, document, cs =>
    match skipLines cs.length cs with
    | [] => some document
    | '[' :: rest => do
      let (list, path, rest') ← readHeader? rest
      let document' ← if list then pushTable path document else openTable path document
      readLines? fuel path document' (← restOfLine? rest')
    | rest => do
      let (key, afterKey) ← readKey? (rest.length + 1) rest
      match afterKey with
      | '=' :: rest' =>
        let fuel' := 2 * rest'.length + 2
        let (value, rest'') ← readValue? fuel' maxNesting (rest'.dropWhile isSpace)
        let document' ← putAt header key value document
        readLines? fuel header document' (← restOfLine? rest'')
      | _ => none

/-- The settings of a document; a mark of byte order may stand before it. -/
def read (text : String) : Option Setting.Entries :=
  let cs := match text.toList with
    | '\uFEFF' :: rest => rest
    | cs => cs
  (readLines? (cs.length + 1) [] .nil cs).map Nodes.entries

end Toml

end Verdict
