import Verdict.Text.Digits
import Verdict.Text.Hidden

/-!
# Quoted texts

`quoted` writes a text between double quotes so that it stays on one line and shows every
character: quotes and backslashes get a backslash, the common controls their letter, and other
hidden characters their code point in hexadecimal.
-/

namespace Verdict.Text

/-- One character of a quoted text. -/
def quotedChar (c : Char) : List Char :=
  if c == '"' then ['\\', '"']
  else if c == '\\' then ['\\', '\\']
  else if c == '\n' then ['\\', 'n']
  else if c == '\r' then ['\\', 'r']
  else if c == '\t' then ['\\', 't']
  else if c.toNat == 0 then ['\\', '0']
  else if isHidden c then ['\\', 'u', '\x7b'] ++ hexDigits c.toNat ++ ['\x7d']
  else [c]

/-- A text in double quotes, on one line. -/
def quoted (text : String) : String :=
  String.ofList ('"' :: text.toList.flatMap quotedChar ++ ['"'])

end Verdict.Text
