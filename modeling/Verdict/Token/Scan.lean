import Verdict.Error
import Verdict.Token

/-!
# Cutting a text into tokens

`Token.scan` cuts a rule text at blanks, brackets, comparison signs and the whole words `AND`
and `OR`. Blanks vanish, the other delimiters are tokens themselves, and what stands between
delimiters is one operand. A word is whole when no ASCII letter, digit or underscore stands
directly before or after it.
-/

namespace Verdict

namespace Token

/-- Whether no word goes on at the head of a text. -/
def wordEnds : List Char → Bool
  | [] => true
  | c :: _ => !Text.isWordChar c

/-- Whether no word reaches up to a place, given the character before it. -/
def wordStarts : Option Char → Bool
  | none => true
  | some c => !Text.isWordChar c

/-- The number of characters of the delimiter at the head of a text, zero if there is none,
given the character before it. -/
def delimiterLength (before : Option Char) : List Char → Nat
  | '(' :: _ => 1
  | ')' :: _ => 1
  | '[' :: _ => 1
  | ']' :: _ => 1
  | '>' :: '=' :: _ => 2
  | '<' :: '=' :: _ => 2
  | '>' :: _ => 1
  | '<' :: _ => 1
  | '=' :: _ => 1
  | 'A' :: 'N' :: 'D' :: rest => if wordStarts before && wordEnds rest then 3 else 0
  | 'O' :: 'R' :: rest => if wordStarts before && wordEnds rest then 2 else 0
  | _ => 0

/-- The token texts found so far, in reverse, once the operand that was being read has ended;
its characters come in reverse, too. -/
def endOperand (pending : List Char) (out : List (List Char)) : List (List Char) :=
  if pending.isEmpty then out else pending.reverse :: out

/-- Cuts a text into the texts of its tokens. `before` is the character before the text, `owed`
the number of characters that still belong to a delimiter that has begun, `pending` what is being
read, in reverse, and `out` what was found, in reverse. -/
def cut (before : Option Char) (owed : Nat) (pending : List Char) (out : List (List Char)) :
    List Char → List (List Char)
  | [] => (endOperand pending out).reverse
  | c :: rest =>
    match owed with
    | 1 => cut (some c) 0 [] ((c :: pending).reverse :: out) rest
    | owed + 2 => cut (some c) (owed + 1) (c :: pending) out rest
    | 0 =>
      if Text.isBlank c then cut (some c) 0 [] (endOperand pending out) rest
      else
        match delimiterLength before (c :: rest) with
        | 0 => cut (some c) 0 (c :: pending) out rest
        | 1 => cut (some c) 0 [] ([c] :: endOperand pending out) rest
        | length + 2 => cut (some c) (length + 1) [c] (endOperand pending out) rest

/-- The tokens of a rule text; a text of blanks is refused. -/
def scan (text : String) : Except RuleError (List Token) :=
  if text.toList.all Text.isBlank then .error .blankText
  else .ok ((cut none 0 [] [] text.toList).map fun cs => ofText (String.ofList cs))

end Token

end Verdict
