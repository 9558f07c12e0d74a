import Discovery.Text.Hidden
import Discovery.Text.Blank

/-!
# Quoted texts

A text in double quotes on one line: the quote and the backslash stand behind a backslash, the
usual controls have their letters, and every other hidden character is written by its number.
-/

namespace Discovery.Text

def quotedChar (c : Char) : List Char :=
  if c = '\x00' then ['\\', '0']
  else if c = '\t' then ['\\', 't']
  else if c = '\r' then ['\\', 'r']
  else if c = '\n' then ['\\', 'n']
  else if c = '"' ∨ c = '\\' then ['\\', c]
  else if isHidden c then ['\\', 'u', '\x7b'] ++ Nat.toDigits 16 c.toNat ++ ['\x7d']
  else [c]

def quoted (s : String) : String :=
  String.ofList ('"' :: s.toList.flatMap quotedChar ++ ['"'])

def quotedList (l : List String) : String :=
  "[" ++ joinWith ", " (l.map quoted) ++ "]"

end Discovery.Text
