import Brainfuck.Text.Escaped

/-!
# Quoted text

A text in double quotes.  Quotes and backslashes are preceded by a backslash, the
usual control characters have their letters, and characters that would not be seen
are written by number.
-/

namespace Brainfuck.Text

/-- The escape of a character; a character that needs none stands for itself. -/
def escape (c : Char) : List Char :=
  if c = '"' then ['\\', '"']
  else if c = '\\' then ['\\', '\\']
  else if c = '\n' then ['\\', 'n']
  else if c = '\r' then ['\\', 'r']
  else if c = '\t' then ['\\', 't']
  else if c.toNat = 0 then ['\\', '0']
  else if escaped.contains c then "\\u\x7b".toList ++ Nat.toDigits 16 c.toNat ++ ['\x7d']
  else [c]

/-- A text in double quotes. -/
def quoted (s : String) : String :=
  String.ofList ('"' :: s.toList.flatMap escape ++ ['"'])

end Brainfuck.Text
