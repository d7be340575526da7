import GridRobot.Text.Printable
import GridRobot.Text.Blank

/-!
# Quoted text in messages

A message that repeats what was given shows it in quotes. Quotes and backslashes inside are escaped, and
so is every character that is not printable.
-/

namespace GridRobot

namespace Text

def escapeShown (c : Char) : Text :=
  if c = '\x00' then ['\\', '0']
  else if c = '\t' then ['\\', 't']
  else if c = '\r' then ['\\', 'r']
  else if c = '\n' then ['\\', 'n']
  else if c = '"' then ['\\', '"']
  else if c = '\\' then ['\\', '\\']
  else if isPrintable c then [c]
  else ['\\', 'u', '\x7b'] ++ Nat.toDigits 16 c.toNat ++ ['\x7d']

def quoted (t : Text) : Text := '"' :: t.flatMap escapeShown ++ ['"']

end Text

end GridRobot
