/-!
# Text/Quoted — text between double quotes

A quoted text names its control characters: the quote, the backslash, newline, return, tab and
nul by one letter after a backslash, every other control character by its number in hexadecimal.
All else stands for itself, the apostrophe included.
-/

namespace PubSub.Text

/-- Whether a character is a control character: below the blank, or from 7f to 9f. -/
def isControl (c : Char) : Bool :=
  c.toNat < 0x20 || (0x7f ≤ c.toNat && c.toNat < 0xa0)

/-- What stands for a character between the quotes. -/
def escape (c : Char) : List Char :=
  if c = '\"' then ['\\', '\"']
  else if c = '\\' then ['\\', '\\']
  else if c = '\n' then ['\\', 'n']
  else if c = '\r' then ['\\', 'r']
  else if c = '\t' then ['\\', 't']
  else if c.toNat = 0 then ['\\', '0']
  else if isControl c then ['\\', 'u', '\x7b'] ++ Nat.toDigits 16 c.toNat ++ ['\x7d']
  else [c]

/-- The text in double quotes, its control characters named. -/
def quoted (s : String) : String :=
  String.ofList ('\"' :: (s.toList.flatMap escape ++ ['\"']))

end PubSub.Text
