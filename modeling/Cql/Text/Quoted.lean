import Cql.Text.Unpictured

/-!
# Text quoted for a message

A text that a message quotes stands between double quotes.  A double quote and a backslash inside
are escaped, so are tab, line feed, carriage return and the null character; whatever else has no
picture of its own is shown by its number in curly braces; all other characters stand for
themselves.
-/

namespace Cql.Text

/-- a character by its hexadecimal number -/
def byNumber (c : Char) : List Char :=
  '\x5c' :: 'u' :: '\x7b' :: Nat.toDigits 16 c.toNat ++ ['\x7d']

def escaped (c : Char) : List Char :=
  if c = '\x00' then ['\x5c', '0']
  else if c = '\t' then ['\x5c', 't']
  else if c = '\r' then ['\x5c', 'r']
  else if c = '\n' then ['\x5c', 'n']
  else if c = '\x22' ∨ c = '\x5c' then ['\x5c', c]
  else if unpictured c then byNumber c
  else [c]

def quoted (s : String) : String := String.ofList ('\x22' :: s.toList.flatMap escaped ++ ['\x22'])

end Cql.Text
