import SchemaOptions.Text.Visible

/-!
# Quoted text in messages

A message that names a piece of text writes it between quotes, with every character that would
mislead a reader replaced by an escape: the usual letters for NUL, tab, line feed and carriage
return, a backslash before a backslash and before the quote itself, and the code point in braces
for any other character that is not visible.
-/

namespace SchemaOptions.Text

/-- The digits of a number in base sixteen, without leading zeros, in lower case. -/
def hexDigits (n : Nat) : List Char :=
  Nat.toDigits 16 n

/-- A character as it stands between two quote marks. -/
def escape (mark c : Char) : List Char :=
  if c = '\x00' then ['\\', '0']
  else if c = '\t' then ['\\', 't']
  else if c = '\n' then ['\\', 'n']
  else if c = '\r' then ['\\', 'r']
  else if c = '\\' then ['\\', '\\']
  else if c = mark then ['\\', mark]
  else if isVisible c then [c]
  else ['\\', 'u', '\x7b'] ++ hexDigits c.toNat ++ ['\x7d']

/-- Text between double quotes. -/
def quoted (s : String) : String :=
  String.ofList ('\x22' :: s.toList.flatMap (escape '\x22') ++ ['\x22'])

/-- A character between single quotes. -/
def quotedChar (c : Char) : String :=
  String.ofList ('\x27' :: escape '\x27' c ++ ['\x27'])

end SchemaOptions.Text
