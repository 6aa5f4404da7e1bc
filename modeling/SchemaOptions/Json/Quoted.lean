/-!
# Texts in JSON

A text stands between double quotes. A quote and a backslash have a backslash before them; control
characters below the space are escaped, by a letter if there is one for them and by four hexadecimal
digits if not. All other characters stand for themselves.
-/

namespace SchemaOptions.Json

/-- The letter of an escape that has one. -/
def escapeLetter? (c : Char) : Option Char :=
  match c.toNat with
  | 0x08 => some 'b'
  | 0x09 => some 't'
  | 0x0A => some 'n'
  | 0x0C => some 'f'
  | 0x0D => some 'r'
  | 0x22 => some '\x22'
  | 0x5C => some '\\'
  | _ => none

/-- A character as it stands in a text. -/
def escape (c : Char) : List Char :=
  match escapeLetter? c with
  | some letter => ['\\', letter]
  | none =>
    if c.toNat < 0x20 then
      ['\\', 'u', '0', '0', Nat.digitChar (c.toNat / 16), Nat.digitChar (c.toNat % 16)]
    else [c]

/-- A text between quotes. -/
def quoted (s : String) : List Char :=
  '\x22' :: s.toList.flatMap escape ++ ['\x22']

end SchemaOptions.Json
