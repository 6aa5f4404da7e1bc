import SchemaOptions.Yaml.Style

/-!
# Writing a document

A document of mappings and scalars, each entry on a line of its own and each mapping within another
two columns further in. A key that is short and fits on a line stands before its value; any other
key has a mark of its own, and so has its value, on the next line.
-/

namespace SchemaOptions.Yaml

/-- What a document holds. -/
inductive Content where
  /-- A word that stands for itself: a number or a truth value. -/
  | word (s : String)
  | text (s : String)
  | mapping (entries : List (String × Content))

/-- How many columns a mapping is indented more than the one around it. -/
def indentStep : Nat := 2

/-- The longest key, in bytes, that may stand before its value. -/
def maxInlineKey : Nat := 128

/-- Spaces. -/
def spaces (count : Nat) : List Char :=
  List.replicate count ' '

/-! ## Scalars -/

/-- The text on lines that are indented by some columns. The first argument tells whether a line
starts here; empty lines are not indented. -/
def indentLines (indent : Nat) : Bool → List Char → List Char
  | _, [] => []
  | atStart, c :: cs =>
    if isLineEnd c then c :: indentLines indent true cs
    else (if atStart then spaces indent else []) ++ c :: indentLines indent false cs

/-- What stands between single quotes: every quote is doubled, and a line behind a break is
indented, even one without any text. -/
def singleQuotedBody (indent : Nat) : Bool → List Char → List Char
  | afterBreak, [] => if afterBreak then spaces indent else []
  | afterBreak, c :: cs =>
    if isLineEnd c then c :: singleQuotedBody indent true cs
    else
      (if afterBreak then spaces indent else []) ++
        (if c == '\x27' then [c, c] else [c]) ++ singleQuotedBody indent false cs

/-- A hexadecimal digit, in upper case. -/
def upperHexDigit (n : Nat) : Char :=
  if n < 10 then Char.ofNat ('0'.toNat + n) else Char.ofNat ('A'.toNat + (n - 10))

/-- A number in a given count of hexadecimal digits. -/
def upperHex : (digits : Nat) → Nat → List Char
  | 0, _ => []
  | digits + 1, n => upperHex digits (n / 16) ++ [upperHexDigit (n % 16)]

/-- The letter of an escape that has one. -/
def escapeLetter? (c : Char) : Option Char :=
  match c.toNat with
  | 0x00 => some '0'
  | 0x07 => some 'a'
  | 0x08 => some 'b'
  | 0x09 => some 't'
  | 0x0A => some 'n'
  | 0x0B => some 'v'
  | 0x0C => some 'f'
  | 0x0D => some 'r'
  | 0x1B => some 'e'
  | 0x22 => some '\x22'
  | 0x5C => some '\\'
  | 0x85 => some 'N'
  | 0x2028 => some 'L'
  | 0x2029 => some 'P'
  | _ => none

/-- A character between double quotes. -/
def doubleQuotedChar (c : Char) : List Char :=
  if isShown c && !isLineEnd c && c != '\x22' && c != '\\' then
    [c]
  else
    '\\' ::
      match escapeLetter? c with
      | some letter => [letter]
      | none =>
        let n := c.toNat
        if n ≤ 0xFF then 'x' :: upperHex 2 n
        else if n ≤ 0xFFFF then 'u' :: upperHex 4 n
        else 'U' :: upperHex 8 n

/-- The header of a literal block: the indentation if the first line could not show it, and what
becomes of the breaks at the end. -/
def blockHeader (cs : List Char) : List Char :=
  let indicator :=
    if cs.head?.any fun c => c == ' ' || isLineEnd c then indentStep.repr.toList else []
  let chomping :=
    match cs.reverse with
    | [] => ['-']
    | [c] => if isLineEnd c then ['+'] else ['-']
    | c :: d :: _ => if isLineEnd c then (if isLineEnd d then ['+'] else []) else ['-']
  indicator ++ chomping

/-- A text in a style, its further lines indented by some columns. -/
def writeScalar (indent : Nat) (style : ScalarStyle) (cs : List Char) : List Char :=
  match style with
  | .plain => cs
  | .singleQuoted => '\x27' :: singleQuotedBody indent false cs ++ ['\x27']
  | .literal | .folded => '|' :: blockHeader cs ++ '\n' :: indentLines indent true cs
  | .doubleQuoted => '\x22' :: cs.flatMap doubleQuotedChar ++ ['\x22']

/-- A text in the style that it needs. -/
def writeText (indent : Nat) (cs : List Char) : List Char :=
  writeScalar indent (ScalarStyle.ofText cs) cs

/-! ## Entries -/

/-- The line with a break at its end, unless it ends in one already. -/
def endLine (cs : List Char) : List Char :=
  if cs.getLast?.any isLineEnd then cs else cs ++ ['\n']

/-- Whether a key may stand before its value. -/
def isInlineKey (key : String) : Bool :=
  !key.toList.any isLineEnd && key.utf8ByteSize ≤ maxInlineKey

/-- A key in a mapping at a column, up to the colon behind it. -/
def writeKey (column : Nat) (key : String) : List Char :=
  let text := writeText (column + indentStep) key.toList
  if isInlineKey key then
    spaces column ++ text ++ [':']
  else
    endLine (spaces column ++ ['?', ' '] ++ text) ++ spaces column ++ [':']

mutual

/-- What stands behind the colon of an entry in a mapping at a column. -/
def Content.write (column : Nat) : Content → List Char
  | .word s => endLine (' ' :: s.toList)
  | .text s => endLine (' ' :: writeText (column + indentStep) s.toList)
  | .mapping entries => '\n' :: writeEntries (column + indentStep) entries

/-- The entries of a mapping at a column. -/
def writeEntries (column : Nat) : List (String × Content) → List Char
  | [] => []
  | (key, value) :: rest => writeKey column key ++ value.write column ++ writeEntries column rest

end

end SchemaOptions.Yaml
