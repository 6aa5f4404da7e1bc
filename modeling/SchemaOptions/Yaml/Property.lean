import SchemaOptions.Yaml.Cursor
import SchemaOptions.Yaml.Scalar.Quoted
import SchemaOptions.Yaml.Token

/-!
# Names, tags and directives

The parts of a text that say something about a node or about the document: names of anchors, tags,
and the lines that open with a percent sign.
-/

namespace SchemaOptions.Yaml

/-- Whether a name may end before these characters. -/
def endsName (cs : List Char) : Bool :=
  endsWord cs || cs.head?.any (['?', ':', ',', ']', '\x7d', '%', '@', '\x60'].contains ·)

/-- The name of an anchor. -/
def readName? (cursor : Cursor) : Option (List Char × Cursor) :=
  let (name, stop) := cursor.span isNamePart
  if !name.isEmpty && endsName stop.rest then some (name, stop) else none

/-! ## Tags -/

/-- Whether a character may stand in a tag outside angle brackets. -/
def isTagPart (c : Char) : Bool :=
  isNamePart c ||
    [';', '/', '?', ':', '@', '&', '=', '+', '$', '.', '!', '~', '*', '\x27', '(', ')'].contains c

/-- Whether a character may stand in a tag within angle brackets, or in the beginning that a
directive gives. -/
def isAddressPart (c : Char) : Bool :=
  isTagPart c || c == ',' || c == '[' || c == ']'

/-- How many bytes must follow the first byte of a character; nothing if none starts with it. -/
def followers? (byte : UInt8) : Option Nat :=
  if byte < 0x80 then some 0
  else if byte < 0xC0 then none
  else if byte < 0xE0 then some 1
  else if byte < 0xF0 then some 2
  else if byte < 0xF8 then some 3
  else none

/-- How many bytes are due behind a byte, if so many were due before it. Only the form of the bytes
is checked: whether they stand for a character, and in the shortest way, does not matter. -/
def dueAfter? (due : Nat) (byte : UInt8) : Option Nat :=
  match due with
  | 0 => followers? byte
  | due + 1 => if 0x80 ≤ byte && byte < 0xC0 then some due else none

/-- The bytes that characters of a class spell, which are all ASCII, as far as they go. A percent
sign spells a byte by two hexadecimal digits, and all bytes of one character have to be spelled like
that; the first argument says how many of them are due. -/
def readTagBytes? (due : Nat) (isPart : Char → Bool) : List Char → Option (Tag × List Char)
  | [] => if due = 0 then some ([], []) else none
  | '%' :: a :: b :: rest => do
    let high ← Text.digitOf? 16 a
    let low ← Text.digitOf? 16 b
    let byte := (16 * high + low).toUInt8
    let (bytes, stop) ← readTagBytes? (← dueAfter? due byte) isPart rest
    return (byte :: bytes, stop)
  | '%' :: _ => none
  | c :: rest =>
    if due ≠ 0 then
      none
    else if isPart c then do
      let (bytes, stop) ← readTagBytes? 0 isPart rest
      return (c.toNat.toUInt8 :: bytes, stop)
    else
      some ([], c :: rest)

/-- The cursor at a later place of the same line. -/
def Cursor.moveTo (cursor : Cursor) (rest : List Char) : Cursor :=
  cursor.skip (cursor.rest.length - rest.length)

/-- The handle of a tag: an exclamation mark, a name, and another mark if there is one. -/
def readHandle? (cursor : Cursor) : Option (List Char × Cursor) :=
  if cursor.rest.head? = some '!' then
    let (name, stop) := (cursor.skip 1).span isNamePart
    if stop.rest.head? = some '!' then some ('!' :: name ++ ['!'], stop.skip 1)
    else some ('!' :: name, stop)
  else
    none

/-- A tag. -/
def readTag? (inFlow : Bool) (cursor : Cursor) : Option (TagName × Cursor) := do
  let (name, stop) ←
    if cursor.rest[1]? = some '<' then do
      let (bytes, rest) ← readTagBytes? 0 isAddressPart (cursor.skip 2).rest
      if bytes.isEmpty || rest.head? != some '>' then
        none
      else
        some (TagName.mk [] bytes.cut, cursor.moveTo (rest.drop 1))
    else do
      let (handle, after) ← readHandle? cursor
      let (bytes, rest) ← readTagBytes? 0 isTagPart after.rest
      if 2 ≤ handle.length && handle.getLast? == some '!' then
        if bytes.isEmpty then none else some (TagName.mk handle bytes.cut, cursor.moveTo rest)
      else
        let suffix := Tag.ofText (String.ofList (handle.drop 1)) ++ bytes.cut
        some (if suffix.isEmpty then TagName.mk [] Tag.bare else TagName.mk ['!'] suffix,
          cursor.moveTo rest)
  if endsWord stop.rest || (inFlow && stop.rest.head? == some ',') then some (name, stop) else none

/-! ## Directives -/

/-- The longest number in a version. -/
def maxVersionDigits : Nat := 9

/-- A number of a version. -/
def readVersionNumber? (cursor : Cursor) : Option (Nat × Cursor) :=
  let (digits, stop) := cursor.span Char.isDigit
  if digits.isEmpty || maxVersionDigits < digits.length then none
  else some (digits.foldl (fun n d => 10 * n + (d.toNat - '0'.toNat)) 0, stop)

/-- A directive, behind its percent sign, up to the end of its line. -/
def readDirective? (cursor : Cursor) : Option (Token × Cursor) := do
  let (name, cursor) := cursor.span isNamePart
  if !endsWord cursor.rest then
    none
  else
    let cursor := cursor.skipSpaces
    let (token, cursor) ←
      if name = ['Y', 'A', 'M', 'L'] then do
        let (major, cursor) ← readVersionNumber? cursor
        if cursor.rest.head? = some '.' then do
          let (minor, cursor) ← readVersionNumber? (cursor.skip 1)
          some (Token.versionDirective major minor, cursor)
        else
          none
      else if name = ['T', 'A', 'G'] then do
        let (handle, after) ← readHandle? cursor
        if handle != ['!'] && handle.getLast? != some '!' then
          none
        else if after.rest.head?.any isSpace then do
          let after := after.skipSpaces
          let (beginning, rest) ← readTagBytes? 0 isAddressPart after.rest
          if beginning.isEmpty || !endsWord rest then none
          else some (Token.tagDirective handle beginning.cut, after.moveTo rest)
        else
          none
      else
        none
    let stop ← cursor.finishLine?
    return (token, stop)

end SchemaOptions.Yaml
