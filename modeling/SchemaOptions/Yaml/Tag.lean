/-!
# Tags

A tag says of what kind a node is. It is a string of bytes: escapes in it spell bytes, and these
need not be the encoding of a text. A zero byte ends it, and what stands behind that is lost
(`Tag.cut`).

The kinds of the language itself share a beginning. A tag that opens with an exclamation mark is
local: what follows is a name, whose meaning is up to the reader.
-/

namespace SchemaOptions.Yaml

/-- The bytes of a tag. -/
abbrev Tag := List UInt8

namespace Tag

/-- The tag that a text is. -/
def ofText (s : String) : Tag :=
  s.toUTF8.data.toList

/-- The mark that opens a local tag. -/
def localMark : UInt8 := 0x21

/-- A lone exclamation mark. -/
def bare : Tag := [localMark]

/-- The beginning of the tags of the language itself. -/
def core : Tag := ofText "tag:yaml.org,2002:"

/-- The tag of null. -/
def null : Tag := core ++ ofText "null"

/-- The tag of truth values. -/
def bool : Tag := core ++ ofText "bool"

/-- The tag of whole numbers. -/
def int : Tag := core ++ ofText "int"

/-- A tag up to its first zero byte. -/
def cut (tag : Tag) : Tag :=
  tag.takeWhile (· != 0)

/-- The name in a local tag; a lone mark is a name of its own. Bytes that are not the encoding of a
text are no name. -/
def localName? : Tag → Option String
  | [] => none
  | mark :: name =>
    if mark = localMark then
      String.fromUTF8? (if name.isEmpty then [mark] else name).toByteArray
    else
      none

end Tag

end SchemaOptions.Yaml
