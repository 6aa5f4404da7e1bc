import SchemaOptions.Naming.FilePath
import SchemaOptions.Text.Blank
import SchemaOptions.Text.Quoted

/-!
# Import paths

An import path is a list of segments with slashes between them, none of which is empty or one of the
two dots. A path that is to open the import paths of a whole image (`prefixFault?`) may also hold no
white space, no control, no semicolon and no backslash, and the path of a file (`pathFault?`) no
backslash. Each check names the first fault it finds.
-/

namespace SchemaOptions

open SchemaOptions.Text

/-- What is wrong with the start of an import path. -/
inductive PrefixFault where
  | empty
  | invalidCharacter (c : Char)
  | outerSlash
  | badSegment
deriving DecidableEq

/-- What is wrong with the path of a file. -/
inductive PathFault where
  | empty
  | absolute
  | backslash
  | notNormalized
deriving DecidableEq

/-- Whether a segment names something: it is neither empty nor one of the two dots. -/
def isProperSegment (segment : List Char) : Bool :=
  segment != [] && segment != ['.'] && segment != ['.', '.']

/-- Whether a character may not stand in an import path. -/
def isForbidden (c : Char) : Bool :=
  isBlank c || isControl c || c == ';' || c == '\\'

/-- The first fault of a text as the start of import paths. -/
def prefixFault? (text : String) : Option PrefixFault :=
  if text = "" then
    some .empty
  else
    match text.toList.find? isForbidden with
    | some c => some (.invalidCharacter c)
    | none =>
      if text.toList.head? = some '/' ∨ text.toList.getLast? = some '/' then some .outerSlash
      else if (Naming.segments text).all isProperSegment then none
      else some .badSegment

/-- The first fault of a file's path. -/
def pathFault? (path : String) : Option PathFault :=
  if path = "" then some .empty
  else if path.toList.head? = some '/' then some .absolute
  else if path.toList.contains '\\' then some .backslash
  else if (Naming.segments path).all isProperSegment then none
  else some .notNormalized

/-- The wording of a fault. -/
def PrefixFault.reason : PrefixFault → String
  | .empty => "a non-empty import path prefix is required"
  | .invalidCharacter c => s!"contains invalid character {quotedChar c}"
  | .outerSlash => "must not start or end with '/'"
  | .badSegment => "contains an empty, '.' or '..' segment"

/-- The wording of a fault. -/
def PathFault.reason : PathFault → String
  | .empty => "empty file path"
  | .absolute => "file path must be relative"
  | .backslash => "file path must use '/' separators"
  | .notNormalized => "file path is not normalized"

end SchemaOptions
