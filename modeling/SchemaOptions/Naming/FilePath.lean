/-!
# File paths

The path of a schema file is a list of segments with slashes between them. The last segment is the
file's own name and the others its directory. The stem is the file's own name without the ending
that schema files carry.
-/

namespace SchemaOptions.Naming

/-- The segments of a path, in order. There is always at least one. -/
def segments (path : String) : List (List Char) :=
  path.toList.splitOn '/'

/-- The ending of a schema file's name. -/
def schemaEnding : List Char :=
  ".proto".toList

/-- A file's own name without one schema ending. -/
def fileStem (path : String) : String :=
  let name := (segments path).getLast?.getD []
  String.ofList <|
    if schemaEnding.isSuffixOf name then name.take (name.length - schemaEnding.length) else name

/-- The directory of a path; nothing for a file at the root. -/
def directory? (path : String) : Option String :=
  match (segments path).dropLast with
  | [] => none
  | dirs => some (String.ofList (['/'].intercalate dirs))

end SchemaOptions.Naming
