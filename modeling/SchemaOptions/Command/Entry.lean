/-!
# What stands at a path

A path names a file, a directory, or nothing. The difference between the last two shows: a directory
can be opened like a file, and only reading it fails.
-/

namespace SchemaOptions

/-- What stands at a path. -/
inductive Entry where
  | file (content : List UInt8)
  | directory
  | missing
deriving DecidableEq

/-- The bytes that can be read from an entry. -/
def Entry.bytes? : Entry → Option (List UInt8)
  | .file content => some content
  | _ => none

end SchemaOptions
