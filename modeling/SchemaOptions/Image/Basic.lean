import SchemaOptions.File.Basic

/-!
# Images

An image is a set of schema files that is complete: every file has a path of its own, and whatever a
file imports is a member. Files keep the order in which they came, and an import may stand before or
after the file that needs it. `Image.ofFiles` checks a list of files and reports the first fault:
going through the list, a missing or repeated path; if there is none, the first import that is not
a member.
-/

namespace SchemaOptions

/-- A list of schema files. -/
structure Image where
  files : List File

/-- Why something is not an image. -/
inductive ImageError where
  /-- The bytes are not a set of schema files. -/
  | malformed
  /-- The file at an index has no path. -/
  | emptyPath (index : Nat)
  /-- A path occurs twice. -/
  | duplicateFile (path : String)
  /-- A file imports a path that is not in the image. -/
  | missingImport (file path : String)
deriving DecidableEq

namespace Image

/-- The first file, counting from `index`, that has no path or the path of an earlier one. -/
def pathFault? (seen : List String) (index : Nat) : List File → Option ImageError
  | [] => none
  | file :: rest =>
    if file.path = "" then some (.emptyPath index)
    else if seen.contains file.path then some (.duplicateFile file.path)
    else pathFault? (file.path :: seen) (index + 1) rest

/-- The first import, in the order of the files, that is not one of the given paths. -/
def importFault? (members : List String) (files : List File) : Option ImageError :=
  files.findSome? fun file =>
    (file.imports.find? (!members.contains ·)).map (.missingImport file.path)

/-- The image of a list of files, if it is complete. -/
def ofFiles (files : List File) : Except ImageError Image :=
  match pathFault? [] 0 files with
  | some fault => .error fault
  | none =>
    match importFault? (files.map File.path) files with
    | some fault => .error fault
    | none => .ok ⟨files⟩

/-- The file with a path. -/
def file? (image : Image) (path : String) : Option File :=
  image.files.find? (·.path == path)

/-- The number of files. -/
def size (image : Image) : Nat :=
  image.files.length

/-- The image without any source code information. -/
def stripSourceInfo (image : Image) : Image :=
  ⟨image.files.map File.stripSourceInfo⟩

/-- Whether two images are equal, doubles being compared as numbers. -/
def agrees (a b : Image) : Bool :=
  a.files.length == b.files.length && (a.files.zip b.files).all fun (f, g) => f.agrees g

end Image

/-- The wording of a fault of an image. -/
def ImageError.message : ImageError → String
  | .malformed => "decode error"
  | .emptyPath index => s!"image file at index {index} has an empty path"
  | .duplicateFile path => s!"duplicate file in image: {path}"
  | .missingImport file path => s!"{file} imports {path}, which is not in the image"

end SchemaOptions
