import SchemaOptions.Config.Reading

/-!
# Why a command fails

A command fails because a file that it names cannot be used, because what it asks for is no valid
configuration or none at all, or because the pass over the image fails.
-/

namespace SchemaOptions

/-- Why a command failed. -/
inductive CommandError where
  /-- The configuration cannot be loaded. -/
  | config (path : String) (error : LoadError)
  /-- The configuration is not valid, or the pass failed. -/
  | edit (error : EditError)
  /-- Nothing is managed. -/
  | nothingManaged
  /-- There is no image to read. -/
  | imageUnreadable (path : String)
  /-- What there is to read is no image. -/
  | image (path : String) (error : ImageError)
  /-- The image cannot be written. -/
  | imageUnwritable (path : String)
deriving DecidableEq

/-- The wording of an error. -/
def CommandError.message : CommandError → String
  | .config path error => s!"Failed to load config {path}: {error.message}"
  | .edit error => error.message
  | .nothingManaged =>
    "Nothing to modify: enable at least one option in --config or pass --go-package-prefix"
  | .imageUnreadable path => s!"Failed to read image {path}: I/O error"
  | .image path error => s!"Failed to read image {path}: {error.message}"
  | .imageUnwritable path => s!"Failed to write image {path}: I/O error"

end SchemaOptions
