import SchemaOptions.Image.Basic
import SchemaOptions.Json.Layout
import SchemaOptions.Options.Slot

/-!
# The summary of an image

For every file its path, its package, whether it is well known, and the managed options that are
set, each with the value that it reads as. Members of an object are in alphabetical order.
-/

namespace SchemaOptions

/-- All slots, in the alphabetical order of their names. -/
def Slot.alphabetical : List Slot := [
  .flag .ccEnableArenas,
  .text .csharpNamespace,
  .text .goPackage,
  .flag .javaMultipleFiles,
  .text .javaOuterClassname,
  .text .javaPackage,
  .text .objcClassPrefix,
  .optimizeFor,
  .text .phpNamespace,
  .text .rubyPackage]

/-- Every slot is listed. -/
theorem Slot.mem_alphabetical (slot : Slot) : slot ∈ alphabetical := by
  rcases slot with slot | slot | _
  · cases slot <;> decide
  · cases slot <;> decide
  · decide

/-- The value of an option in a summary. -/
def OptionValue.summary : OptionValue → JsonValue
  | .text s => .text s
  | .flag b => .flag b
  | .mode m => .text m.name

/-- The managed options that are set in a block. -/
def FileOptions.summary (options : FileOptions) : JsonValue :=
  .object <| Slot.alphabetical.filterMap fun slot =>
    (slot.read options).map fun value => (slot.name, value.summary)

/-- What a summary tells about a file. -/
def File.summary (file : File) : JsonValue :=
  .object [
    ("options", file.optionsOrEmpty.summary),
    ("package", .text file.packageName),
    ("path", .text file.path),
    ("well_known", .flag file.isWellKnown)]

/-- The summary of an image. -/
def Image.summary (image : Image) : JsonValue :=
  .object [("files", .list (image.files.map File.summary))]

end SchemaOptions
