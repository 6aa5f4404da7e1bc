/-!
# Well-known files

The files that come with the schema language itself. Their options are fixed by whoever publishes
them, so no rule ever changes them. Only the exact path counts: a copy below another directory is an
ordinary file.
-/

namespace SchemaOptions

/-- The paths of the well-known files, in ascending order. -/
def wellKnownPaths : List String := [
  "google/protobuf/any.proto",
  "google/protobuf/api.proto",
  "google/protobuf/compiler/plugin.proto",
  "google/protobuf/descriptor.proto",
  "google/protobuf/duration.proto",
  "google/protobuf/empty.proto",
  "google/protobuf/field_mask.proto",
  "google/protobuf/source_context.proto",
  "google/protobuf/struct.proto",
  "google/protobuf/timestamp.proto",
  "google/protobuf/type.proto",
  "google/protobuf/wrappers.proto"]

/-- Whether a path is that of a well-known file. -/
def isWellKnownPath (path : String) : Bool :=
  wellKnownPaths.contains path

end SchemaOptions
