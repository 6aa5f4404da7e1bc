/-!
# Commands

What the program can be asked to do: to bring the options of an image in line with a configuration,
or to show which options are set.
-/

namespace SchemaOptions

/-- A request to modify an image. -/
structure Modification where
  /-- The path of the image. -/
  image : String
  /-- The path at which the modified image is written. -/
  output : String
  /-- The path of the configuration; without one, only what the request itself says is managed. -/
  config? : Option String := none
  /-- The number of workers, instead of the one that is configured. -/
  jobs? : Option UInt64 := none
  /-- The start of the Go import paths, instead of the one that is configured. -/
  importPrefix? : Option String := none
deriving DecidableEq

/-- What the program is asked to do. -/
inductive Command where
  | modify (modification : Modification)
  /-- Shows which options are set in the image at a path. -/
  | inspect (image : String)
deriving DecidableEq

end SchemaOptions
