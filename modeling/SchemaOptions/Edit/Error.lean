import SchemaOptions.Image.Basic
import SchemaOptions.Options.Slot
import SchemaOptions.Rule.ImportPath

/-!
# Why an edit fails

An edit fails because it was set up wrongly, because one file cannot be edited as asked, or because
an image that it needs is none. `EditError.message` is the wording.
-/

namespace SchemaOptions

/-- What is wrong with a configuration. -/
inductive ConfigurationFault where
  /-- The start of the import paths cannot be one. -/
  | importPrefix (given : String) (fault : PrefixFault)
  /-- The package name that a file is given is no name. -/
  | overrideName (path given : String)
  /-- The start of the Java packages cannot be one. -/
  | javaPrefix (given : String)
  /-- No worker is to do the work. -/
  | noJobs
  /-- An edit from outside was refused. -/
  | rejected (reason : String)
deriving DecidableEq

/-- Why a file cannot be edited. -/
inductive FileFault where
  | slot (fault : SlotFault)
  | path (fault : PathFault)
  /-- An edit from outside was refused. -/
  | rejected (reason : String)
deriving DecidableEq

/-- Why an edit failed. -/
inductive EditError where
  | configuration (fault : ConfigurationFault)
  | file (path : String) (fault : FileFault)
  | image (error : ImageError)
deriving DecidableEq

/-- The wording of a fault. -/
def ConfigurationFault.reason : ConfigurationFault → String
  | .importPrefix given fault =>
    s!"invalid go_package prefix {Text.quoted given}: {fault.reason}"
  | .overrideName path given =>
    s!"go_package override for {path}: {Text.quoted given} is not a valid package name"
  | .javaPrefix given => s!"invalid java_package prefix {Text.quoted given}"
  | .noJobs => "jobs must be at least 1"
  | .rejected reason => reason

/-- The wording of a fault. -/
def FileFault.reason : FileFault → String
  | .slot fault => fault.reason
  | .path fault => fault.reason
  | .rejected reason => reason

/-- The wording of an error. -/
def EditError.message : EditError → String
  | .configuration fault => s!"invalid configuration: {fault.reason}"
  | .file path fault => s!"cannot modify {path}: {fault.reason}"
  | .image error => s!"image error: {error.message}"

end SchemaOptions
