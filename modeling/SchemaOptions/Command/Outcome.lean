import SchemaOptions.Command.Basic
import SchemaOptions.Command.Entry
import SchemaOptions.Command.Error
import SchemaOptions.Config.Pass
import SchemaOptions.Image.Bytes
import SchemaOptions.Image.Summary

/-!
# What a command comes to

What a command does depends on nothing but what stands at the paths that it names. It comes to a
text, and to the bytes of a file if it modifies an image; or it fails, and then nothing is written.
The checks are made in a fixed order, and the first that fails is the error: the configuration, what
the request makes of it, the image, and the pass.
-/

namespace SchemaOptions

/-- What a command that does not fail comes to. -/
structure Outcome where
  /-- The path and the content of a file to write before anything is printed. -/
  file? : Option (String × List UInt8) := none
  /-- The text to print. -/
  text : String
deriving DecidableEq

/-- The image at a path. -/
def Image.load (entryAt : String → Entry) (path : String) : Except CommandError Image :=
  match (entryAt path).bytes? with
  | none => .error (.imageUnreadable path)
  | some bytes => (Image.decode bytes).mapError (.image path)

/-- Whether a file has the same options as another, an absent block being another than an empty
one. -/
def File.sameOptions (a b : File) : Bool :=
  match a.options, b.options with
  | none, none => true
  | some a, some b => a.agrees b
  | _, _ => false

/-- The number of files whose options are not what they were. -/
def Image.touched (before after : Image) : Nat :=
  (before.files.zip after.files).countP fun (a, b) => !a.sameOptions b

/-- The configuration that stands at a path. A directory is refused like a file whose content is no
configuration, for it can be opened. -/
def Config.loadEntry : Entry → Except LoadError Config
  | .directory => .error .malformed
  | entry => Config.load entry.bytes?

namespace Modification

/-- The configuration at the path that a request names. -/
def loadConfig (request : Modification) (entryAt : String → Entry) : Except CommandError Config :=
  match request.config? with
  | none => .ok Config.default
  | some path => (Config.loadEntry (entryAt path)).mapError (.config path)

/-- A configuration with what a request says instead. Package names of single files stay. -/
def adjust (request : Modification) (config : Config) : Config :=
  let config :=
    match request.importPrefix? with
    | none => config
    | some importPrefix =>
      let overrides := (config.goPackage.map GoSection.overrides).getD .empty
      { config with goPackage := some { importPrefix, overrides } }
  match request.jobs? with
  | none => config
  | some jobs => { config with jobs := some jobs }

/-- The configuration that a request comes to, if there is no fault in it and something to do. -/
def config (request : Modification) (entryAt : String → Entry) : Except CommandError Config := do
  let config := request.adjust (← request.loadConfig entryAt)
  match config.fault? with
  | some fault => .error (.edit (.configuration fault))
  | none => if config.isEmpty then .error .nothingManaged else .ok config

end Modification

/-- The image that the pass of a configuration makes of another. -/
def Config.apply (config : Config) (image : Image) : Except EditError Image := do
  match Modifier.sequence (← config.build) { image } with
  | .ok _ workspace => .ok workspace.image
  | .error e _ => .error e

/-- What a request to modify an image comes to. -/
def Modification.outcome (request : Modification) (entryAt : String → Entry) :
    Except CommandError Outcome := do
  let config ← request.config entryAt
  let before ← Image.load entryAt request.image
  let after ← (config.apply before).mapError CommandError.edit
  return {
    file? := some (request.output, after.encode)
    text := s!"Files: {after.size}\nTouched: {before.touched after}\n" }

/-- What a command comes to. -/
def Command.outcome (command : Command) (entryAt : String → Entry) :
    Except CommandError Outcome :=
  match command with
  | .modify request => request.outcome entryAt
  | .inspect path => do
    let image ← Image.load entryAt path
    return { text := image.summary.render ++ "\n" }

end SchemaOptions
