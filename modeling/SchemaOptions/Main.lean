import SchemaOptions.Command.Arguments
import SchemaOptions.Command.Outcome

/-!
# The program

Reads what stands at the paths that a command names, lets it come to its outcome, writes the file
that it produces and prints. Everything else is decided elsewhere.
-/

namespace SchemaOptions

/-- The paths of the files that a command reads. -/
def Command.sources : Command → List String
  | .modify request => request.config?.toList ++ [request.image]
  | .inspect image => [image]

namespace Program

/-- How the program is called. -/
def usage : String :=
  "usage: [-v] modify --image FILE --output FILE [--config FILE] [--jobs N]\n" ++
  "                   [--go-package-prefix TEXT]\n" ++
  "       [-v] inspect --image FILE"

/-- What stands at a path. What can be opened but not read counts as a directory. -/
def readEntry (path : String) : IO Entry := do
  match ← (IO.FS.Handle.mk path .read).toBaseIO with
  | .error _ => return .missing
  | .ok handle =>
    match ← handle.readBinToEnd.toBaseIO with
    | .error _ => return .directory
    | .ok content => return .file content.toList

/-- Writes a file, and tells whether that went well. -/
def writeFile (path : String) (content : List UInt8) : IO Bool := do
  try
    IO.FS.writeBinFile path ⟨content.toArray⟩
    return true
  catch _ =>
    return false

/-- Reports an error. -/
def fail (error : CommandError) : IO UInt32 := do
  IO.eprintln s!"error: {error.message}"
  return 1

/-- Runs a command. -/
def run (command : Command) : IO UInt32 := do
  let entries ← command.sources.mapM fun path => return (path, ← readEntry path)
  match command.outcome fun path => (entries.lookup path).getD .missing with
  | .error e => fail e
  | .ok outcome =>
    if let some (path, content) := outcome.file? then
      unless ← writeFile path content do
        return ← fail (.imageUnwritable path)
    IO.print outcome.text
    return 0

end Program

end SchemaOptions

/-- Does what the arguments ask for. -/
def main (args : List String) : IO UInt32 := do
  match SchemaOptions.Request.ofArguments args with
  | .run command => SchemaOptions.Program.run command
  | .help =>
    IO.println SchemaOptions.Program.usage
    return 0
  | .misuse =>
    IO.eprintln SchemaOptions.Program.usage
    return 2
