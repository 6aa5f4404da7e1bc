import SchemaOptions.Command.Arguments
import SchemaOptions.Command.Outcome
import SchemaOptions.Command.Surroundings

/-!
# Running commands in a directory

A directory holds files by their names, and what is around it is in some state (`Surroundings`).
Running a command reads what stands at the paths that it names and writes the file that it produces;
the report tells what a caller sees.
-/

namespace SchemaOptions

/-- The files of a directory by their names, and the state of what is around it. -/
structure Directory (around : Surroundings) where
  files : List (String × List UInt8)
  outside : around.State

namespace Directory

variable {around : Surroundings}

/-- The longest content of a file, in bytes. -/
def maxContent : Nat := UInt64.size / 2 - 1

/-- The content of the file with a name. -/
def get? (directory : Directory around) (name : String) : Option (List UInt8) :=
  directory.files.lookup name

/-- The directory with other content for the file with a name, which is new if there was none. -/
def put (directory : Directory around) (name : String) (content : List UInt8) :
    Directory around :=
  { directory with files := (name, content) :: directory.files.filter (·.1 != name) }

/-- The directory after content was written to the place around it to which a path leads. -/
def putOutside (directory : Directory around) (path : String) (content : List UInt8) :
    Directory around :=
  { directory with outside := around.write directory.outside path content }

/-- What stands at a path. -/
def entryAt (directory : Directory around) (path : String) : Entry :=
  match around.destination path with
  | .name name =>
    match directory.get? name with
    | some content => .file content
    | none => .missing
  | .directory => .directory
  | .outside => around.entryAt directory.outside path
  | .nowhere => .missing

/-- The directory after content was written to a path, if it can be. -/
def write? (directory : Directory around) (path : String) (content : List UInt8) :
    Option (Directory around) :=
  if maxContent < content.length then none
  else
    match around.destination path with
    | .name name => some (directory.put name content)
    | .outside => if around.takes path then some (directory.putOutside path content) else none
    | .directory | .nowhere => none

end Directory

/-- What a caller sees of a command. -/
inductive Report where
  /-- The command printed a text. -/
  | success (text : String)
  | failure (error : CommandError)
  /-- The arguments asked for help. -/
  | help
  /-- The arguments were no request. -/
  | misuse
deriving DecidableEq

/-- The code with which the program exits. -/
def Report.exitCode : Report → UInt32
  | .success _ | .help => 0
  | .failure _ => 1
  | .misuse => 2

namespace Directory

variable {around : Surroundings}

/-- Runs a command in a directory. -/
def run (directory : Directory around) (command : Command) : Report × Directory around :=
  match command.outcome directory.entryAt with
  | .error e => (.failure e, directory)
  | .ok outcome =>
    match outcome.file? with
    | none => (.success outcome.text, directory)
    | some (path, content) =>
      match directory.write? path content with
      | none => (.failure (.imageUnwritable path), directory)
      | some directory => (.success outcome.text, directory)

/-- Does in a directory what arguments ask for. -/
def runArguments (directory : Directory around) (args : List String) :
    Report × Directory around :=
  match Request.ofArguments args with
  | .run command => directory.run command
  | .help => (.help, directory)
  | .misuse => (.misuse, directory)

end Directory

end SchemaOptions
