import SchemaOptions.Command.Entry
import SchemaOptions.Naming.FilePath

/-!
# Where paths lead

A command works in a directory that holds files and no directories. A relative path without steps up
stays in it: it leads to a file if its last step is the name of the file and the steps before it
stay where they are. Any other path leaves the directory. Where such a path leads is up to the
surroundings (`Surroundings`): back to a file of the directory, or to a place around it, at which
something may stand and to which content can be written or not.
-/

namespace SchemaOptions

/-- Where a path leads. -/
inductive Destination where
  /-- To the name of a file that is or may be in the directory. -/
  | name (name : String)
  /-- To the directory itself. -/
  | directory
  /-- To a place around the directory. -/
  | outside
  | nowhere
deriving DecidableEq

namespace Destination

/-- The longest name of a file, in bytes. -/
def maxName : Nat := 255

/-- The longest path, in bytes. -/
def maxPath : Nat := 4095

/-- Where steps lead that start in the directory. An empty step and a full stop stay; two full stops
lead up. There are no steps from a file. -/
def ofSteps : List (List Char) → Destination
  | [] => .directory
  | step :: steps =>
    if step.isEmpty || step == ['.'] then ofSteps steps
    else if step == ['.', '.'] then .outside
    else if steps.isEmpty && (String.ofList step).utf8ByteSize ≤ maxName then
      .name (String.ofList step)
    else .nowhere

/-- Where a path leads, as far as the directory can tell. -/
def ofPath (path : String) : Destination :=
  if path.isEmpty || maxPath < path.utf8ByteSize then .nowhere
  else if path.toList.head? = some '/' then .outside
  else ofSteps (Naming.segments path)

end Destination

/-- What is around a directory, as far as paths that leave it can tell. Content that was written to
a place is there, or it is gone as at a device that gives nothing; a place that gives anything else
takes no content. -/
structure Surroundings where
  /-- What can change around the directory. -/
  State : Type
  /-- The file of the directory to which a path leads that comes back. -/
  name? : String → Option String
  /-- What stands at the place to which a path leads. -/
  entryAt : State → String → Entry
  /-- Whether the place to which a path leads takes content. -/
  takes : String → Bool
  /-- What is there after content was written to the place to which a path leads. -/
  write : State → String → List UInt8 → State
  entryAt_write : ∀ state path content, takes path = true →
    entryAt (write state path content) path = .file content ∨
      entryAt (write state path content) path = .file []

namespace Surroundings

/-- Surroundings in which there is nothing. -/
def bare : Surroundings where
  State := Unit
  name? _ := none
  entryAt _ _ := .missing
  takes _ := false
  write state _ _ := state
  entryAt_write := nofun

instance : Inhabited Surroundings := ⟨bare⟩

/-- Where a path leads. -/
def destination (around : Surroundings) (path : String) : Destination :=
  match Destination.ofPath path with
  | .outside => ((around.name? path).map .name).getD .outside
  | destination => destination

/-- Whether content can be written to a path: it can be to the files of the directory. -/
def accepts (around : Surroundings) (path : String) : Bool :=
  match around.destination path with
  | .name _ => true
  | .outside => around.takes path
  | .directory | .nowhere => false

end Surroundings

end SchemaOptions
