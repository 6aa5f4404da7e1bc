import SchemaOptions.Edit.Basic

/-!
# Modifiers

A modifier is an edit of a workspace: an image, the sweeper that notes what changes in it, and the
counts of pending touches that were observed on the way. `modifyOption` builds the modifiers that
matter, one slot in every file; well-known files are passed over without even asking for a value.

A runner is a tree of modifiers. It runs them from left to right and stops at the first that fails,
however deep in the tree that is.
-/

namespace SchemaOptions

/-- What modifiers work on. -/
structure Workspace where
  image : Image
  sweeper : Sweeper := Sweeper.empty
  /-- The numbers of pending touches that were observed, oldest first. -/
  observed : List Nat := []

/-- A change of a workspace that may fail. -/
abbrev Modifier := Edit Workspace Unit

/-- What is to become of a slot of a file. -/
inductive OptionEdit where
  | keep
  | set (value : OptionValue)
  | clear
deriving DecidableEq

/-- Edits one slot of one file as a function of the file asks, and tells whether it changed. -/
def editSlot (slot : Slot) (target : File → Except EditError OptionEdit) :
    Edit (File × Sweeper) Bool :=
  fun (file, sweeper) =>
    if file.isWellKnown then
      .ok false (file, sweeper)
    else
      match target file with
      | .error e => .error e (file, sweeper)
      | .ok .keep => .ok false (file, sweeper)
      | .ok (.set value) => updateOption slot (some value) (file, sweeper)
      | .ok .clear => updateOption slot none (file, sweeper)

/-- Edits one slot in every file of the image, and tells how many files changed. -/
def modifyOption (slot : Slot) (target : File → Except EditError OptionEdit) : Edit Workspace Nat :=
  fun workspace =>
    match Image.forEachFile (editSlot slot target) (workspace.image, workspace.sweeper) with
    | .error e (image, sweeper) => .error e { workspace with image, sweeper }
    | .ok changes (image, sweeper) => .ok (changes.count true) { workspace with image, sweeper }

namespace Modifier

/-- Removes the locations that the pending touches name, and forgets the touches. -/
def sweep : Modifier := fun workspace =>
  .ok () { workspace with
    image := workspace.sweeper.sweepImage workspace.image
    sweeper := Sweeper.empty }

/-- Observes how many touches are pending. -/
def observe : Modifier := fun workspace =>
  .ok () { workspace with observed := workspace.observed ++ [workspace.sweeper.pending] }

/-- Fails without changing anything. -/
def fail (error : EditError) : Modifier := fun workspace =>
  .error error workspace

/-- Checks that some files make an image of their own. -/
def checkImage (files : List File) : Modifier := fun workspace =>
  match Image.ofFiles files with
  | .ok _ => .ok () workspace
  | .error e => .error (.image e) workspace

/-- Runs modifiers in order, up to the first that fails. -/
def sequence : List Modifier → Modifier
  | [] => fun workspace => .ok () workspace
  | modifier :: rest => fun workspace =>
    match modifier workspace with
    | .ok _ workspace => sequence rest workspace
    | .error e workspace => .error e workspace

end Modifier

/-- A tree of modifiers. -/
inductive Runner where
  | step (modifier : Modifier)
  | nested (runners : List Runner)

namespace Runner

mutual

/-- Runs the modifiers of a tree from left to right, up to the first that fails. -/
def run : Runner → Modifier
  | .step modifier => modifier
  | .nested runners => runAll runners

/-- Runs trees in order, up to the first that fails. -/
def runAll : List Runner → Modifier
  | [] => fun workspace => .ok () workspace
  | runner :: rest => fun workspace =>
    match runner.run workspace with
    | .ok _ workspace => runAll rest workspace
    | .error e workspace => .error e workspace

end

mutual

/-- The modifiers of a tree from left to right. -/
def leaves : Runner → List Modifier
  | .step modifier => [modifier]
  | .nested runners => leavesAll runners

/-- The modifiers of a list of trees from left to right. -/
def leavesAll : List Runner → List Modifier
  | [] => []
  | runner :: rest => runner.leaves ++ leavesAll rest

end

end Runner

end SchemaOptions
