import SchemaOptions.Edit.Error
import SchemaOptions.Sweeper

/-!
# Edits

An edit changes a state and may fail. If it fails, what it did before stays done: the state that it
leaves is part of its result either way, and nothing is ever rolled back.

`updateOption` is the one edit that changes an option. It compares first: if the slot already reads
as what is asked for, nothing is written and nothing is touched. Otherwise it makes sure that the
file has a block of options, writes, and notes the touch; a value that the slot refuses is an error,
which comes after the block was made.

`Image.forEachFile` edits the files of an image in their order and stops at the first that fails.
-/

namespace SchemaOptions

/-- A change of a state that may fail; the state it leaves is there in both cases. -/
abbrev Edit (σ α : Type) := EStateM EditError σ α

/-- The value that a slot of a file reads as. -/
def File.readSlot (file : File) (slot : Slot) : Option OptionValue :=
  file.options.bind slot.read

/-- The touch that a change of a slot leaves. -/
def File.slotTouch (file : File) (slot : Slot) : Touch :=
  ⟨file.path, slot.path, .exact⟩

/-- Gives a slot of a file a value, or none, and tells whether that changed anything. -/
def updateOption (slot : Slot) (value : Option OptionValue) : Edit (File × Sweeper) Bool :=
  fun (file, sweeper) =>
    if file.readSlot slot = value then
      .ok false (file, sweeper)
    else
      match value with
      | none =>
        let options := slot.clear file.optionsOrEmpty
        .ok true ({ file with options := some options }, sweeper.touch (file.slotTouch slot))
      | some value =>
        match slot.store value file.optionsOrEmpty with
        | .ok options =>
          .ok true ({ file with options := some options }, sweeper.touch (file.slotTouch slot))
        | .error fault =>
          .error (.file file.path (.slot fault))
            ({ file with options := some file.optionsOrEmpty }, sweeper)

/-- Edits files in order, up to the first that fails. Besides the file at hand an edit may read and
change a state that all of them share. -/
def editFiles {σ α : Type} (edit : Edit (File × σ) α) :
    List File → σ → EStateM.Result EditError (List File × σ) (List α)
  | [], shared => .ok [] ([], shared)
  | file :: rest, shared =>
    match edit (file, shared) with
    | .error e (file, shared) => .error e (file :: rest, shared)
    | .ok a (file, shared) =>
      match editFiles edit rest shared with
      | .error e (rest, shared) => .error e (file :: rest, shared)
      | .ok as (rest, shared) => .ok (a :: as) (file :: rest, shared)

/-- Edits every file of an image. -/
def Image.forEachFile {σ α : Type} (edit : Edit (File × σ) α) : Edit (Image × σ) (List α) :=
  fun (image, shared) =>
    match editFiles edit image.files shared with
    | .error e (files, shared) => .error e (⟨files⟩, shared)
    | .ok as (files, shared) => .ok as (⟨files⟩, shared)

end SchemaOptions
