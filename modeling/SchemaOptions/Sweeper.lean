import SchemaOptions.Image.Basic
import SchemaOptions.SourceInfo

/-!
# The sweeper

A comment that was written for the old value of an option does not fit the new one. So every change
of an option is noted as a touch, and a sweep later removes the locations that the touches name. The
sweeper is the set of touches since the last sweep: noting the same touch twice changes nothing, and
the order of touches cannot be seen.
-/

namespace SchemaOptions

/-- Which locations a touch names: those of its address, or also those within it. -/
inductive MatchMode where
  | exact
  | subtree
deriving DecidableEq

/-- A note that an element of a file changed. -/
structure Touch where
  file : String
  path : SourcePath
  mode : MatchMode
deriving DecidableEq

/-- The touches since the last sweep, each of them once. -/
structure Sweeper where
  touches : List Touch := []
  nodup : touches.Nodup := by exact List.nodup_nil

namespace Sweeper

/-- A sweeper without touches. -/
def empty : Sweeper := {}

/-- Notes a touch. -/
def touch (sweeper : Sweeper) (touch : Touch) : Sweeper :=
  if h : touch ∈ sweeper.touches then
    sweeper
  else
    { touches := touch :: sweeper.touches
      nodup := List.nodup_cons.2 ⟨h, sweeper.nodup⟩ }

/-- The number of touches. -/
def pending (sweeper : Sweeper) : Nat :=
  sweeper.touches.length

/-- Whether an element was touched, in whichever mode. -/
def isTouched (sweeper : Sweeper) (file : String) (path : SourcePath) : Bool :=
  sweeper.touches.any fun touch => touch.file == file && touch.path == path

/-- The files with a touch, in ascending order. -/
def touchedFiles (sweeper : Sweeper) : List String :=
  (sweeper.touches.map Touch.file).eraseDups.mergeSort fun a b => decide (a ≤ b)

/-- The touches of a file. -/
def touchesOf (sweeper : Sweeper) (file : String) : List Touch :=
  sweeper.touches.filter (·.file == file)

end Sweeper

/-- Removes the locations that a touch names. -/
def Touch.remove (touch : Touch) : List Location → SourceInfo.Removal :=
  match touch.mode with
  | .exact => SourceInfo.removeExact touch.path
  | .subtree => SourceInfo.removeSubtree touch.path

/-- Removes the locations that any of some touches names, taking the touches one by one. -/
def Touch.removeAll : List Touch → List Location → SourceInfo.Removal
  | [], locations => ⟨0, locations⟩
  | touch :: touches, locations =>
    let first := touch.remove locations
    let others := removeAll touches first.rest
    ⟨first.removed + others.removed, others.rest⟩

/-- A file without the locations that its touches name. -/
def Sweeper.sweepFile (sweeper : Sweeper) (file : File) : File :=
  { file with
    sourceInfo := file.sourceInfo.map fun info =>
      (Touch.removeAll (sweeper.touchesOf file.path) info).rest }

/-- An image without the locations that the touches of its files name. -/
def Sweeper.sweepImage (sweeper : Sweeper) (image : Image) : Image :=
  ⟨image.files.map sweeper.sweepFile⟩

end SchemaOptions
