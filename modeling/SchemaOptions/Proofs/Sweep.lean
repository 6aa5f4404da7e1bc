import SchemaOptions.Sweeper

/-!
# Laws of the sweep

The sweeper is the set of its touches: `Sweeper.mem_touches_touchAll` says which touches there are
after others were noted, whatever their order and however often. A sweep goes through the touches of
a file one by one, but it comes to one filter (`Sweeper.sweepFile_eq`): a location stays unless some
touch of its file names it.
-/

namespace SchemaOptions

/-! ## Noting touches -/

namespace Sweeper

/-- Notes touches one after the other. -/
def touchAll (sweeper : Sweeper) (touches : List Touch) : Sweeper :=
  touches.foldl Sweeper.touch sweeper

@[simp] theorem touchAll_nil (sweeper : Sweeper) : sweeper.touchAll [] = sweeper := rfl

theorem touchAll_cons (sweeper : Sweeper) (touch : Touch) (touches : List Touch) :
    sweeper.touchAll (touch :: touches) = (sweeper.touch touch).touchAll touches := rfl

theorem touchAll_append (sweeper : Sweeper) (touches others : List Touch) :
    sweeper.touchAll (touches ++ others) = (sweeper.touchAll touches).touchAll others :=
  List.foldl_append

@[simp] theorem touches_empty : Sweeper.empty.touches = [] := rfl

/-- Noting a touch adds it and nothing else. -/
@[simp] theorem mem_touches_touch {sweeper : Sweeper} {noted touch : Touch} :
    touch ∈ (sweeper.touch noted).touches ↔ touch = noted ∨ touch ∈ sweeper.touches := by
  unfold Sweeper.touch
  split
  · rename_i hmem
    exact ⟨.inr, fun h => h.elim (fun heq => heq ▸ hmem) id⟩
  · exact List.mem_cons

/-- Noting touches adds them and nothing else. -/
@[simp] theorem mem_touches_touchAll {sweeper : Sweeper} {noted : List Touch} {touch : Touch} :
    touch ∈ (sweeper.touchAll noted).touches ↔ touch ∈ noted ∨ touch ∈ sweeper.touches := by
  induction noted generalizing sweeper with
  | nil => simp only [touchAll_nil, List.not_mem_nil, false_or]
  | cons first rest ih =>
    rw [touchAll_cons, ih, mem_touches_touch, List.mem_cons]
    exact or_left_comm.trans or_assoc.symm

end Sweeper

/-! ## Sweeping -/

/-- Whether a touch names a location. -/
def Touch.names (touch : Touch) (location : Location) : Bool :=
  match touch.mode with
  | .exact => location.path == touch.path
  | .subtree => SourcePath.covers touch.path location.path

/-- A touch takes away the locations that it names. -/
theorem Touch.remove_rest (touch : Touch) (locations : List Location) :
    (touch.remove locations).rest = locations.filter (!touch.names ·) := by
  unfold Touch.remove Touch.names
  cases touch.mode <;> rfl

/-- Touches take away, one after the other, the locations that any of them names. -/
theorem Touch.removeAll_rest (touches : List Touch) (locations : List Location) :
    (Touch.removeAll touches locations).rest =
      locations.filter fun location => !touches.any (·.names location) := by
  induction touches generalizing locations with
  | nil => exact (List.filter_eq_self.2 fun _ _ => rfl).symm
  | cons touch touches ih =>
    simp only [Touch.removeAll, ih, Touch.remove_rest, List.filter_filter, List.any_cons,
      Bool.not_or, Bool.and_comm]

namespace Sweeper

/-- Whether some touch of a file names a location. -/
def names (sweeper : Sweeper) (file : String) (location : Location) : Bool :=
  sweeper.touches.any fun touch => touch.file == file && touch.names location

/-- A sweep of a file keeps, in order, the locations that no touch of the file names. -/
theorem sweepFile_eq (sweeper : Sweeper) (file : File) :
    sweeper.sweepFile file =
      { file with
        sourceInfo := file.sourceInfo.map
          (List.filter fun location => !sweeper.names file.path location) } := by
  simp only [sweepFile, Touch.removeAll_rest, touchesOf, List.any_filter, names]

/-- A sweep of a file does not depend on the order in which the touches were noted. -/
theorem sweepFile_congr {sweeper other : Sweeper}
    (h : ∀ touch, touch ∈ sweeper.touches ↔ touch ∈ other.touches) (file : File) :
    sweeper.sweepFile file = other.sweepFile file := by
  have hnames (location : Location) :
      sweeper.names file.path location = other.names file.path location := by
    rw [Bool.eq_iff_iff]
    simp only [names, List.any_eq_true, h]
  simp only [sweepFile_eq, hnames]

theorem sweepImage_congr {sweeper other : Sweeper}
    (h : ∀ touch, touch ∈ sweeper.touches ↔ touch ∈ other.touches) (image : Image) :
    sweeper.sweepImage image = other.sweepImage image :=
  congrArg Image.mk (List.map_congr_left fun file _ => sweepFile_congr h file)

/-- Without touches a sweep changes nothing. -/
@[simp] theorem sweepFile_empty (file : File) : Sweeper.empty.sweepFile file = file := by
  have hkeep : (List.filter fun location => !Sweeper.empty.names file.path location) = id :=
    funext fun locations => List.filter_eq_self.2 fun _ _ => rfl
  rw [sweepFile_eq, hkeep, Option.map_id_fun, id]

@[simp] theorem sweepImage_empty (image : Image) : Sweeper.empty.sweepImage image = image := by
  have hkeep : Sweeper.empty.sweepFile = id := funext sweepFile_empty
  rw [sweepImage, hkeep, List.map_id_fun, id]

end Sweeper

end SchemaOptions
