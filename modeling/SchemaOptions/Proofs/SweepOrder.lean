import Mathlib.Algebra.Ring.Nat
import SchemaOptions.Edit.Modifier
import SchemaOptions.Proofs.Removal
import SchemaOptions.Proofs.Sweep

/-!
# A sweep in any order

The touches of a file are a set, and a sweep visits them in some order, each of them removing what
the ones before it left. Whatever the order is, what stays is what no touch of the file reaches
(`Location.Stays`, `Touch.removeAll_of_visits`), and the counts of the single removals add up to the
number of locations that went (`Touch.sum_counts`). `Sweeper.sweep_spec` says this of a sweep of an
image: it comes to removing from every file at one stroke what its touches reach.
-/

namespace SchemaOptions

/-! ## What stays -/

/-- Whether a location of the file with a path is out of the reach of touches: no exact one of the
file has its address, and no subtree that one of them names holds it. -/
def Location.Stays (touches : List Touch) (path : String) (location : Location) : Prop :=
  (∀ touch ∈ touches, touch.file = path → touch.mode = .exact → touch.path ≠ location.path) ∧
  ∀ touch ∈ touches, touch.file = path → touch.mode = .subtree → ¬touch.path <+: location.path

instance (touches : List Touch) (path : String) (location : Location) :
    Decidable (location.Stays touches path) :=
  inferInstanceAs (Decidable (_ ∧ _))

/-- A file without the locations that touches reach. -/
def File.without (touches : List Touch) (file : File) : File :=
  { file with
    sourceInfo := file.sourceInfo.map
      (List.filter fun location => decide (location.Stays touches file.path)) }

/-- A touch names a location if it is exact and has its address, or if its subtree holds it. -/
theorem Touch.names_iff {touch : Touch} {location : Location} :
    touch.names location = true ↔
      (touch.mode = .exact ∧ touch.path = location.path) ∨
        (touch.mode = .subtree ∧ touch.path <+: location.path) := by
  unfold Touch.names
  cases touch.mode with
  | exact =>
    simp only [beq_iff_eq, true_and, reduceCtorEq, false_and, or_false]
    exact eq_comm
  | subtree =>
    simp only [SourcePath.covers, List.isPrefixOf_iff_prefix, reduceCtorEq, false_and, true_and,
      false_or]

/-- A location stays if no touch of its file names it. -/
theorem Location.stays_iff {touches : List Touch} {path : String} {location : Location} :
    location.Stays touches path ↔
      ∀ touch ∈ touches, touch.file = path → touch.names location = false := by
  simp only [← Bool.not_eq_true, Touch.names_iff, not_or, not_and]
  constructor
  · intro h touch hmem hfile
    exact ⟨h.1 touch hmem hfile, h.2 touch hmem hfile⟩
  · intro h
    exact ⟨fun touch hmem hfile => (h touch hmem hfile).1,
      fun touch hmem hfile => (h touch hmem hfile).2⟩

namespace File

variable {touches : List Touch} {file : File}

/-- A file that has no source code information, or that no touch is about, stays as it is. -/
theorem without_eq_self
    (h : file.sourceInfo = none ∨ ∀ touch ∈ touches, touch.file ≠ file.path) :
    file.without touches = file := by
  suffices hinfo : file.sourceInfo.map
      (List.filter fun location => decide (location.Stays touches file.path)) = file.sourceInfo by
    rw [without, hinfo]
  rcases h with hnone | hother
  · rw [hnone, Option.map_none]
  · have hstays (location : Location) : location.Stays touches file.path :=
      Location.stays_iff.2 fun touch hmem hfile => absurd hfile (hother touch hmem)
    have hkeep (locations : List Location) : (locations.filter fun location =>
        decide (location.Stays touches file.path)) = locations :=
      List.filter_eq_self.2 fun location _ => decide_eq_true (hstays location)
    exact (Option.map_congr fun locations _ => hkeep locations).trans Option.map_id_apply

/-- What no touch reaches is out of reach afterwards too. -/
theorem without_without (touches : List Touch) (file : File) :
    (file.without touches).without touches = file.without touches := by
  have hpath : (file.without touches).path = file.path := rfl
  rw [without, hpath]
  simp only [without, Option.map_map, Function.comp_def, List.filter_filter, Bool.and_self]

end File

/-! ## Orders -/

/-- Whether an order of visits is one of some touches: file by file all of those that are about the
file, and no others. -/
def Visits (order : String → List Touch) (touches : List Touch) : Prop :=
  ∀ path touch, touch ∈ order path ↔ touch ∈ touches ∧ touch.file = path

/-- An image after a sweep that visits the touches of each file in an order of its own. -/
def Image.sweptInOrder (order : String → List Touch) (image : Image) : Image :=
  ⟨image.files.map fun file =>
    { file with
      sourceInfo := file.sourceInfo.map fun info =>
        (Touch.removeAll (order file.path) info).rest }⟩

/-- How many locations each of some touches removes, taking them one by one. -/
def Touch.counts : List Touch → List Location → List Nat
  | [], _ => []
  | touch :: touches, locations =>
    (touch.remove locations).removed :: counts touches (touch.remove locations).rest

/-- The sweep of a sweeper is one of these: it visits the touches as the sweeper lists them. -/
theorem Sweeper.sweepImage_eq_sweptInOrder (sweeper : Sweeper) (image : Image) :
    sweeper.sweepImage image = image.sweptInOrder sweeper.touchesOf := rfl

/-- That order is one of the touches that were noted. -/
theorem Sweeper.visits_touchesOf (touches : List Touch) :
    Visits (Sweeper.empty.touchAll touches).touchesOf touches := by
  intro path touch
  simp only [touchesOf, List.mem_filter, mem_touches_touchAll, touches_empty, List.not_mem_nil,
    or_false, beq_iff_eq]

namespace Touch

/-- A removal loses no location: those that went and those that stay are all there were. -/
theorem removed_add_length (touch : Touch) (locations : List Location) :
    (touch.remove locations).removed + (touch.remove locations).rest.length =
      locations.length := by
  unfold remove
  cases touch.mode with
  | exact => exact SourceInfo.removed_add_length_rest _ locations
  | subtree => exact SourceInfo.removed_add_length_rest _ locations

/-- The counts of removals one after the other add up to the number of locations that went. -/
theorem sum_counts (touches : List Touch) (locations : List Location) :
    (counts touches locations).sum + (removeAll touches locations).rest.length =
      locations.length := by
  induction touches generalizing locations with
  | nil => simp only [counts, removeAll, List.sum_nil, Nat.zero_add]
  | cons touch touches ih =>
    have hfirst := touch.removed_add_length locations
    have hothers := ih (touch.remove locations).rest
    simp only [counts, removeAll, List.sum_cons]
    omega

/-- In whichever order touches are visited, what stays is what none of them reaches. -/
theorem removeAll_of_visits {order : String → List Touch} {touches : List Touch}
    (h : Visits order touches) (path : String) (locations : List Location) :
    (removeAll (order path) locations).rest =
      locations.filter fun location => decide (location.Stays touches path) := by
  rw [removeAll_rest]
  refine List.filter_congr fun location _ => ?_
  rw [Bool.eq_iff_iff, decide_eq_true_iff, Location.stays_iff, Bool.not_eq_true', List.any_eq_false]
  simp only [h path, and_imp, Bool.not_eq_true]

end Touch

theorem Image.sweptInOrder_eq {order : String → List Touch} {touches : List Touch}
    (h : Visits order touches) (image : Image) :
    image.sweptInOrder order = ⟨image.files.map (File.without touches)⟩ := by
  simp only [sweptInOrder, Touch.removeAll_of_visits h]
  rfl

/-! ## Sweeping an image -/

namespace Sweeper

/-- A sweep removes from each file, at one stroke, what its touches reach. -/
theorem sweepImage_touchAll (touches : List Touch) (image : Image) :
    (Sweeper.empty.touchAll touches).sweepImage image =
      ⟨image.files.map (File.without touches)⟩ := by
  rw [sweepImage_eq_sweptInOrder, Image.sweptInOrder_eq (visits_touchesOf touches)]

/-- A sweep, whatever was touched, succeeds and forgets the touches. It removes the locations that
the touches of their file reach and changes nothing else; it does so in whichever order the touches
are visited, and the single removals add up to what went. Another sweep changes nothing, not even
one by the same touches. -/
theorem sweep_spec (image : Image) (touches : List Touch) (observed : List Nat) :
    let sweeper := Sweeper.empty.touchAll touches
    let swept : Image := ⟨image.files.map (File.without touches)⟩
    let done : Workspace := { image := swept, sweeper := Sweeper.empty, observed }
    Modifier.sweep { image, sweeper, observed } = .ok () done ∧
    (∀ file ∈ image.files,
      (file.sourceInfo = none ∨ ∀ touch ∈ touches, touch.file ≠ file.path) →
        file.without touches = file) ∧
    (∀ order, Visits order touches →
      image.sweptInOrder order = swept ∧
      ∀ file ∈ image.files, ∀ locations, file.sourceInfo = some locations →
        ∃ rest, (file.without touches).sourceInfo = some rest ∧
          (Touch.counts (order file.path) locations).sum + rest.length = locations.length) ∧
    Modifier.sweep done = .ok () done ∧
    Modifier.sweep { done with sweeper } = .ok () done := by
  intro sweeper swept done
  refine ⟨?_, fun file _ => File.without_eq_self, fun order horder => ⟨?_, ?_⟩, ?_, ?_⟩
  · rw [Modifier.sweep, sweepImage_touchAll]
  · exact Image.sweptInOrder_eq horder image
  · intro file _ locations hlocations
    refine ⟨locations.filter fun location => decide (location.Stays touches file.path), ?_, ?_⟩
    · rw [File.without, hlocations, Option.map_some]
    · rw [← Touch.removeAll_of_visits horder]
      exact Touch.sum_counts (order file.path) locations
  · show EStateM.Result.ok () { done with image := Sweeper.empty.sweepImage swept } = .ok () done
    rw [sweepImage_empty]
  · have hagain : (⟨swept.files.map (File.without touches)⟩ : Image) = swept := by
      simp only [swept, List.map_map, Function.comp_def, File.without_without]
    show EStateM.Result.ok () { done with image := sweeper.sweepImage swept } = .ok () done
    rw [sweepImage_touchAll, hagain]

/-- An exact touch and a subtree that overlap, visited in both orders: each time three locations of
the file go, and the file without touches keeps what it has. -/
theorem sweep_spec_overlapping :
    let exact : Touch := ⟨"a.proto", [8, 11], .exact⟩
    let subtree : Touch := ⟨"a.proto", [8], .subtree⟩
    let file : File := {
      name := some "a.proto"
      sourceInfo :=
        some [{ path := [] }, { path := [8] }, { path := [8, 11] }, { path := [8, 1] }] }
    let other : File := { name := some "b.proto", sourceInfo := some [{ path := [8] }] }
    let swept : Image := ⟨[{ file with sourceInfo := some [{ path := [] }] }, other]⟩
    Modifier.sweep
        { image := ⟨[file, other]⟩, sweeper := Sweeper.empty.touchAll [exact, subtree] } =
        .ok () { image := swept } ∧
      ∀ touches ∈ [[exact, subtree], [subtree, exact]],
        (⟨[file, other]⟩ : Image).sweptInOrder (fun path => touches.filter (·.file == path)) =
          swept ∧
        (Touch.counts touches [{ path := [] }, { path := [8] }, { path := [8, 11] },
          { path := [8, 1] }]).sum = 3 := by
  intro exact subtree file other swept
  have hspec := sweep_spec ⟨[file, other]⟩ [exact, subtree] []
  have hswept : (⟨[file, other].map (File.without [exact, subtree])⟩ : Image) = swept := by rfl
  rw [hswept] at hspec
  refine ⟨hspec.1, fun touches hmem => ?_⟩
  have hall : touches.Perm [exact, subtree] ∧ touches.filter (·.file == "a.proto") = touches := by
    rcases List.mem_cons.1 hmem with rfl | hmem
    · exact ⟨.refl _, rfl⟩
    · obtain rfl := List.mem_singleton.1 hmem
      exact ⟨.swap exact subtree [], rfl⟩
  have hvisits : Visits (fun path => touches.filter (·.file == path)) [exact, subtree] := by
    intro path touch
    rw [List.mem_filter, hall.1.mem_iff, beq_iff_eq]
  obtain ⟨horder, hcounts⟩ := hspec.2.2.1 _ hvisits
  obtain ⟨rest, hrest, hsum⟩ := hcounts file List.mem_cons_self _ rfl
  cases hrest
  rw [show file.path = "a.proto" from rfl, hall.2] at hsum
  exact ⟨horder, Nat.add_right_cancel hsum⟩

end Sweeper

end SchemaOptions
