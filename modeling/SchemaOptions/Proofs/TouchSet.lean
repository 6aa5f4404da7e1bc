import Mathlib.Data.Finset.Card
import Mathlib.Data.String.Basic
import SchemaOptions.Edit.Modifier
import SchemaOptions.Proofs.ByteOrder
import SchemaOptions.Proofs.Sweep
import SchemaOptions.Proofs.Touched

/-!
# The sweeper as a set

Touches are counted, looked up and listed by file, and they are swept. All of these are views of one
set (`Sweeper.Shows`), that of the touches since the last sweep. So they agree with each other, and
neither the order of the touches nor how often each was noted can be seen
(`Sweeper.shows_touches_noted`).
-/

namespace SchemaOptions

open SchemaOptions.Text

namespace Sweeper

variable {sweeper other : Sweeper} {touches : Finset Touch}

/-! ## The views of a set -/

/-- What a sweeper shows of the touches since the last sweep: only which of them there are. -/
structure Shows (sweeper : Sweeper) (touches : Finset Touch) : Prop where
  pending : sweeper.pending = touches.card
  isTouched : ∀ file path,
    sweeper.isTouched file path = true ↔ ∃ mode, Touch.mk file path mode ∈ touches
  /-- Files are listed in the order of the bytes of their paths, each of them once. -/
  ascending : sweeper.touchedFiles.Pairwise fun file next => utf8Bytes file < utf8Bytes next
  mem_touchedFiles : ∀ file, file ∈ sweeper.touchedFiles ↔ ∃ touch ∈ touches, touch.file = file
  /-- No file is listed without a touch, and none with a touch is missing. -/
  pending_eq_zero : sweeper.pending = 0 ↔ sweeper.touchedFiles = []

theorem isTouched_iff {file : String} {path : SourcePath} :
    sweeper.isTouched file path = true ↔ ∃ mode, Touch.mk file path mode ∈ sweeper.touches := by
  simp only [isTouched, List.any_eq_true, Bool.and_eq_true, beq_iff_eq]
  constructor
  · rintro ⟨touch, hmem, rfl, rfl⟩
    exact ⟨touch.mode, hmem⟩
  · rintro ⟨mode, hmem⟩
    exact ⟨_, hmem, rfl, rfl⟩

/-- The listed files ascend strictly, as texts. -/
theorem touchedFiles_ascending (sweeper : Sweeper) : sweeper.touchedFiles.Pairwise (· < ·) := by
  have hle : sweeper.touchedFiles.Pairwise fun file next => decide (file ≤ next) = true := by
    refine List.pairwise_mergeSort ?_ ?_ _
    · intro a b c hab hbc
      exact decide_eq_true (le_trans (of_decide_eq_true hab) (of_decide_eq_true hbc))
    · intro a b
      rw [Bool.or_eq_true, decide_eq_true_iff, decide_eq_true_iff]
      exact le_total a b
  have hne : sweeper.touchedFiles.Pairwise (· ≠ ·) := sweeper.nodup_touchedFiles
  exact (hle.and hne).imp fun ⟨hle, hne⟩ => lt_of_le_of_ne (of_decide_eq_true hle) hne

theorem pending_eq_zero_iff : sweeper.pending = 0 ↔ sweeper.touchedFiles = [] := by
  rw [pending, List.length_eq_zero_iff, List.eq_nil_iff_forall_not_mem,
    List.eq_nil_iff_forall_not_mem]
  constructor
  · intro hnone file hfile
    obtain ⟨touch, hmem, -⟩ := mem_touchedFiles.1 hfile
    exact hnone touch hmem
  · intro hnone touch hmem
    exact hnone touch.file (mem_touchedFiles.2 ⟨touch, hmem, rfl⟩)

/-- A sweeper shows the set of its touches. -/
theorem shows_toFinset (sweeper : Sweeper) : sweeper.Shows sweeper.touches.toFinset where
  pending := (List.toFinset_card_of_nodup sweeper.nodup).symm
  isTouched file path := by simp only [isTouched_iff, List.mem_toFinset]
  ascending := sweeper.touchedFiles_ascending.imp utf8Bytes_lt_of_lt
  mem_touchedFiles file := by simp only [Sweeper.mem_touchedFiles, List.mem_toFinset]
  pending_eq_zero := pending_eq_zero_iff

/-- Touches that were noted show as the set of them. -/
theorem shows_touchAll (calls : List Touch) :
    (Sweeper.empty.touchAll calls).Shows calls.toFinset := by
  have htouches : (Sweeper.empty.touchAll calls).touches.toFinset = calls.toFinset := by
    ext touch
    simp only [List.mem_toFinset, mem_touches_touchAll, touches_empty, List.not_mem_nil, or_false]
  have hshows := (Sweeper.empty.touchAll calls).shows_toFinset
  rwa [htouches] at hshows

/-! ## Sweepers that show the same -/

/-- Lists that ascend strictly are equal if they have the same members. -/
theorem eq_of_ascending {names others : List String}
    (h : names.Pairwise fun a b => utf8Bytes a < utf8Bytes b)
    (hothers : others.Pairwise fun a b => utf8Bytes a < utf8Bytes b)
    (hmem : ∀ name, name ∈ names ↔ name ∈ others) : names = others := by
  have hasymm {name next : String} (hlt : utf8Bytes name < utf8Bytes next) :
      ¬utf8Bytes next < utf8Bytes name := List.lt_asymm hlt
  have hnodup {row : List String} (hrow : row.Pairwise fun a b => utf8Bytes a < utf8Bytes b) :
      row.Nodup := by
    refine hrow.imp fun hlt heq => ?_
    subst heq
    exact hasymm hlt hlt
  have hperm : names.Perm others :=
    (List.perm_ext_iff_of_nodup (hnodup h) (hnodup hothers)).2 hmem
  exact hperm.eq_of_pairwise (fun _ _ _ _ hab hba => absurd hba (hasymm hab)) h hothers

/-- What is shown is determined by the set. -/
theorem Shows.same (h : sweeper.Shows touches) (hother : other.Shows touches) :
    other.pending = sweeper.pending ∧ other.isTouched = sweeper.isTouched ∧
      other.touchedFiles = sweeper.touchedFiles := by
  refine ⟨hother.pending.trans h.pending.symm, ?_, ?_⟩
  · funext file path
    exact Bool.eq_iff_iff.2 ((hother.isTouched file path).trans (h.isTouched file path).symm)
  · exact eq_of_ascending hother.ascending h.ascending fun file =>
      (hother.mem_touchedFiles file).trans (h.mem_touchedFiles file).symm

/-- A sweep leaves the sweeper as if it were new. What is noted after it shows as the set of these
touches. If they are noted in another order, or some of them again, the same is shown, and a later
sweep of any image comes to the same. -/
theorem shows_touches_noted (earlier : Workspace) (calls : List Touch) :
    ∃ start : Workspace, Modifier.sweep earlier = .ok () start ∧ start.sweeper = Sweeper.empty ∧
      let sweeper := start.sweeper.touchAll calls
      sweeper.Shows calls.toFinset ∧
        ∀ others : List Touch, (∀ touch, touch ∈ others ↔ touch ∈ calls) →
          let again := start.sweeper.touchAll others
          again.pending = sweeper.pending ∧ again.isTouched = sweeper.isTouched ∧
            again.touchedFiles = sweeper.touchedFiles ∧
            ∀ image observed, ∃ swept : Workspace, swept.sweeper = Sweeper.empty ∧
              Modifier.sweep { image, sweeper, observed } = .ok () swept ∧
              Modifier.sweep { image, sweeper := again, observed } = .ok () swept := by
  refine ⟨_, rfl, rfl, ?_⟩
  intro sweeper
  refine ⟨shows_touchAll calls, fun others hsame => ?_⟩
  intro again
  have hset : others.toFinset = calls.toFinset := by
    ext touch
    rw [List.mem_toFinset, List.mem_toFinset, hsame]
  obtain ⟨hpending, htouched, hfiles⟩ := (shows_touchAll calls).same (hset ▸ shows_touchAll others)
  refine ⟨hpending, htouched, hfiles, fun image observed => ?_⟩
  have himage : again.sweepImage image = sweeper.sweepImage image := by
    refine sweepImage_congr (fun touch => ?_) image
    rw [mem_touches_touchAll, mem_touches_touchAll, hsame]
  refine ⟨⟨sweeper.sweepImage image, Sweeper.empty, observed⟩, rfl, rfl, ?_⟩
  simp only [Modifier.sweep, himage]

/-- The later touch is noted first, and once more. -/
theorem shows_touches_noted_again :
    let calls : List Touch := [⟨"b", [8, 11], .exact⟩, ⟨"a", [8], .subtree⟩]
    let others : List Touch := [⟨"a", [8], .subtree⟩, ⟨"b", [8, 11], .exact⟩, ⟨"a", [8], .subtree⟩]
    (∀ touch, touch ∈ others ↔ touch ∈ calls) ∧
      (Sweeper.empty.touchAll others).pending = 2 ∧
      (Sweeper.empty.touchAll others).touchedFiles =
        (Sweeper.empty.touchAll calls).touchedFiles := by
  intro calls others
  have hsame (touch : Touch) : touch ∈ others ↔ touch ∈ calls := by
    simp only [calls, others, List.mem_cons, List.not_mem_nil, or_false]
    tauto
  obtain ⟨start, -, hstart, hspec⟩ := shows_touches_noted { image := ⟨[]⟩ } calls
  rw [hstart] at hspec
  obtain ⟨hpending, -, hfiles, -⟩ := hspec.2 others hsame
  exact ⟨hsame, hpending.trans hspec.1.pending, hfiles⟩

end Sweeper

end SchemaOptions
