import Mathlib.Data.List.Nodup
import SchemaOptions.Proofs.SweepOrder
import SchemaOptions.Proofs.TouchSet

/-!
# Touches file by file

The touches since the last sweep can be kept in a table that has a set for each file with a touch. A
file comes into the table with its first touch, so no set in it is empty, and the files of the table
are those with a touch (`TouchMap.mem_touchedFiles`).

Such a table and a sweeper hold the same (`TouchMap.Holds`) if no touch was noted yet, and they
still do if a touch is noted in both (`TouchMap.Holds.touch`). While they do, they show the same and
a sweep removes the same, in whichever order the sets are gone through (`TouchMap.Holds.views`).
-/

namespace SchemaOptions

/-- What was touched in a file: addresses, each with a mode. -/
abbrev Marks := List (SourcePath × MatchMode)

namespace Marks

/-- The touches of a file. -/
def touches (file : String) (marks : Marks) : List Touch :=
  marks.map fun mark => ⟨file, mark.1, mark.2⟩

theorem mem_touches {file : String} {marks : Marks} {touch : Touch} :
    touch ∈ marks.touches file ↔ touch.file = file ∧ (touch.path, touch.mode) ∈ marks := by
  rw [touches, List.mem_map]
  constructor
  · rintro ⟨mark, hmem, rfl⟩
    exact ⟨rfl, hmem⟩
  · rintro ⟨rfl, hmem⟩
    exact ⟨_, hmem, rfl⟩

end Marks

/-- The touches since the last sweep, as sets by the paths of their files. -/
structure TouchMap where
  entries : List (String × Marks) := []
  ascending : entries.Pairwise fun entry next => entry.1 < next.1
  nodup : ∀ entry ∈ entries, entry.2.Nodup
  nonempty : ∀ entry ∈ entries, entry.2 ≠ []

namespace TouchMap

open SchemaOptions.Text

/-! ## Putting in a mark -/

/-- Puts a mark into the set of a file, which is new if the file has none. -/
def insertMark (file : String) (mark : SourcePath × MatchMode) :
    List (String × Marks) → List (String × Marks)
  | [] => [(file, [mark])]
  | entry :: rest =>
    if file < entry.1 then (file, [mark]) :: entry :: rest
    else if file = entry.1 then (file, entry.2.insert mark) :: rest
    else entry :: insertMark file mark rest

variable {file : String} {mark : SourcePath × MatchMode} {entries : List (String × Marks)}

/-- What holds of the entries that there were, of a new one and of one with the mark besides, holds
of the entries that there are. -/
theorem forall_insertMark {P : String × Marks → Prop} (hnew : P (file, [mark]))
    (hmore : ∀ marks, P (file, marks) → P (file, marks.insert mark))
    (h : ∀ entry ∈ entries, P entry) : ∀ entry ∈ insertMark file mark entries, P entry := by
  induction entries with
  | nil => exact List.forall_mem_singleton.2 hnew
  | cons first rest ih =>
    obtain ⟨hfirst, hrest⟩ := List.forall_mem_cons.1 h
    rw [insertMark]
    split
    · exact List.forall_mem_cons.2 ⟨hnew, h⟩
    · split
      · rename_i heq
        exact List.forall_mem_cons.2 ⟨hmore _ (heq ▸ hfirst), hrest⟩
      · exact List.forall_mem_cons.2 ⟨hfirst, ih hrest⟩

theorem ascending_insertMark (h : entries.Pairwise fun entry next => entry.1 < next.1) :
    (insertMark file mark entries).Pairwise fun entry next => entry.1 < next.1 := by
  induction entries with
  | nil => exact List.pairwise_singleton _ _
  | cons first rest ih =>
    obtain ⟨hfirst, hrest⟩ := List.pairwise_cons.1 h
    rw [insertMark]
    split
    · rename_i hlt
      exact List.pairwise_cons.2
        ⟨List.forall_mem_cons.2 ⟨hlt, fun entry hmem => hlt.trans (hfirst entry hmem)⟩, h⟩
    · split
      · rename_i heq
        exact List.pairwise_cons.2 ⟨fun entry hmem => heq ▸ hfirst entry hmem, hrest⟩
      · rename_i hnot hne
        have hlt : first.1 < file := lt_of_le_of_ne (not_lt.1 hnot) (Ne.symm hne)
        exact List.pairwise_cons.2 ⟨forall_insertMark hlt (fun _ _ => hlt) hfirst, ih hrest⟩

/-- The touches of entries. -/
def touchesIn (entries : List (String × Marks)) : List Touch :=
  entries.flatMap fun entry => entry.2.touches entry.1

theorem mem_touchesIn {touch : Touch} :
    touch ∈ touchesIn entries ↔
      ∃ marks, (touch.file, marks) ∈ entries ∧ (touch.path, touch.mode) ∈ marks := by
  simp only [touchesIn, List.mem_flatMap, Marks.mem_touches]
  constructor
  · rintro ⟨⟨file, marks⟩, hentry, rfl, hmark⟩
    exact ⟨marks, hentry, hmark⟩
  · rintro ⟨marks, hentry, hmark⟩
    exact ⟨_, hentry, rfl, hmark⟩

theorem mem_touchesIn_cons {touch : Touch} (entry : String × Marks)
    (rest : List (String × Marks)) :
    touch ∈ touchesIn (entry :: rest) ↔
      touch.file = entry.1 ∧ (touch.path, touch.mode) ∈ entry.2 ∨ touch ∈ touchesIn rest := by
  rw [touchesIn, List.flatMap_cons, List.mem_append, Marks.mem_touches, touchesIn]

/-- One touch more is there, and no other. -/
theorem mem_touchesIn_insertMark {touch : Touch} :
    touch ∈ touchesIn (insertMark file mark entries) ↔
      touch = ⟨file, mark.1, mark.2⟩ ∨ touch ∈ touchesIn entries := by
  have htouch : touch = ⟨file, mark.1, mark.2⟩ ↔
      touch.file = file ∧ (touch.path, touch.mode) = mark := by
    obtain ⟨⟩ := touch
    simp only [Touch.mk.injEq, Prod.ext_iff]
  induction entries with
  | nil => rw [insertMark, mem_touchesIn_cons, List.mem_singleton, htouch]
  | cons first rest ih =>
    rw [insertMark]
    split
    · rw [mem_touchesIn_cons, List.mem_singleton, htouch]
    · split
      · rename_i heq
        rw [mem_touchesIn_cons, mem_touchesIn_cons, List.mem_insert_iff, and_or_left, or_assoc,
          htouch, heq]
      · -- the mark goes in behind an entry of another file
        rw [mem_touchesIn_cons, mem_touchesIn_cons]
        exact (or_congr_right ih).trans or_left_comm

/-! ## The table -/

/-- The table without touches. -/
def empty : TouchMap where
  ascending := .nil
  nodup := nofun
  nonempty := nofun

/-- Notes a touch. -/
def touch (map : TouchMap) (touch : Touch) : TouchMap where
  entries := insertMark touch.file (touch.path, touch.mode) map.entries
  ascending := ascending_insertMark map.ascending
  nodup := forall_insertMark (List.nodup_singleton _) (fun _ h => h.insert) map.nodup
  nonempty := forall_insertMark (List.cons_ne_nil _ _)
    (fun _ _ => List.ne_nil_of_mem List.mem_insert_self) map.nonempty

/-- Notes touches one after the other. -/
def touchAll (map : TouchMap) (touches : List Touch) : TouchMap :=
  touches.foldl TouchMap.touch map

/-- The set of a file. -/
def get? (map : TouchMap) (file : String) : Option Marks :=
  map.entries.lookup file

/-- The number of touches: the sizes of all sets together. -/
def pending (map : TouchMap) : Nat :=
  (map.entries.map fun entry => entry.2.length).sum

/-- Whether an element was touched, in whichever mode. -/
def isTouched (map : TouchMap) (file : String) (path : SourcePath) : Bool :=
  (map.get? file).any fun marks => marks.any (·.1 == path)

/-- The files with a set, in ascending order. -/
def touchedFiles (map : TouchMap) : List String :=
  map.entries.map Prod.fst

/-- A file without the locations that its touches name; a file without a set is passed over. -/
def sweepFile (map : TouchMap) (file : File) : File :=
  match map.get? file.path with
  | none => file
  | some marks =>
    { file with
      sourceInfo := file.sourceInfo.map fun info =>
        (Touch.removeAll (marks.touches file.path) info).rest }

/-- An image without the locations that the touches of its files name; without touches there is
nothing to do. -/
def sweepImage (map : TouchMap) (image : Image) : Image :=
  if map.entries.isEmpty then image else ⟨image.files.map map.sweepFile⟩

/-! ## What is in the table -/

variable (map : TouchMap)

/-- A file has one set at most. -/
theorem get?_eq_some_iff {marks : Marks} :
    map.get? file = some marks ↔ (file, marks) ∈ map.entries := by
  rw [get?, List.lookup_eq_some_iff]
  constructor
  · rintro ⟨before, after, heq, -⟩
    exact heq ▸ List.mem_append_right _ List.mem_cons_self
  · intro hmem
    obtain ⟨before, after, heq⟩ := List.append_of_mem hmem
    have hsplit := List.pairwise_append.1 (heq ▸ map.ascending)
    refine ⟨before, after, heq, fun entry hentry => bne_iff_ne.2 (Ne.symm (ne_of_lt ?_))⟩
    exact hsplit.2.2 entry hentry _ List.mem_cons_self

/-- The touches of the table, each of them once. -/
theorem nodup_touchesIn : (touchesIn map.entries).Nodup := by
  refine List.nodup_flatMap.2 ⟨fun entry hentry => ?_, ?_⟩
  · refine (map.nodup entry hentry).map fun mark other heq => ?_
    exact Prod.ext (congrArg Touch.path heq) (congrArg Touch.mode heq)
  · refine map.ascending.imp fun hlt touch hfirst hnext => ?_
    have heq := (Marks.mem_touches.1 hfirst).1.symm.trans (Marks.mem_touches.1 hnext).1
    exact absurd heq (ne_of_lt hlt)

theorem pending_eq_length : map.pending = (touchesIn map.entries).length := by
  simp only [pending, touchesIn, List.length_flatMap, Marks.touches, List.length_map]

theorem isTouched_iff {path : SourcePath} :
    map.isTouched file path = true ↔ ∃ mode, Touch.mk file path mode ∈ touchesIn map.entries := by
  simp only [isTouched, Option.any_eq_true, get?_eq_some_iff, List.any_eq_true, beq_iff_eq,
    mem_touchesIn]
  constructor
  · rintro ⟨marks, hentry, mark, hmark, rfl⟩
    exact ⟨mark.2, marks, hentry, hmark⟩
  · rintro ⟨mode, marks, hentry, hmark⟩
    exact ⟨marks, hentry, _, hmark, rfl⟩

/-- The files of the table are those with a touch. -/
theorem mem_touchedFiles :
    file ∈ map.touchedFiles ↔ ∃ touch ∈ touchesIn map.entries, touch.file = file := by
  simp only [touchedFiles, List.mem_map, mem_touchesIn]
  constructor
  · rintro ⟨⟨file, marks⟩, hentry, rfl⟩
    obtain ⟨mark, hmark⟩ := List.exists_mem_of_ne_nil _ (map.nonempty _ hentry)
    exact ⟨⟨file, mark.1, mark.2⟩, ⟨marks, hentry, hmark⟩, rfl⟩
  · rintro ⟨touch, ⟨marks, hentry, -⟩, rfl⟩
    exact ⟨_, hentry, rfl⟩

/-- The touches of a file in the table. -/
def touchesOf (map : TouchMap) (file : String) : List Touch :=
  ((map.get? file).getD []).touches file

theorem visits_touchesOf : Visits map.touchesOf (touchesIn map.entries) := by
  intro file touch
  simp only [touchesOf, Marks.mem_touches, mem_touchesIn]
  constructor
  · rintro ⟨rfl, hmark⟩
    cases hmarks : map.get? touch.file with
    | none =>
      rw [hmarks] at hmark
      cases hmark
    | some marks =>
      rw [hmarks] at hmark
      exact ⟨⟨marks, map.get?_eq_some_iff.1 hmarks, hmark⟩, rfl⟩
  · rintro ⟨⟨marks, hentry, hmark⟩, rfl⟩
    rw [map.get?_eq_some_iff.2 hentry]
    exact ⟨rfl, hmark⟩

/-- A file that is passed over has no touch, so nothing of it would have gone. -/
theorem sweepFile_eq (file : File) :
    map.sweepFile file = file.without (touchesIn map.entries) := by
  have hvisits := Touch.removeAll_of_visits map.visits_touchesOf file.path
  unfold sweepFile
  cases hmarks : map.get? file.path with
  | none =>
    refine (File.without_eq_self (.inr fun touch hmem hfile => ?_)).symm
    obtain ⟨marks, hentry, -⟩ := mem_touchesIn.1 hmem
    cases hmarks.symm.trans (map.get?_eq_some_iff.2 (hfile ▸ hentry))
  | some marks =>
    simp only [touchesOf, hmarks, Option.getD_some] at hvisits
    simp only [hvisits]
    rfl

theorem sweepImage_eq (image : Image) :
    map.sweepImage image = ⟨image.files.map (File.without (touchesIn map.entries))⟩ := by
  have hfiles : map.sweepFile = File.without (touchesIn map.entries) := funext map.sweepFile_eq
  rw [← hfiles, sweepImage]
  split
  · rename_i hnone
    have hkeep : map.sweepFile = id := by
      rw [hfiles, List.isEmpty_iff.1 hnone]
      exact funext fun file => File.without_eq_self (.inr nofun)
    rw [hkeep, List.map_id]
  · rfl

/-! ## Holding the same touches -/

/-- Whether a table and a sweeper hold the same touches. -/
def Holds (map : TouchMap) (sweeper : Sweeper) : Prop :=
  ∀ touch, touch ∈ touchesIn map.entries ↔ touch ∈ sweeper.touches

variable {map : TouchMap} {sweeper : Sweeper}

theorem holds_empty : empty.Holds .empty :=
  fun _ => Iff.rfl

/-- A touch that is noted in both is in both. -/
theorem Holds.touch (h : map.Holds sweeper) (noted : Touch) :
    (map.touch noted).Holds (sweeper.touch noted) := by
  intro touch
  rw [TouchMap.touch, mem_touchesIn_insertMark, Sweeper.mem_touches_touch, h]

theorem Holds.touchAll (h : map.Holds sweeper) (noted : List Touch) :
    (map.touchAll noted).Holds (sweeper.touchAll noted) := by
  induction noted generalizing map sweeper with
  | nil => exact h
  | cons first rest ih => exact ih (h.touch first)

/-- A table and a sweeper that hold the same touches show the same: how many there are, which
elements were touched and in which files; and a sweep removes the same. -/
theorem Holds.views (h : map.Holds sweeper) :
    map.pending = sweeper.pending ∧ map.isTouched = sweeper.isTouched ∧
      map.touchedFiles = sweeper.touchedFiles ∧ map.sweepImage = sweeper.sweepImage := by
  refine ⟨?_, ?_, ?_, ?_⟩
  · rw [pending_eq_length, Sweeper.pending]
    exact ((List.perm_ext_iff_of_nodup map.nodup_touchesIn sweeper.nodup).2 h).length_eq
  · funext file path
    rw [Bool.eq_iff_iff, isTouched_iff, Sweeper.isTouched_iff]
    exact exists_congr fun mode => h _
  · refine Sweeper.eq_of_ascending ?_ (sweeper.touchedFiles_ascending.imp utf8Bytes_lt_of_lt)
      fun file => ?_
    · exact (List.pairwise_map.2 map.ascending).imp utf8Bytes_lt_of_lt
    · rw [mem_touchedFiles, Sweeper.mem_touchedFiles]
      exact exists_congr fun touch => and_congr_left' (h touch)
  · funext image
    have hvisits : Visits sweeper.touchesOf (touchesIn map.entries) := by
      intro path touch
      rw [Sweeper.touchesOf, List.mem_filter, beq_iff_eq, h]
    rw [sweepImage_eq, sweeper.sweepImage_eq_sweptInOrder, Image.sweptInOrder_eq hvisits]

/-- Touches show and are swept as if they were kept file by file, and the files with a touch are
those with a set that is not empty. -/
theorem views_touchAll (calls : List Touch) :
    let map := TouchMap.empty.touchAll calls
    let sweeper := Sweeper.empty.touchAll calls
    (map.pending = sweeper.pending ∧ map.isTouched = sweeper.isTouched ∧
      map.touchedFiles = sweeper.touchedFiles ∧ map.sweepImage = sweeper.sweepImage) ∧
    ∀ file, file ∈ sweeper.touchedFiles ↔ ∃ marks, map.get? file = some marks ∧ marks ≠ [] := by
  intro map sweeper
  have hviews := (holds_empty.touchAll calls).views
  refine ⟨hviews, fun file => ?_⟩
  rw [← hviews.2.2.1, touchedFiles, List.mem_map]
  constructor
  · rintro ⟨⟨file, marks⟩, hentry, rfl⟩
    exact ⟨marks, map.get?_eq_some_iff.2 hentry, map.nonempty _ hentry⟩
  · rintro ⟨marks, hmarks, -⟩
    exact ⟨_, map.get?_eq_some_iff.1 hmarks, rfl⟩

end TouchMap

end SchemaOptions
