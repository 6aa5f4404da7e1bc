import SchemaOptions.Proofs.Bytes
import SchemaOptions.Proofs.Work

/-!
# What work leaves alone

Whatever is done to an image, only two things of a file can ever become different: the managed
options, together with the block that holds them once it is there, and the source code information,
which can lose locations or be dropped (`Framed`). Each act keeps this frame (`Act.run_framed`),
hence so does all work (`Work.perform_framed`), and as paths and imports are within the frame, the
files stay an image.
-/

namespace SchemaOptions

/-- Whether source code information is what is left of some other: both are absent, or it holds some
of the other's locations in their order. -/
def LeftOf : (left whole : Option (List Location)) → Prop :=
  Option.Rel List.Sublist

namespace LeftOf

theorem refl : (info : Option (List Location)) → LeftOf info info
  | none => .none
  | some locations => .some (List.Sublist.refl locations)

theorem trans {first second third : Option (List Location)} (h : LeftOf second first)
    (h' : LeftOf third second) : LeftOf third first := by
  cases h with
  | none => exact h'
  | some hsub =>
    cases h' with
    | some hsub' => exact .some (hsub'.trans hsub)

theorem eq_none {left : Option (List Location)} (h : LeftOf left none) : left = none := by
  cases h with
  | none => rfl

end LeftOf

/-- What cannot become different between a file and what work made of it. The first argument tells
whether its source code information was dropped. -/
structure Framed (stripped : Bool) (old new : File) : Prop where
  /-- Everything but the block of options and the source code information is the same. -/
  declared : new = { old with options := new.options, sourceInfo := new.sourceInfo }
  /-- In the block all fields are the same that are not managed; an absent block counts as empty. -/
  unmanaged : new.optionsOrEmpty.unmanaged = old.optionsOrEmpty.unmanaged
  /-- A block stays. -/
  block : old.options.isSome → new.options.isSome
  dropped : stripped = true → new.sourceInfo = none
  locations : stripped = false → LeftOf new.sourceInfo old.sourceInfo

namespace Framed

variable {stripped after : Bool} {old middle new : File}

theorem refl (file : File) : Framed false file file where
  declared := rfl
  unmanaged := rfl
  block := id
  dropped := fun h => by cases h
  locations := fun _ => .refl file.sourceInfo

theorem trans (first : Framed stripped old middle) (second : Framed after middle new) :
    Framed (stripped || after) old new where
  declared := by rw [second.declared, first.declared]
  unmanaged := second.unmanaged.trans first.unmanaged
  block := second.block ∘ first.block
  dropped := by
    intro h
    cases after with
    | true => exact second.dropped rfl
    | false =>
      have hleft := second.locations rfl
      rw [Bool.or_false] at h
      rw [first.dropped h] at hleft
      exact hleft.eq_none
  locations := by
    intro h
    obtain ⟨hstripped, hafter⟩ := Bool.or_eq_false_iff.1 h
    exact (first.locations hstripped).trans (second.locations hafter)

theorem path_eq (frame : Framed stripped old new) : new.path = old.path := by
  rw [frame.declared]
  rfl

theorem imports_eq (frame : Framed stripped old new) : new.imports = old.imports := by
  rw [frame.declared]

/-- Edits of slots are within the frame. -/
theorem of_slotFrame {slots : List Slot} (frame : SlotFrame slots old new) :
    Framed false old new where
  declared := by rw [frame.declared]
  unmanaged := frame.unmanaged
  block := frame.block
  dropped := fun h => by cases h
  locations := fun _ => frame.sourceInfo_eq ▸ .refl old.sourceInfo

/-- A sweep is within the frame. -/
theorem sweepFile (sweeper : Sweeper) (file : File) :
    Framed false file (sweeper.sweepFile file) where
  declared := by
    rw [Sweeper.sweepFile_eq]
  unmanaged := rfl
  block := id
  dropped := fun h => by cases h
  locations := fun _ => by
    rw [Sweeper.sweepFile_eq]
    cases file.sourceInfo with
    | none => exact .none
    | some locations => exact .some List.filter_sublist

theorem stripSourceInfo (file : File) : Framed true file file.stripSourceInfo where
  declared := rfl
  unmanaged := rfl
  block := id
  dropped := fun _ => rfl
  locations := fun h => by cases h

end Framed

/-! ## Acts -/

namespace Act

/-- Whether an act drops the source code information of the file with a path. -/
def strips : Act → String → Bool
  | .strip, _ => true
  | .stripFile stripped, path => path == stripped
  | _, _ => false

theorem update_framed (index : Nat) (slot : Slot) (value : Option OptionValue)
    (workspace : Workspace) :
    List.Forall₂ (Framed false) workspace.image.files
      ((Call.update index slot value).run workspace).image.files := by
  cases hfile : workspace.image.files[index]? with
  | none =>
    have hrun : (Call.update index slot value).run workspace = workspace := by
      simp only [Call.run, Call.modifier, Modifier.update, hfile, leftBy]
    rw [hrun]
    exact List.forall₂_same.2 fun file _ => .refl file
  | some file =>
    rw [(Call.update_eq slot value hfile).2]
    exact forall₂_set Framed.refl hfile (.of_slotFrame (file.update_frame slot value))

/-- An act keeps the frame of each file. -/
theorem run_framed (act : Act) (workspace : Workspace) :
    List.Forall₂ (fun old new => Framed (act.strips old.path) old new) workspace.image.files
      (act.run workspace).image.files := by
  cases act with
  | make call =>
    cases call with
    | update index slot value => exact update_framed index slot value workspace
    | sweep =>
      show List.Forall₂ _ _ (workspace.image.files.map workspace.sweeper.sweepFile)
      exact List.forall₂_map_right_iff.2 (List.forall₂_same.2 fun file _ => .sweepFile _ file)
  | note touch => exact List.forall₂_same.2 fun file _ => .refl file
  | take sweeper => exact List.forall₂_same.2 fun file _ => .refl file
  | strip =>
    show List.Forall₂ _ _ (workspace.image.files.map File.stripSourceInfo)
    exact List.forall₂_map_right_iff.2 (List.forall₂_same.2 fun file _ => .stripSourceInfo file)
  | stripFile path =>
    show List.Forall₂ _ _ (workspace.image.files.map fun file =>
      if file.path = path then file.stripSourceInfo else file)
    refine List.forall₂_map_right_iff.2 (List.forall₂_same.2 fun file _ => ?_)
    by_cases hpath : file.path = path
    · rw [if_pos hpath, strips, beq_iff_eq.2 hpath]
      exact .stripSourceInfo file
    · rw [if_neg hpath, strips, beq_eq_false_iff_ne.2 hpath]
      exact .refl file

/-- Acts one after the other keep the frame. -/
theorem replay_framed (acts : List Act) (workspace : Workspace) :
    List.Forall₂ (fun old new => Framed (acts.any (·.strips old.path)) old new)
      workspace.image.files (replay acts workspace).image.files := by
  induction acts generalizing workspace with
  | nil => exact List.forall₂_same.2 fun file _ => .refl file
  | cons act rest ih =>
    refine forall₂_comp ?_ (act.run_framed workspace) (ih (act.run workspace))
    intro old middle new hfirst hrest
    rw [hfirst.path_eq] at hrest
    exact hfirst.trans hrest

end Act

/-! ## Work -/

/-- What related files have in common along lists. -/
theorem map_eq_of_forall₂ {β : Type} {relation : File → File → Prop} {f : File → β}
    (hf : ∀ old new, relation old new → f new = f old) {files others : List File}
    (h : List.Forall₂ relation files others) : others.map f = files.map f := by
  induction h with
  | nil => rfl
  | cons hfirst _ ih => rw [List.map_cons, List.map_cons, hf _ _ hfirst, ih]

/-- Files that are an image stay one under acts. -/
theorem Act.ofFiles_replay {image : Image} (h : Image.ofFiles image.files = .ok image)
    (acts : List Act) (sweeper : Sweeper) :
    Image.ofFiles (replay acts { image, sweeper }).image.files =
      .ok (replay acts { image, sweeper }).image := by
  have hframed := replay_framed acts { image, sweeper }
  exact Image.ofFiles_eq_ok_of_map h (map_eq_of_forall₂ (fun _ _ frame => frame.path_eq) hframed)
    (map_eq_of_forall₂ (fun _ _ frame => frame.imports_eq) hframed)

/-- An image that was built or decoded has passed the check of its files. -/
theorem Image.ofFiles_of_made {image : Image}
    (h : (∃ files, ofFiles files = .ok image) ∨ ∃ bytes, decode bytes = .ok image) :
    ofFiles image.files = .ok image := by
  rcases h with ⟨files, hfiles⟩ | ⟨bytes, hbytes⟩
  · obtain ⟨rfl, -⟩ := ofFiles_eq_ok_iff.1 hfiles
    exact hfiles
  · exact (storable_of_decode hbytes).1

namespace Work

/-- At each point of any work on an image its files are those of the start, one for one and within
their frames: only managed options differ, and locations are missing, all of them in the files whose
source code information was dropped by then. The paths are there and differ, and all imports are
members. -/
theorem perform_framed {image : Image}
    (himage : (∃ files, Image.ofFiles files = .ok image) ∨ ∃ bytes, Image.decode bytes = .ok image)
    (sweeper : Sweeper) (works : List Work) :
    let start : Workspace := { image, sweeper }
    let acts := actsInTurn works start
    perform works start = Act.replay acts start ∧
    ∀ n,
      let reached := (Act.replay (acts.take n) start).image
      List.Forall₂ (fun old new => Framed ((acts.take n).any (·.strips old.path)) old new)
        image.files reached.files ∧
      (∀ file ∈ reached.files, file.path ≠ "") ∧
      (reached.files.map File.path).Nodup ∧
      ∀ file ∈ reached.files, ∀ path ∈ file.imports, path ∈ reached.files.map File.path := by
  intro start acts
  refine ⟨perform_eq works start, fun n => ⟨Act.replay_framed (acts.take n) start, ?_⟩⟩
  have hreached := Act.ofFiles_replay (Image.ofFiles_of_made himage) (acts.take n) sweeper
  exact (Image.ofFiles_eq_ok_iff.1 hreached).2

/-- An update, and then a runner that sweeps and fails before it drops anything: the file is within
its frame and has lost one location. -/
theorem perform_framed_failing :
    let file : File := {
      name := some "a.proto"
      sourceInfo := some [{ path := [8] }, { path := [8, 11] }] }
    let new : File := {
      name := some "a.proto"
      options := some { goPackage := some "x" }
      sourceInfo := some [{ path := [8] }] }
    let works : List Work := [
      .single (.make (.update 0 (.text .goPackage) (some (.text "x")))),
      .nested [
        .single (.make .sweep),
        .check fun _ => some (.configuration .noJobs),
        .single .strip]]
    Image.ofFiles [file] = .ok ⟨[file]⟩ ∧
      (perform works { image := ⟨[file]⟩ }).image = ⟨[new]⟩ ∧ Framed false file new := by
  intro file new works
  have himage : Image.ofFiles [file] = .ok ⟨[file]⟩ := by rfl
  obtain ⟨hperform, hframed⟩ := perform_framed (.inl ⟨[file], himage⟩) Sweeper.empty works
  have hacts : actsInTurn works { image := ⟨[file]⟩ } =
      [.make (.update 0 (.text .goPackage) (some (.text "x"))), .make .sweep] := by rfl
  have hdone : (Act.replay (actsInTurn works { image := ⟨[file]⟩ }) { image := ⟨[file]⟩ }).image =
      ⟨[new]⟩ := by rfl
  refine ⟨himage, (congrArg Workspace.image hperform).trans hdone, ?_⟩
  have hfiles := (hframed 2).1
  rw [hacts] at hfiles hdone
  rw [List.take_of_length_le (Nat.le_refl 2), hdone] at hfiles
  cases hfiles with
  | cons hfirst _ => exact hfirst

end Work

end SchemaOptions
