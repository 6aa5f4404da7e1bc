import SchemaOptions.Proofs.Frame

/-!
# Encoding what work made of an image

The records in a file that are never looked into are within the frame of all work, so what was
decoded can be stored whatever was done to it (`Act.storable_replay`). Hence the bytes of an image
are decoded to that image, however it was come by from decoded bytes (`Work.decode_encode_perform`).
-/

namespace SchemaOptions

/-- Whatever is within the frame of a storable file is storable. -/
theorem File.Storable.of_framed {stripped : Bool} {old new : File} (h : old.Storable)
    (frame : Framed stripped old new) : new.Storable :=
  h.of_declared frame.declared frame.unmanaged

/-- A property that goes from each file to its partner goes from one list to the other. -/
theorem forall_mem_of_forall₂ {relation : File → File → Prop} {property : File → Prop}
    (hnext : ∀ old new, relation old new → property old → property new) {files others : List File}
    (h : List.Forall₂ relation files others) (hfiles : ∀ file ∈ files, property file) :
    ∀ file ∈ others, property file := by
  induction h with
  | nil =>
    intro file hmem
    cases hmem
  | cons hfirst _ ih =>
    obtain ⟨hold, hrest⟩ := List.forall_mem_cons.1 hfiles
    exact List.forall_mem_cons.2 ⟨hnext _ _ hfirst hold, ih hrest⟩

/-- Acts leave storable files. -/
theorem Act.storable_replay {workspace : Workspace}
    (h : ∀ file ∈ workspace.image.files, file.Storable) (acts : List Act) :
    ∀ file ∈ (replay acts workspace).image.files, file.Storable :=
  forall_mem_of_forall₂ (fun _ _ frame hold => hold.of_framed frame) (replay_framed acts workspace)
    h

namespace Work

/-- What any work made of an image that was decoded is decoded from its bytes, and encoding that
again gives the same bytes. The bytes must be so few that their number is one of 64 bits, as for any
that are in memory. -/
theorem decode_encode_perform {bytes : List UInt8} {image : Image}
    (himage : Image.decode bytes = .ok image) (sweeper : Sweeper) (works : List Work)
    (hsize : (perform works { image, sweeper }).image.encode.length < 2 ^ 64) :
    let reached := (perform works { image, sweeper }).image
    Image.decode reached.encode = .ok reached ∧
      (Image.decode reached.encode).map Image.encode = .ok reached.encode := by
  intro reached
  obtain ⟨hfiles, hstorable⟩ := Image.storable_of_decode himage
  have hperform : reached = _ := congrArg Workspace.image (perform_eq works { image, sweeper })
  have hreached : Image.ofFiles reached.files = .ok reached := by
    rw [hperform]
    exact Act.ofFiles_replay hfiles _ sweeper
  have hleft : ∀ file ∈ reached.files, file.Storable := by
    rw [hperform]
    exact Act.storable_replay hstorable _
  have hdecode := Image.decode_encode hreached hleft hsize
  exact ⟨hdecode, by rw [hdecode]; rfl⟩

/-- A file whose mode is a negative number that stands for none is given a Go package and swept, and
then a check fails. The number is kept, and so is the source code information, of which no location
is left. -/
theorem decode_encode_perform_unknownMode :
    let bytes : List UInt8 := [
      10, 24, 10, 1, 97, 66, 11, 72, 255, 255, 255, 255, 255, 255, 255, 255, 255, 1,
      74, 6, 10, 4, 10, 2, 8, 11]
    let image : Image := ⟨[{
      name := some "a"
      options := some { optimizeFor := some (-1) }
      sourceInfo := some [{ path := [8, 11] }] }]⟩
    let works : List Work := [
      .single (.make (.update 0 (.text .goPackage) (some (.text "x")))),
      .nested [
        .single (.make .sweep),
        .check fun _ => some (.configuration .noJobs),
        .single .strip]]
    let reached : Image := ⟨[{
      name := some "a"
      options := some { optimizeFor := some (-1), goPackage := some "x" }
      sourceInfo := some [] }]⟩
    let written : List UInt8 := [
      10, 21, 10, 1, 97, 66, 14, 72, 255, 255, 255, 255, 255, 255, 255, 255, 255, 1, 90, 1, 120,
      74, 0]
    Image.decode bytes = .ok image ∧ (perform works { image }).image = reached ∧
      reached.encode = written ∧ Image.decode written = .ok reached := by
  intro bytes image works reached written
  have himage : Image.decode bytes = .ok image := by with_unfolding_all rfl
  have hreached : (perform works { image }).image = reached := by rfl
  have hwritten : reached.encode = written := by decide +kernel
  have hsize : (perform works { image }).image.encode.length < 2 ^ 64 := by
    rw [hreached, hwritten]
    decide
  have hdecode := (decode_encode_perform himage Sweeper.empty works hsize).1
  rw [hreached, hwritten] at hdecode
  exact ⟨himage, hreached, hwritten, hdecode⟩

end Work

end SchemaOptions
