import SchemaOptions.Proofs.Bytes
import SchemaOptions.Proofs.Directory
import SchemaOptions.Proofs.Settled

/-!
# Asking for the same modification again

A request that succeeds leaves bytes that decode to an image, and the pass of the same configuration
leaves this image as it is (`Directory.leaves_of_run`). So the same request made of these bytes,
wherever they are and wherever its output goes, succeeds and writes the same bytes again
(`second_pass_spec`).
-/

namespace SchemaOptions

/-! ## A pass over what can be stored -/

/-- What can be stored of a file is left by edits of slots. -/
theorem File.Storable.of_frame {slots : List Slot} {before after : File} (h : before.Storable)
    (frame : SlotFrame slots before after) : after.Storable := by
  refine h.of_declared ?_ frame.unmanaged
  rw [frame.declared]

/-- What can be stored of a file is left by a sweep. -/
theorem File.Storable.sweepFile {file : File} (h : file.Storable) (sweeper : Sweeper) :
    (sweeper.sweepFile file).Storable :=
  ⟨h.messages, h.enumerations, h.services, h.extensions, h.custom⟩

namespace Config

variable {config : Config}

theorem apply_eq_ok_iff {image after : Image} :
    config.apply image = .ok after ↔ ∃ modifiers done, config.build = .ok modifiers ∧
      Modifier.sequence modifiers { image } = .ok () done ∧ done.image = after := by
  unfold apply
  rw [bind_eq_ok]
  constructor
  · rintro ⟨modifiers, hbuild, h⟩
    cases hrun : Modifier.sequence modifiers { image } with
    | error e left =>
      rw [hrun] at h
      cases h
    | ok _ done =>
      rw [hrun] at h
      cases h
      exact ⟨modifiers, done, hbuild, hrun, rfl⟩
  · rintro ⟨modifiers, done, hbuild, hrun, rfl⟩
    refine ⟨modifiers, hbuild, ?_⟩
    rw [hrun]

/-- Applying a configuration twice is applying it once. -/
theorem apply_apply {image after : Image} (h : config.apply image = .ok after) :
    config.apply after = .ok after := by
  obtain ⟨modifiers, done, hbuild, hrun, rfl⟩ := apply_eq_ok_iff.1 h
  have hagain := sequence_again hbuild hrun modifiers.length
  rw [List.take_length] at hagain
  exact apply_eq_ok_iff.2 ⟨modifiers, _, hbuild, hagain, rfl⟩

/-- A configuration that has been applied to some image leaves the empty one alone. -/
theorem apply_nil {image after : Image} (h : config.apply image = .ok after) :
    config.apply ⟨[]⟩ = .ok ⟨[]⟩ := by
  obtain ⟨modifiers, done, hbuild, -, -⟩ := apply_eq_ok_iff.1 h
  obtain ⟨rules, hrules, rfl⟩ := build_eq_ok_iff.1 hbuild
  refine apply_eq_ok_iff.2 ⟨_, _, hbuild, (sequence_build_eq_ok_iff hrules [] _).2 ⟨?_, rfl⟩, rfl⟩
  intro file hmem
  cases hmem

/-- Applying a configuration to an image of storable files makes another. -/
theorem storable_of_apply {image after : Image} (h : config.apply image = .ok after)
    (himage : Image.ofFiles image.files = .ok image)
    (hfiles : ∀ file ∈ image.files, file.Storable) :
    Image.ofFiles after.files = .ok after ∧ ∀ file ∈ after.files, file.Storable := by
  obtain ⟨modifiers, done, hbuild, hrun, rfl⟩ := apply_eq_ok_iff.1 h
  obtain ⟨rules, hrules, rfl⟩ := build_eq_ok_iff.1 hbuild
  obtain ⟨-, rfl⟩ := (sequence_build_eq_ok_iff hrules image.files done).1 hrun
  constructor
  · refine Image.ofFiles_eq_ok_of_map himage ?_ ?_
    · rw [List.map_map]
      exact List.map_congr_left fun file _ => (editedAll_frame rules file).path_eq
    · rw [List.map_map]
      exact List.map_congr_left fun file _ => (editedAll_frame rules file).imports_eq
  · intro swept hmem
    obtain ⟨file, hfile, rfl⟩ := List.mem_map.1 hmem
    exact ((hfiles file hfile).of_frame (editedAll_frame rules file)).sweepFile _

end Config

/-! ## What a request comes to -/

theorem mapError_eq_ok_iff {ε ε' α : Type} {f : ε → ε'} {result : Except ε α} {a : α} :
    result.mapError f = .ok a ↔ result = .ok a := by
  cases result with
  | error e =>
    constructor
    · intro h
      cases h
    · intro h
      cases h
  | ok _ => simp only [Except.mapError, Except.ok.injEq]

theorem Image.load_eq_ok_iff {entryAt : String → Entry} {path : String} {image : Image} :
    load entryAt path = .ok image ↔
      ∃ content, entryAt path = .file content ∧ decode content = .ok image := by
  unfold load
  cases entryAt path with
  | file content =>
    simp only [Entry.bytes?, mapError_eq_ok_iff, Entry.file.injEq, exists_eq_left']
  | directory =>
    constructor
    · intro h
      cases h
    · rintro ⟨_, h, -⟩
      cases h
  | missing =>
    constructor
    · intro h
      cases h
    · rintro ⟨_, h, -⟩
      cases h

namespace Modification

variable {request : Modification} {entryAt : String → Entry}

/-- A request that succeeds has a configuration and an image, and the configuration makes of the
image what is to be written. -/
theorem outcome_eq_ok {outcome : Outcome} (h : request.outcome entryAt = .ok outcome) :
    ∃ config before after, request.config entryAt = .ok config ∧
      Image.load entryAt request.image = .ok before ∧ config.apply before = .ok after ∧
      outcome.file? = some (request.output, after.encode) := by
  obtain ⟨config, hconfig, hload⟩ := bind_eq_ok.1 h
  obtain ⟨before, hbefore, happly⟩ := bind_eq_ok.1 hload
  obtain ⟨after, hafter, houtcome⟩ := bind_eq_ok.1 happly
  cases houtcome
  exact ⟨config, before, after, hconfig, hbefore, mapError_eq_ok_iff.1 hafter, rfl⟩

theorem outcome_of_apply {config : Config} {before after : Image}
    (hconfig : request.config entryAt = .ok config)
    (hload : Image.load entryAt request.image = .ok before)
    (happly : config.apply before = .ok after) :
    ∃ outcome, request.outcome entryAt = .ok outcome ∧
      outcome.file? = some (request.output, after.encode) := by
  have hafter : (config.apply before).mapError CommandError.edit = .ok after :=
    mapError_eq_ok_iff.2 happly
  refine ⟨_, bind_eq_ok.2 ⟨config, hconfig, bind_eq_ok.2 ⟨before, hload, bind_eq_ok.2
    ⟨after, hafter, rfl⟩⟩⟩, rfl⟩

/-- The configuration of a request depends on what stands at one path at most. -/
theorem config_congr {other : String → Entry}
    (h : ∀ path, request.config? = some path → other path = entryAt path) :
    request.config other = request.config entryAt := by
  unfold config loadConfig
  cases hpath : request.config? with
  | none => rfl
  | some path => simp only [h path hpath]

end Modification

/-! ## Running a request -/

namespace Directory

variable {around : Surroundings} {directory after : Directory around}

/-- A request that comes to an error changes nothing. -/
theorem run_modify_of_error {request : Modification} {error : CommandError}
    (h : request.outcome directory.entryAt = .error error) :
    directory.run (.modify request) = (.failure error, directory) := by
  have hcommand : (Command.modify request).outcome directory.entryAt = .error error := h
  unfold run
  rw [hcommand]

/-- A request that comes to bytes is done if they can be written. -/
theorem run_modify_of_ok {request : Modification} {outcome : Outcome} {content : List UInt8}
    (h : request.outcome directory.entryAt = .ok outcome)
    (hfile : outcome.file? = some (request.output, content)) :
    directory.run (.modify request) =
      match directory.write? request.output content with
      | none => (.failure (.imageUnwritable request.output), directory)
      | some after => (.success outcome.text, after) := by
  have hcommand : (Command.modify request).outcome directory.entryAt = .ok outcome := h
  unfold run
  rw [hcommand]
  cases hwrite : directory.write? request.output content <;> simp only [hfile, hwrite]

/-- A request that succeeds comes to bytes that can be written to its output. -/
theorem run_modify_eq_success {request : Modification} {text : String}
    (h : directory.run (.modify request) = (.success text, after)) :
    ∃ config before image, request.config directory.entryAt = .ok config ∧
      Image.load directory.entryAt request.image = .ok before ∧ config.apply before = .ok image ∧
      directory.write? request.output image.encode = some after := by
  cases houtcome : request.outcome directory.entryAt with
  | error e =>
    rw [run_modify_of_error houtcome] at h
    cases h
  | ok outcome =>
    obtain ⟨config, before, image, hconfig, hload, happly, hfile⟩ :=
      Modification.outcome_eq_ok houtcome
    rw [run_modify_of_ok houtcome hfile] at h
    cases hwrite : directory.write? request.output image.encode with
    | none =>
      rw [hwrite] at h
      cases h
    | some last =>
      rw [hwrite] at h
      cases h
      exact ⟨config, before, image, hconfig, hload, happly, hwrite⟩

theorem run_modify_of_apply {request : Modification} {config : Config} {before image : Image}
    (hconfig : request.config directory.entryAt = .ok config)
    (hload : Image.load directory.entryAt request.image = .ok before)
    (happly : config.apply before = .ok image)
    (hwrite : directory.write? request.output image.encode = some after) :
    ∃ text, directory.run (.modify request) = (.success text, after) := by
  obtain ⟨outcome, houtcome, hfile⟩ := Modification.outcome_of_apply hconfig hload happly
  refine ⟨outcome.text, ?_⟩
  rw [run_modify_of_ok houtcome hfile, hwrite]

/-- What a request leaves is the bytes of an image about which its configuration has nothing to
do. -/
theorem leaves_of_run {request : Modification} {text : String}
    (h : directory.run (.modify request) = (.success text, after)) :
    ∃ config content image, request.config directory.entryAt = .ok config ∧
      after.entryAt request.output = .file content ∧ content.length ≤ maxContent ∧
      Image.decode content = .ok image ∧ config.apply image = .ok image ∧
      image.encode = content := by
  obtain ⟨config, before, image, hconfig, hload, happly, hwrite⟩ := run_modify_eq_success h
  obtain ⟨read, -, hdecode⟩ := Image.load_eq_ok_iff.1 hload
  obtain ⟨hbefore, hstorable⟩ := Image.storable_of_decode hdecode
  obtain ⟨himage, hfiles⟩ := Config.storable_of_apply happly hbefore hstorable
  obtain ⟨hlength, hentry | hdevice⟩ := entryAt_of_write? hwrite
  · have hsize : image.encode.length < 2 ^ 64 := by
      unfold maxContent UInt64.size at hlength
      omega
    exact ⟨config, image.encode, image, hconfig, hentry, hlength,
      Image.decode_encode himage hfiles hsize, Config.apply_apply happly, rfl⟩
  · -- a device gives nothing back, and no bytes are those of the empty image
    have hempty : Image.ofFiles (⟨[]⟩ : Image).files = .ok ⟨[]⟩ := rfl
    have hnone : Image.decode [] = .ok ⟨[]⟩ :=
      Image.decode_encode hempty (fun _ h => absurd h List.not_mem_nil) (by decide)
    exact ⟨config, [], ⟨[]⟩, hconfig, hdevice, Nat.zero_le _, hnone, Config.apply_nil happly, rfl⟩

end Directory

/-- A pass over what a pass made notes nothing at any point and leaves the image as it is. And a
request that succeeds, made again of what it left at its output, succeeds and writes the same bytes
again: to its output, or to any other path to which bytes can be written. -/
theorem second_pass_spec :
    (∀ (config : Config) (image : Image) (modifiers : List Modifier) (done : Workspace),
      config.build = .ok modifiers → Modifier.sequence modifiers { image } = .ok () done →
      ∀ steps, Modifier.sequence (modifiers.take steps) { image := done.image } =
        .ok () { image := done.image }) ∧
    ∀ (around : Surroundings) (directory after : Directory around) (request : Modification)
      (text : String), directory.run (.modify request) = (.success text, after) →
      ∀ (other : Directory around) (image output : String),
        other.entryAt image = after.entryAt request.output →
        (∀ path, request.config? = some path → other.entryAt path = directory.entryAt path) →
        (output = request.output ∨ (other.write? output []).isSome = true) →
        ∃ content text' last, after.entryAt request.output = .file content ∧
          other.write? output content = some last ∧
          other.run (.modify { request with image, output }) = (.success text', last) := by
  refine ⟨fun config image modifiers done hbuild hrun steps =>
    Config.sequence_again hbuild hrun steps, ?_⟩
  intro around directory after request text hrun other image output himage hconfig houtput
  obtain ⟨config, content, left, hleft, hentry, hlength, hdecode, happly, hencode⟩ :=
    Directory.leaves_of_run hrun
  have haccepts : around.accepts output = true := by
    obtain rfl | hsome := houtput
    · obtain ⟨_, _, _, -, -, -, hwrite⟩ := Directory.run_modify_eq_success hrun
      exact (Directory.isSome_write?_iff.1 (Option.isSome_of_eq_some hwrite)).2
    · exact (Directory.isSome_write?_iff.1 hsome).2
  have hwritable : (other.write? output content).isSome = true :=
    Directory.isSome_write?_iff.2 ⟨hlength, haccepts⟩
  obtain ⟨last, hlast⟩ := Option.isSome_iff_exists.1 hwritable
  have hagain : Modification.config { request with image, output } other.entryAt = .ok config :=
    (Modification.config_congr hconfig).trans hleft
  have hload : Image.load other.entryAt image = .ok left :=
    Image.load_eq_ok_iff.2 ⟨content, himage.trans hentry, hdecode⟩
  obtain ⟨text', hsecond⟩ :=
    Directory.run_modify_of_apply hagain hload happly (hencode.symm ▸ hlast)
  exact ⟨content, text', last, hentry, hlast, hsecond⟩

/-- A request for Go packages in an image of one file, made again of what it wrote. -/
theorem second_pass_spec_goPackage :
    let config : Config := { goPackage := some { importPrefix := "x" } }
    let first : Modification := { image := "in", output := "out", importPrefix? := some "x" }
    let second : Modification := { image := "out", output := "new", importPrefix? := some "x" }
    let directory : Directory .bare := ⟨[("in", [10, 3, 10, 1, 97])], ()⟩
    let written : List UInt8 := [10, 8, 10, 1, 97, 66, 3, 90, 1, 120]
    let after : Directory .bare := ⟨[("out", written), ("in", [10, 3, 10, 1, 97])], ()⟩
    (∃ modifiers done, config.build = .ok modifiers ∧
      Modifier.sequence modifiers { image := ⟨[{ name := some "a" }]⟩ } = .ok () done ∧
      Modifier.sequence modifiers { image := done.image } = .ok () { image := done.image }) ∧
    (∃ text, directory.run (.modify first) = (.success text, after)) ∧
    ∃ text last, after.write? "new" written = some last ∧
      after.run (.modify second) = (.success text, last) := by
  intro config first second directory written after
  have hentry : directory.entryAt "in" = .file [10, 3, 10, 1, 97] := by decide
  have hload : Image.load directory.entryAt "in" = .ok ⟨[{ name := some "a" }]⟩ :=
    Image.load_eq_ok_iff.2 ⟨_, hentry, by with_unfolding_all rfl⟩
  have happly : config.apply ⟨[{ name := some "a" }]⟩ =
      .ok ⟨[{ name := some "a", options := some { goPackage := some "x" } }]⟩ := by rfl
  have hencode : Image.encode ⟨[{ name := some "a", options := some { goPackage := some "x" } }]⟩ =
      written := by decide +kernel
  have hwrite : directory.write? "out" written = some after :=
    Directory.write?_of_name (by decide) (by decide)
  have hconfig : first.config directory.entryAt = .ok config := by rfl
  obtain ⟨text, hrun⟩ : ∃ text, directory.run (.modify first) = (.success text, after) :=
    Directory.run_modify_of_apply hconfig hload happly (hencode ▸ hwrite)
  obtain ⟨modifiers, done, hbuild, hdone, -⟩ := Config.apply_eq_ok_iff.1 happly
  refine ⟨⟨modifiers, done, hbuild, hdone, ?_⟩, ⟨text, hrun⟩, ?_⟩
  · have hagain := second_pass_spec.1 config _ modifiers done hbuild hdone modifiers.length
    rwa [List.take_length] at hagain
  · have hout : after.entryAt "out" = .file written := by decide
    have hagain : (after.write? "new" []).isSome = true :=
      Directory.isSome_write?_iff.2 ⟨Nat.zero_le _, by decide⟩
    obtain ⟨content, text', last, hcontent, hlast, hsecond⟩ := second_pass_spec.2 _ directory after
      first text hrun after "out" "new" rfl (fun _ h => by cases h) (.inr hagain)
    obtain rfl : written = content := by
      rw [hout] at hcontent
      exact Entry.file.inj hcontent
    exact ⟨text', last, hlast, hsecond⟩

end SchemaOptions
