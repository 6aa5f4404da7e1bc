import SchemaOptions.Proofs.Again
import SchemaOptions.Proofs.Effect
import SchemaOptions.Proofs.Json.RoundTrip

/-!
# What an inspection tells

An inspection prints a JSON text. A reader of JSON finds in it one entry for every file of the
image, in order, and in the entry what there is to tell of the file and nothing else
(`File.IsTold`). So nothing that is told gets lost: files of which the same is told have the same
path, the same package and the same options as far as these can be read (`File.IsTold.looksLike`).
-/

namespace SchemaOptions

open SchemaOptions.Json

/-! ## What is told of a file -/

/-- A value of an option in a document. A mode is told by its name. -/
def OptionValue.document : OptionValue → Document
  | .text s => .text s
  | .flag b => .flag b
  | .mode m => .text m.name

/-- Whether the option of a file with a name is set and reads as a value. -/
def File.Reads (file : File) (name : String) (value : Document) : Prop :=
  ∃ (slot : Slot) (reading : OptionValue),
    slot.name = name ∧ file.readSlot slot = some reading ∧ reading.document = value

/-- Whether an entry tells of a file its path, its package, whether it is well known, and which
options are set to what, in the order of their names, each of them once; and nothing else. -/
def File.IsTold (file : File) (entry : Document) : Prop :=
  ∃ options : List (String × Document),
    entry = .object [
      ("options", .object options),
      ("package", .text (file.package.getD "")),
      ("path", .text file.path),
      ("well_known", .flag file.isWellKnown)] ∧
    (options.map Prod.fst).Pairwise (· < ·) ∧
    ∀ name value, (name, value) ∈ options ↔ file.Reads name value

/-- Whether two files are the same to an inspection. -/
structure File.LooksLike (file other : File) : Prop where
  path : file.path = other.path
  packageName : file.packageName = other.packageName
  isWellKnown : file.isWellKnown = other.isWellKnown
  readSlot : ∀ slot, file.readSlot slot = other.readSlot slot

/-! ## Options -/

/-- Different slots have different names. -/
theorem Slot.name_injective {slot other : Slot} (h : slot.name = other.name) : slot = other := by
  have hnames : (all.map name).Nodup := by decide
  exact List.inj_on_of_nodup_map hnames (mem_all slot) (mem_all other) h

theorem Slot.kind_of_read {slot : Slot} {options : FileOptions} {value : OptionValue}
    (h : slot.read options = some value) : value.kind = slot.kind := by
  cases slot
  all_goals
    obtain ⟨_, -, rfl⟩ := Option.map_eq_some_iff.1 h
    rfl

/-- Values of one kind are told apart. -/
theorem OptionValue.document_injective {value other : OptionValue} (hkind : value.kind = other.kind)
    (h : value.document = other.document) : value = other := by
  cases value <;> cases other <;> cases hkind
  case text.text => cases h; rfl
  case flag.flag => cases h; rfl
  case mode.mode m n => revert h; cases m <;> cases n <;> simp [document, OptimizeMode.name]

theorem OptionValue.document_summary (value : OptionValue) :
    value.summary.document = value.document := by
  cases value <;> rfl

/-- The options that are set in a block, as they stand in a summary. -/
def FileOptions.told (options : FileOptions) : List (String × Document) :=
  Slot.alphabetical.filterMap fun slot =>
    (slot.read options).map fun value => (slot.name, value.document)

theorem FileOptions.document_summary (options : FileOptions) :
    options.summary.document = .object options.told := by
  rw [summary, JsonValue.document, JsonValue.memberDocuments_eq_map, told, List.map_filterMap]
  simp only [Option.map_map, Function.comp_def, OptionValue.document_summary]

theorem File.mem_told {file : File} {name : String} {value : Document} :
    (name, value) ∈ file.optionsOrEmpty.told ↔ file.Reads name value := by
  simp only [FileOptions.told, List.mem_filterMap, Option.map_eq_some_iff, Prod.mk.injEq,
    Slot.mem_alphabetical, true_and, File.Reads, readSlot_eq]
  constructor
  · rintro ⟨slot, reading, hread, hname, hvalue⟩
    exact ⟨slot, reading, hname, hread, hvalue⟩
  · rintro ⟨slot, reading, hname, hread, hvalue⟩
    exact ⟨slot, reading, hread, hname, hvalue⟩

/-- The names of the options that are set are some of those of the slots, in their order. -/
theorem FileOptions.keys_told_sublist (options : FileOptions) :
    (options.told.map Prod.fst).Sublist (Slot.alphabetical.map Slot.name) := by
  unfold told
  induction Slot.alphabetical with
  | nil => exact .slnil
  | cons slot rest ih =>
    rw [List.map_cons, List.filterMap_cons]
    cases slot.read options with
    | none => exact ih.cons _
    | some value => exact ih.cons_cons _

theorem FileOptions.ascending_told (options : FileOptions) :
    (options.told.map Prod.fst).Pairwise (· < ·) := by
  have hnames : (Slot.alphabetical.map Slot.name).Pairwise (· < ·) := by decide
  exact hnames.sublist options.keys_told_sublist

/-! ## Entries -/

namespace File

variable {file other : File} {entry : Document}

/-- The summary of a file tells of the file. -/
theorem isTold_summary (file : File) : file.IsTold file.summary.document := by
  refine ⟨file.optionsOrEmpty.told, ?_, FileOptions.ascending_told _, fun _ _ => mem_told⟩
  rw [summary, JsonValue.document, JsonValue.memberDocuments_eq_map]
  simp only [List.map_cons, List.map_nil, FileOptions.document_summary]
  rfl

theorem kind_of_readSlot {slot : Slot} {reading : OptionValue}
    (h : file.readSlot slot = some reading) : reading.kind = slot.kind := by
  rw [readSlot_eq] at h
  exact Slot.kind_of_read h

/-- From what is told of a slot it can be seen what the slot reads as. -/
theorem reads_iff {slot : Slot} {reading : OptionValue} (hkind : reading.kind = slot.kind) :
    file.Reads slot.name reading.document ↔ file.readSlot slot = some reading := by
  constructor
  · rintro ⟨same, value, hname, hread, hdocument⟩
    obtain rfl := Slot.name_injective hname
    have hvalue := (kind_of_readSlot hread).trans hkind.symm
    rw [hread, OptionValue.document_injective hvalue hdocument]
  · intro hread
    exact ⟨slot, reading, rfl, hread, rfl⟩

/-- Files of which the same is told are the same to an inspection. -/
theorem IsTold.looksLike (h : file.IsTold entry) (hother : other.IsTold entry) :
    file.LooksLike other := by
  obtain ⟨options, rfl, -, hmem⟩ := h
  obtain ⟨others, hentry, -, hmem'⟩ := hother
  injection hentry with hentry
  simp only [List.cons.injEq, Prod.mk.injEq, Document.object.injEq, Document.text.injEq,
    Document.flag.injEq, true_and, and_true] at hentry
  obtain ⟨rfl, hpackage, hpath, hknown⟩ := hentry
  refine ⟨hpath, hpackage, hknown, fun slot => ?_⟩
  have hsame (reading : OptionValue) (hkind : reading.kind = slot.kind) :
      file.readSlot slot = some reading ↔ other.readSlot slot = some reading := by
    rw [← reads_iff hkind, ← reads_iff hkind, ← hmem, hmem']
  refine Option.ext fun reading => ⟨fun hread => ?_, fun hread => ?_⟩
  · exact (hsame reading (kind_of_readSlot hread)).1 hread
  · exact (hsame reading (kind_of_readSlot hread)).2 hread

/-- Rows of files of which the same is told are the same to an inspection. -/
theorem forall₂_looksLike {files others : List File} {entries : List Document}
    (h : List.Forall₂ IsTold files entries) (hothers : List.Forall₂ IsTold others entries) :
    List.Forall₂ LooksLike files others := by
  induction h generalizing others with
  | nil =>
    cases hothers
    exact .nil
  | cons hfile _ ih =>
    cases hothers with
    | cons hother hrest => exact .cons (hfile.looksLike hother) (ih hrest)

end File

/-! ## The printed text -/

/-- The files of an image are told in order. -/
theorem Image.read?_summary (image : Image) :
    Json.read? (image.summary.render ++ "\n") =
      some (.object [("files", .list (image.files.map fun file => file.summary.document))]) := by
  have hblank : ∀ c ∈ "\n".toList, isBlank c = true := by
    intro c hc
    obtain rfl := List.mem_singleton.1 hc
    rfl
  rw [JsonValue.read?_render _ hblank, summary, JsonValue.document,
    JsonValue.memberDocuments_eq_map]
  simp only [List.map_cons, List.map_nil, JsonValue.document, JsonValue.documents_eq_map,
    List.map_map, Function.comp_def]

/-- Whether arguments ask, in a directory, to inspect a file whose content decodes to an image. -/
def Directory.Inspects {around : Surroundings} (directory : Directory around) (args : List String)
    (image : Image) : Prop :=
  ∃ path content, Request.ofArguments args = .run (.inspect path) ∧
    directory.entryAt path = .file content ∧ Image.decode content = .ok image

namespace Directory

variable {around : Surroundings} {directory : Directory around} {args : List String}
variable {image : Image}

theorem runArguments_of_inspects (h : directory.Inspects args image) :
    directory.runArguments args = (.success (image.summary.render ++ "\n"), directory) := by
  obtain ⟨path, content, hargs, hentry, hdecode⟩ := h
  have hload : Image.load directory.entryAt path = .ok image :=
    Image.load_eq_ok_iff.2 ⟨content, hentry, hdecode⟩
  simp only [runArguments, hargs, run, Command.outcome, hload]
  rfl

/-- An inspection of an image succeeds and prints a JSON text that tells of every file of the image,
in order, and of nothing else. So images of which the same is printed have files that are the same
to an inspection. -/
theorem runArguments_inspect (h : directory.Inspects args image) :
    ∃ printed entries, directory.runArguments args = (.success printed, directory) ∧
      Json.read? printed = some (.object [("files", .list entries)]) ∧
      List.Forall₂ File.IsTold image.files entries ∧
      ∀ (otherAround : Surroundings) (otherDirectory : Directory otherAround)
        (otherArgs : List String) (otherImage : Image),
        otherDirectory.Inspects otherArgs otherImage →
        (otherDirectory.runArguments otherArgs).1 = .success printed →
        List.Forall₂ File.LooksLike image.files otherImage.files := by
  have htold (image : Image) : List.Forall₂ File.IsTold image.files
      (image.files.map fun file => file.summary.document) :=
    List.forall₂_map_right_iff.2 (List.forall₂_same.2 fun file _ => file.isTold_summary)
  refine ⟨_, _, runArguments_of_inspects h, image.read?_summary, htold image, ?_⟩
  intro otherAround otherDirectory otherArgs otherImage hother hprinted
  rw [runArguments_of_inspects hother] at hprinted
  have hread := otherImage.read?_summary
  rw [Report.success.inj hprinted, image.read?_summary] at hread
  simp only [Option.some.injEq, Document.object.injEq, List.cons.injEq, Prod.mk.injEq,
    Document.list.injEq, true_and, and_true] at hread
  exact File.forall₂_looksLike (htold image) (hread ▸ htold otherImage)

/-- A stored number that is no mode's is told as the mode that it reads as. -/
theorem runArguments_inspect_unknown_mode :
    let args := ["inspect", "--image", "in"]
    let directory : Directory .bare := ⟨[("in", [10, 7, 10, 1, 97, 66, 2, 72, 9])], ()⟩
    let file : File := { name := some "a", options := some { optimizeFor := some 9 } }
    directory.Inspects args ⟨[file]⟩ ∧
      ∃ printed entry, directory.runArguments args = (.success printed, directory) ∧
        Json.read? printed = some (.object [("files", .list [entry])]) ∧ file.IsTold entry ∧
        file.Reads "optimize_for" (.text "SPEED") := by
  intro args directory file
  have hentry : directory.entryAt "in" = .file [10, 7, 10, 1, 97, 66, 2, 72, 9] := by decide
  have hinspects : directory.Inspects args ⟨[file]⟩ :=
    ⟨"in", _, rfl, hentry, by with_unfolding_all rfl⟩
  obtain ⟨printed, entries, hrun, hread, htold, -⟩ := runArguments_inspect hinspects
  cases htold with
  | cons hfile hrest =>
    cases hrest
    exact ⟨hinspects, printed, _, hrun, hread, hfile, .optimizeFor, .mode .speed, rfl, rfl, rfl⟩

end Directory

end SchemaOptions
