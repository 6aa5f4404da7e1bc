import SchemaOptions.Image.Bytes
import SchemaOptions.Proofs.Image
import SchemaOptions.Proofs.Slot
import SchemaOptions.Proofs.Wire.RoundTrip
import SchemaOptions.Proofs.Wire.Sections

/-!
# Images as bytes, there and back

An image that is encoded is decoded to itself (`Image.decode_encode`). What this needs of it is that
the records in it, which are never looked into, conform to the schema (`File.Storable`). Everything
that was decoded is of this kind (`Image.storable_of_decode`).
-/

namespace SchemaOptions

open SchemaOptions.Wire

/-! ## Blocks of options -/

namespace FileOptions

/-- The fields of a block of options, tag by tag. -/
def sections (options : FileOptions) : List (Nat × List Value) := [
  (1, options.javaPackage.toList.map .text),
  (8, options.javaOuterClassname.toList.map .text),
  (9, options.optimizeFor.toList.map .int32),
  (10, options.javaMultipleFiles.toList.map .bool),
  (11, options.goPackage.toList.map .text),
  (16, options.ccGenericServices.toList.map .bool),
  (17, options.javaGenericServices.toList.map .bool),
  (18, options.pyGenericServices.toList.map .bool),
  (20, options.javaGenerateEqualsAndHash.toList.map .bool),
  (23, options.deprecated.toList.map .bool),
  (27, options.javaStringCheckUtf8.toList.map .bool),
  (31, options.ccEnableArenas.toList.map .bool),
  (36, options.objcClassPrefix.toList.map .text),
  (37, options.csharpNamespace.toList.map .text),
  (39, options.swiftPrefix.toList.map .text),
  (40, options.phpClassPrefix.toList.map .text),
  (41, options.phpNamespace.toList.map .text),
  (42, options.phpGenericServices.toList.map .bool),
  (44, options.phpMetadataNamespace.toList.map .text),
  (45, options.rubyPackage.toList.map .text),
  (999, options.custom.map .record)]

theorem sections_ascending (options : FileOptions) :
    (options.sections.map Prod.fst).Pairwise (· < ·) := by
  show List.Pairwise (· < ·)
    [1, 8, 9, 10, 11, 16, 17, 18, 20, 23, 27, 31, 36, 37, 39, 40, 41, 42, 44, 45, 999]
  decide

theorem toRecord_eq (options : FileOptions) :
    options.toRecord = Record.ofSections options.sections := by
  unfold toRecord
  simp only [Record.single_eq, Record.many_eq, ← Record.ofSections_append, List.cons_append,
    List.nil_append]
  rfl

/-- A block is what its record tells. -/
theorem ofRecord_toRecord (options : FileOptions) : ofRecord options.toRecord = options := by
  have h := options.sections_ascending
  rw [toRecord_eq]
  cases options
  simp only [ofRecord, mk.injEq]
  exact ⟨Record.text?_ofSections h rfl, Record.text?_ofSections h rfl,
    Record.int32?_ofSections h rfl, Record.bool?_ofSections h rfl, Record.text?_ofSections h rfl,
    Record.bool?_ofSections h rfl, Record.bool?_ofSections h rfl, Record.bool?_ofSections h rfl,
    Record.bool?_ofSections h rfl, Record.bool?_ofSections h rfl, Record.bool?_ofSections h rfl,
    Record.bool?_ofSections h rfl, Record.text?_ofSections h rfl, Record.text?_ofSections h rfl,
    Record.text?_ofSections h rfl, Record.text?_ofSections h rfl, Record.text?_ofSections h rfl,
    Record.bool?_ofSections h rfl, Record.text?_ofSections h rfl, Record.text?_ofSections h rfl,
    (Record.records_ofSections h id rfl).trans (List.map_id _)⟩

/-- The record of a block is well formed if its custom options are. -/
theorem wellFormed_toRecord {inner : MessageType → Record → Prop} {options : FileOptions}
    (hcustom : ∀ record ∈ options.custom, inner .customOption record) :
    WellFormed inner .fileOptions options.toRecord := by
  rw [toRecord_eq]
  refine wellFormed_ofSections options.sections_ascending ?_ (by decide)
  have htext {tag : Nat} {value : Option String}
      (h : MessageType.fileOptions.field? tag = some ⟨tag, .text, .optional⟩) :
      SectionFits inner .fileOptions (tag, value.toList.map .text) :=
    .single h fun _ _ => True.intro
  have hbool {tag : Nat} {value : Option Bool}
      (h : MessageType.fileOptions.field? tag = some ⟨tag, .bool, .optional⟩) :
      SectionFits inner .fileOptions (tag, value.toList.map .bool) :=
    .single h fun _ _ => True.intro
  simp only [sections, List.forall_mem_cons]
  refine ⟨htext rfl, htext rfl, .single rfl fun _ _ => True.intro, hbool rfl, htext rfl, hbool rfl,
    hbool rfl, hbool rfl, hbool rfl, hbool rfl, hbool rfl, hbool rfl, htext rfl, htext rfl,
    htext rfl, htext rfl, htext rfl, hbool rfl, htext rfl, htext rfl, .many rfl hcustom, ?_⟩
  intro part hmem
  cases hmem

end FileOptions

/-! ## Locations -/

namespace Location

/-- The fields of a location, tag by tag. -/
def sections (location : Location) : List (Nat × List Value) := [
  (1, if location.path.isEmpty then [] else [.packed location.path]),
  (2, if location.span.isEmpty then [] else [.packed location.span]),
  (3, location.leading.toList.map .text),
  (4, location.trailing.toList.map .text),
  (6, location.detached.map .text)]

theorem sections_ascending (location : Location) :
    (location.sections.map Prod.fst).Pairwise (· < ·) := by
  show List.Pairwise (· < ·) [1, 2, 3, 4, 6]
  decide

theorem toRecord_eq (location : Location) :
    location.toRecord = Record.ofSections location.sections := by
  unfold toRecord
  simp only [Record.piece_eq, Record.single_eq, Record.many_eq, ← Record.ofSections_append,
    List.cons_append, List.nil_append]
  rfl

/-- A location is what its record tells. -/
theorem ofRecord_toRecord (location : Location) : ofRecord location.toRecord = location := by
  have h := location.sections_ascending
  rw [toRecord_eq]
  cases location
  simp only [ofRecord, mk.injEq]
  exact ⟨Record.packed_ofSections h rfl, Record.packed_ofSections h rfl,
    Record.text?_ofSections h rfl, Record.text?_ofSections h rfl, Record.texts_ofSections h rfl⟩

theorem wellFormed_toRecord (inner : MessageType → Record → Prop) (location : Location) :
    WellFormed inner .location location.toRecord := by
  rw [toRecord_eq]
  refine wellFormed_ofSections location.sections_ascending ?_ (by decide)
  simp only [sections, List.forall_mem_cons]
  refine ⟨.piece rfl, .piece rfl, .single rfl fun _ _ => True.intro,
    .single rfl fun _ _ => True.intro, .many rfl fun _ _ => True.intro, ?_⟩
  intro part hmem
  cases hmem

end Location

/-! ## Files -/

/-- The record of source code information. -/
def sourceInfoRecord (locations : List Location) : Record :=
  Record.many 1 (fun location => .record location.toRecord) locations

theorem sourceInfoRecord_eq (locations : List Location) :
    sourceInfoRecord locations =
      Record.ofSections [(1, locations.map fun location => .record location.toRecord)] :=
  Record.many_eq ..

/-- The locations are what the record of source code information tells. -/
theorem records_sourceInfoRecord (locations : List Location) :
    ((sourceInfoRecord locations).records 1).map Location.ofRecord = locations := by
  have hsingle : ([(1, locations.map fun location => Value.record location.toRecord)].map
      Prod.fst).Pairwise (· < ·) := List.pairwise_singleton _ _
  rw [sourceInfoRecord_eq, Record.records_ofSections hsingle Location.toRecord rfl, List.map_map]
  exact (List.map_congr_left fun location _ => location.ofRecord_toRecord).trans (List.map_id _)

namespace File

/-- The fields of a file, tag by tag. -/
def sections (file : File) : List (Nat × List Value) := [
  (1, file.name.toList.map .text),
  (2, file.package.toList.map .text),
  (3, file.imports.map .text),
  (4, file.messages.map .record),
  (5, file.enumerations.map .record),
  (6, file.services.map .record),
  (7, file.extensions.map .record),
  (8, file.options.toList.map fun options => .record options.toRecord),
  (9, file.sourceInfo.toList.map fun locations => .record (sourceInfoRecord locations)),
  (10, file.publicImports.map .int32),
  (11, file.weakImports.map .int32),
  (12, file.schemaSyntax.toList.map .text)]

theorem sections_ascending (file : File) : (file.sections.map Prod.fst).Pairwise (· < ·) := by
  show List.Pairwise (· < ·) [1, 2, 3, 4, 5, 6, 7, 8, 9, 10, 11, 12]
  decide

theorem toRecord_eq (file : File) : file.toRecord = Record.ofSections file.sections := by
  have hinfo : (fun info : List Location =>
      Value.record (Record.many 1 (fun l => .record l.toRecord) info)) =
      fun info => .record (sourceInfoRecord info) := rfl
  unfold toRecord
  rw [hinfo]
  simp only [Record.single_eq, Record.many_eq, ← Record.ofSections_append, List.cons_append,
    List.nil_append]
  rfl

/-- A file is what its record tells. -/
theorem ofRecord_toRecord (file : File) : ofRecord file.toRecord = file := by
  have h := file.sections_ascending
  have hrecords {values : List Record} {tag : Nat}
      (hsection : file.sections.lookup tag = some (values.map .record)) :
      (Record.ofSections file.sections).records tag = values :=
    (Record.records_ofSections h id hsection).trans (List.map_id _)
  have hoptions :
      (file.options.map FileOptions.toRecord).map FileOptions.ofRecord = file.options := by
    rw [Option.map_map]
    exact (Option.map_congr fun options _ => options.ofRecord_toRecord).trans Option.map_id_apply
  have hinfo : (file.sourceInfo.map sourceInfoRecord).map
      (fun info => (info.records 1).map Location.ofRecord) = file.sourceInfo := by
    rw [Option.map_map]
    exact (Option.map_congr fun locations _ => records_sourceInfoRecord locations).trans
      Option.map_id_apply
  rw [toRecord_eq, ofRecord, Record.text?_ofSections h rfl, Record.text?_ofSections h rfl,
    Record.texts_ofSections h rfl, hrecords rfl, hrecords rfl, hrecords rfl, hrecords rfl,
    Record.record?_ofSections h FileOptions.toRecord rfl, hoptions,
    Record.record?_ofSections h sourceInfoRecord rfl, hinfo, Record.int32s_ofSections h rfl,
    Record.int32s_ofSections h rfl, Record.text?_ofSections h rfl]

/-- Whether the records in a file, which are never looked into, conform to the schema. -/
structure Storable (file : File) : Prop where
  messages : ∀ record ∈ file.messages, Conforms 98 .message record
  enumerations : ∀ record ∈ file.enumerations, Conforms 98 .enumeration record
  services : ∀ record ∈ file.services, Conforms 98 .service record
  extensions : ∀ record ∈ file.extensions, Conforms 98 .field record
  custom : ∀ record ∈ file.optionsOrEmpty.custom, Conforms 97 .customOption record

/-- What can be stored of a file is left by whatever changes nothing but managed options and source
code information. -/
theorem Storable.of_declared {before after : File} (h : before.Storable)
    (hdeclared : after = { before with options := after.options, sourceInfo := after.sourceInfo })
    (hunmanaged : after.optionsOrEmpty.unmanaged = before.optionsOrEmpty.unmanaged) :
    after.Storable := by
  have hrest := congrArg FileOptions.custom hunmanaged
  have hcustom : after.optionsOrEmpty.custom = before.optionsOrEmpty.custom := hrest
  refine ⟨?_, ?_, ?_, ?_, hcustom ▸ h.custom⟩
  · rw [hdeclared]
    exact h.messages
  · rw [hdeclared]
    exact h.enumerations
  · rw [hdeclared]
    exact h.services
  · rw [hdeclared]
    exact h.extensions

/-- The record of a storable file conforms. -/
theorem conforms_toRecord {file : File} (h : file.Storable) : Conforms 99 .file file.toRecord := by
  rw [toRecord_eq]
  have hoptions : ∀ options, file.options = some options →
      Conforms 98 .fileOptions options.toRecord := by
    intro options hsome
    refine FileOptions.wellFormed_toRecord fun record hmem => h.custom record ?_
    rw [optionsOrEmpty, hsome]
    exact hmem
  have hinfo : ∀ locations, Conforms 98 .sourceInfo (sourceInfoRecord locations) := by
    intro locations
    rw [sourceInfoRecord_eq]
    refine wellFormed_ofSections (List.pairwise_singleton _ _) (fun part hmem => ?_) (by decide)
    obtain rfl := List.mem_singleton.1 hmem
    exact .many rfl fun location _ => location.wellFormed_toRecord _
  refine wellFormed_ofSections file.sections_ascending ?_ (by decide)
  simp only [sections, List.forall_mem_cons]
  refine ⟨.single rfl fun _ _ => True.intro, .single rfl fun _ _ => True.intro,
    .many rfl fun _ _ => True.intro, .many rfl h.messages, .many rfl h.enumerations,
    .many rfl h.services, .many rfl h.extensions, .single rfl hoptions,
    .single rfl fun locations _ => hinfo locations, .many rfl fun _ _ => True.intro,
    .many rfl fun _ _ => True.intro, .single rfl fun _ _ => True.intro, ?_⟩
  intro part hmem
  cases hmem

/-- The file that a conforming record tells is storable. -/
theorem storable_ofRecord {record : Record} (h : Conforms 99 .file record) :
    (ofRecord record).Storable where
  messages := fun _ hmem => h.inner_of_mem_records 4 rfl rfl hmem
  enumerations := fun _ hmem => h.inner_of_mem_records 5 rfl rfl hmem
  services := fun _ hmem => h.inner_of_mem_records 6 rfl rfl hmem
  extensions := fun _ hmem => h.inner_of_mem_records 7 rfl rfl hmem
  custom := by
    intro custom hmem
    simp only [optionsOrEmpty, ofRecord] at hmem
    cases hoptions : record.record? 8 with
    | none =>
      rw [hoptions] at hmem
      exact absurd hmem List.not_mem_nil
    | some options =>
      rw [hoptions] at hmem
      have hblock : Conforms 98 .fileOptions options := h.inner_of_record? rfl rfl hoptions
      exact hblock.inner_of_mem_records 999 rfl rfl hmem

end File

/-! ## Images -/

namespace Image

/-- An image that was decoded is one, and its files are storable. -/
theorem storable_of_decode {bytes : List UInt8} {image : Image} (h : decode bytes = .ok image) :
    ofFiles image.files = .ok image ∧ ∀ file ∈ image.files, file.Storable := by
  unfold decode filesOfBytes? at h
  cases hread : read? .fileSet bytes with
  | none =>
    rw [hread] at h
    cases h
  | some record =>
    rw [hread] at h
    have hconforms := conforms_of_read? hread
    have hfiles : ofFiles ((record.records 1).map File.ofRecord) = .ok image := h
    obtain ⟨rfl, -⟩ := ofFiles_eq_ok_iff.1 hfiles
    refine ⟨hfiles, ?_⟩
    intro file hmem
    obtain ⟨fields, hfields, rfl⟩ := List.mem_map.1 hmem
    exact File.storable_ofRecord (hconforms.inner_of_mem_records 1 rfl rfl hfields)

/-- An image of storable files is decoded from its bytes, unless there are more of them than a
count can tell. -/
theorem decode_encode {image : Image} (himage : ofFiles image.files = .ok image)
    (hfiles : ∀ file ∈ image.files, file.Storable) (hsize : image.encode.length < 2 ^ 64) :
    decode image.encode = .ok image := by
  have hencode : image.encode = Record.write
      (Record.ofSections [(1, image.files.map fun file => .record file.toRecord)]) := by
    rw [encode, Record.many_eq]
  have hascending : ([(1, image.files.map fun file => Value.record file.toRecord)].map
      Prod.fst).Pairwise (· < ·) := List.pairwise_singleton _ _
  have hconforms : Conforms nestingLimit .fileSet
      (Record.ofSections [(1, image.files.map fun file => .record file.toRecord)]) := by
    refine wellFormed_ofSections hascending (fun part hmem => ?_) (by decide)
    obtain rfl := List.mem_singleton.1 hmem
    exact .many rfl fun file hmem => File.conforms_toRecord (hfiles file hmem)
  have hread : filesOfBytes? image.encode = some image.files := by
    rw [filesOfBytes?, hencode, read?_write hconforms (hencode ▸ hsize), Option.map_some,
      Record.records_ofSections hascending File.toRecord rfl, List.map_map]
    exact congrArg some
      ((List.map_congr_left fun file _ => file.ofRecord_toRecord).trans (List.map_id _))
  rw [decode, hread]
  exact himage

end Image

end SchemaOptions
