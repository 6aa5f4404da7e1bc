import SchemaOptions.Proofs.Directory
import SchemaOptions.Proofs.Yaml.Parsing
import SchemaOptions.Proofs.Yaml.Words

/-!
# Saving a configuration

A configuration that is saved is loaded as it was (`Config.load_save`). The fields that are written
have distinct names, all of them known, so each is looked up where it was written; a field that was
left out is absent or has its default.
-/

namespace SchemaOptions

open SchemaOptions.Yaml

/-! ## Fields -/

theorem soundEntries_iff {entries : List (String × Content)} :
    SoundEntries entries ↔ ∀ entry ∈ entries, entry.2.Sound := by
  induction entries with
  | nil => exact ⟨fun _ _ h => absurd h List.not_mem_nil, fun _ => trivial⟩
  | cons entry rest ih =>
    obtain ⟨key, value⟩ := entry
    rw [SoundEntries, ih, List.forall_mem_cons]

/-- No node of a written document is an alias. -/
theorem resolve?_node (root : Node) (content : Content) :
    root.resolve? content.node = some content.node := by
  cases content <;> rw [Content.node] <;> rfl

theorem entriesNodes_eq_map (entries : List (String × Content)) :
    entriesNodes entries =
      entries.map fun (key, value) => ((Content.text key).node, value.node) := by
  induction entries with
  | nil => rw [entriesNodes, List.map_nil]
  | cons entry rest ih => rw [entriesNodes, List.map_cons, ih]

/-- The nodes of entries under the names of their fields. -/
def fieldNodes (entries : List (String × Content)) : ConfigReading.Fields :=
  entries.map fun entry => (entry.1, entry.2.node)

theorem text?_node (s : String) : (Content.text s).node.text? = some s := by
  rw [Content.node, Node.text?, String.ofList_toList]

/-- If each element is read, so is the list. -/
theorem mapM_eq_some_map {α β : Type} {read : α → Option β} (value : α → β)
    (h : ∀ x, read x = some (value x)) (xs : List α) : xs.mapM read = some (xs.map value) :=
  (congrArg (List.mapM · xs) (funext h)).trans List.mapM_pure

/-- Fields with known and distinct names are read under their names. -/
theorem fields?_node (root : Node) (known : List String) (entries : List (String × Content))
    (hnames : (entries.map Prod.fst).Sublist known) (hknown : known.Nodup) :
    ConfigReading.fields? root known (Content.mapping entries).node =
      some (fieldNodes entries) := by
  have hfields : (fieldNodes entries).map (·.1) = entries.map Prod.fst := by
    rw [fieldNodes, List.map_map]
    rfl
  have hall : (entries.map Prod.fst).all known.contains = true :=
    List.all_eq_true.2 fun name hmem => List.contains_iff_mem.2 (hnames.subset hmem)
  have hnodup : decide (entries.map Prod.fst).Nodup = true := decide_eq_true (hnames.nodup hknown)
  unfold ConfigReading.fields?
  rw [Content.node, Node.entries?, Option.bind_eq_bind, Option.bind_some, entriesNodes_eq_map,
    List.mapM_map, mapM_eq_some_map fun entry => (entry.1, entry.2.node)]
  · change (if ((fieldNodes entries).map (·.1)).all known.contains &&
      decide ((fieldNodes entries).map (·.1)).Nodup then _ else _) = _
    rw [hfields, hall, hnodup]
    rfl
  · intro entry
    simp only [Function.comp_apply, resolve?_node, text?_node, Option.bind_eq_bind,
      Option.bind_some]
    rfl

/-- A field is found under its name. -/
theorem lookup_fieldNodes (entries : List (String × Content)) (name : String) :
    (fieldNodes entries).lookup name = (entries.lookup name).map Content.node := by
  induction entries with
  | nil => rfl
  | cons entry rest ih =>
    rw [fieldNodes, List.map_cons, List.lookup_cons, List.lookup_cons]
    cases name == entry.1 with
    | true => rfl
    | false => exact ih

/-- A field with a default is read if it is written. -/
theorem field_fieldNodes {α : Type} {read : Node → Option α} {default a : α} {name : String}
    {entries : List (String × Content)} {content : Content}
    (hlookup : entries.lookup name = some content) (hread : read content.node = some a) :
    ConfigReading.field read default name (fieldNodes entries) = some a := by
  rw [ConfigReading.field, lookup_fieldNodes, hlookup]
  exact hread

/-- A field that may be absent is read if it is written, and is absent otherwise. -/
theorem optionalField_fieldNodes {α : Type} {read : Node → Option α} {value : Option α}
    {name : String} {entries : List (String × Content)} {content : α → Content}
    (hlookup : entries.lookup name = value.map content)
    (hread : ∀ a, Node.optional? read (content a).node = some (some a)) :
    ConfigReading.optionalField read name (fieldNodes entries) = some value := by
  rw [ConfigReading.optionalField, ConfigReading.field, lookup_fieldNodes, hlookup]
  cases value with
  | none => rfl
  | some a => exact hread a

/-! ## Fields that may be left out -/

/-- The fields that are written of a row in which some may be left out. -/
def presentFields (row : List (String × Option Content)) : List (String × Content) :=
  row.filterMap fun (name, content?) => content?.map fun content => (name, content)

theorem presentFields_nil : presentFields [] = [] := rfl

theorem presentFields_cons (name : String) (content? : Option Content)
    (row : List (String × Option Content)) :
    presentFields ((name, content?) :: row) =
      (content?.toList.map fun content => (name, content)) ++ presentFields row := by
  cases content? <;> rfl

/-- What is written keeps the order of the row. -/
theorem presentFields_sublist (row : List (String × Option Content)) :
    ((presentFields row).map Prod.fst).Sublist (row.map Prod.fst) := by
  induction row with
  | nil => exact .refl _
  | cons slot row ih =>
    obtain ⟨name, content?⟩ := slot
    rw [presentFields_cons]
    cases content? with
    | none => exact .cons name ih
    | some content => exact .cons_cons name ih

/-- With distinct names every field is found where the row has it. -/
theorem lookup_presentFields {row : List (String × Option Content)}
    (h : (row.map Prod.fst).Nodup) (name : String) :
    (presentFields row).lookup name = (row.lookup name).join := by
  induction row with
  | nil => rfl
  | cons slot row ih =>
    obtain ⟨other, content?⟩ := slot
    obtain ⟨hnot, hrow⟩ := List.nodup_cons.1 h
    have hfirst : (content?.toList.map fun content => (other, content)).lookup name =
        if name == other then content? else none := by
      cases content? with
      | none => exact (ite_self none).symm
      | some content =>
        show ([(other, content)] : List (String × Content)).lookup name = _
        rw [List.lookup_cons]
        cases name == other <;> rfl
    rw [presentFields_cons, List.lookup_append, hfirst, ih hrow, List.lookup_cons]
    cases hname : name == other with
    | true =>
      have hnone : row.lookup name = none := by
        refine List.lookup_eq_none_iff.2 fun slot hslot => ?_
        rw [eq_of_beq hname]
        exact bne_iff_ne.2 fun heq => hnot (List.mem_map.2 ⟨slot, hslot, heq.symm⟩)
      rw [hnone]
      exact Option.or_none
    | false => exact Option.none_or

/-! ## Values -/

/-- An entry with the last of all paths is put behind the others. -/
theorem PackageNames.insertEntry_of_lt {path : String} (name : String)
    {entries : List (String × String)} (h : ∀ entry ∈ entries, entry.1 < path) :
    insertEntry path name entries = entries ++ [(path, name)] := by
  induction entries with
  | nil => rfl
  | cons entry rest ih =>
    obtain ⟨hentry, hrest⟩ := List.forall_mem_cons.1 h
    have hne : path ≠ entry.1 := by
      rintro rfl
      exact String.lt_irrefl _ hentry
    rw [insertEntry, if_neg (String.lt_asymm hentry), if_neg hne, ih hrest]
    rfl

/-- Entries in the order of their paths are put behind those that come before them. -/
theorem PackageNames.entries_foldl_insert (entries : List (String × String))
    (before : PackageNames) (h : (before.entries ++ entries).Pairwise fun a b => a.1 < b.1) :
    (entries.foldl (fun names entry => names.insert entry.1 entry.2) before).entries =
      before.entries ++ entries := by
  induction entries generalizing before with
  | nil => exact (List.append_nil _).symm
  | cons entry rest ih =>
    have hlast : (before.insert entry.1 entry.2).entries = before.entries ++ [entry] :=
      insertEntry_of_lt entry.2 fun other hother =>
        (List.pairwise_append.1 h).2.2 other hother entry List.mem_cons_self
    rw [List.foldl_cons, ih, hlast, List.append_assoc]
    · rfl
    · rwa [hlast, List.append_assoc]

/-- The table of the entries of a table is the table itself. -/
theorem PackageNames.ofList_entries (names : PackageNames) :
    PackageNames.ofList names.entries = names := by
  have hentries : (PackageNames.ofList names.entries).entries = names.entries :=
    entries_foldl_insert names.entries .empty names.sorted
  obtain ⟨entries, sorted⟩ := names
  cases hresult : PackageNames.ofList entries with
  | mk entries' sorted' =>
    rw [hresult] at hentries
    cases hentries
    rfl

/-- A truth value is read back. -/
theorem bool?_ofBool (b : Bool) : (Content.ofBool b).node.bool? = some b := by
  cases b <;> rw [Content.ofBool, Content.node] <;> decide

theorem optional?_bool (b : Bool) :
    Node.optional? Node.bool? (Content.ofBool b).node = some (some b) := by
  cases b <;> rw [Content.ofBool, Content.node] <;> decide

theorem optional?_mode (mode : OptimizeMode) :
    Node.optional? ConfigReading.mode? (Content.text mode.configName).node = some (some mode) := by
  cases mode <;> rw [Content.node] <;> decide

/-- A number of workers is read back. -/
theorem optional?_jobs (n : UInt64) :
    Node.optional? Node.uint64? (Content.word n.toNat.repr).node = some (some n) := by
  have hempty : n.toNat.repr.toList.isEmpty = false := by
    rw [Nat.toList_repr]
    exact List.isEmpty_eq_false_iff.2 Nat.toDigits_ne_nil
  have hnull : isNull n.toNat.repr.toList = false := by
    rw [Nat.toList_repr]
    exact isNull_digits (digits_toDigits _)
  have habsent : (Node.scalar none none .plain n.toNat.repr.toList).isAbsent? = some false := by
    rw [Node.isAbsent?, hempty, hnull]
    rfl
  rw [Content.node, Node.optional?, habsent]
  exact congrArg (Option.map some) (uint64Of?_repr n)

/-- Package names of single files are read back. -/
theorem overrides?_node (root : Node) (names : PackageNames) :
    ConfigReading.overrides? root (Content.mapping (names.entries.map fun (path, name) =>
      (path, .text name))).node = some names := by
  unfold ConfigReading.overrides?
  rw [Content.node, Node.entries?, Option.bind_eq_bind, Option.bind_some, entriesNodes_eq_map,
    List.map_map, List.mapM_map, mapM_eq_some_map id, List.map_id]
  · exact congrArg some (PackageNames.ofList_entries names)
  · intro entry
    simp only [Function.comp_apply, resolve?_node, text?_node, Option.bind_eq_bind,
      Option.bind_some]
    rfl

/-- A section on Go packages is read back. A table without names is left out, and is the default. -/
theorem goSection?_content (root : Node) (goSection : GoSection) :
    ConfigReading.goSection? root goSection.content.node = some goSection := by
  obtain ⟨start, names⟩ := goSection
  -- The table is read where it was written and is the default where it was not.
  obtain ⟨entries, hcontent, hnames, hprefix, hoverrides⟩ : ∃ entries,
      (GoSection.mk start names).content = .mapping entries ∧
      (entries.map Prod.fst).Sublist ["prefix", "overrides"] ∧
      entries.lookup "prefix" = some (.text start) ∧
      ConfigReading.field (ConfigReading.overrides? root) .empty "overrides" (fieldNodes entries) =
        some names := by
    cases hempty : names.entries.isEmpty with
    | true =>
      have hnone : names = .empty := by
        obtain ⟨entries, sorted⟩ := names
        obtain rfl := List.isEmpty_iff.1 hempty
        rfl
      refine ⟨[("prefix", .text start)], ?_, ?_, rfl, ?_⟩
      · rw [GoSection.content, hempty]
        rfl
      · exact .cons_cons _ (List.nil_sublist _)
      · rw [hnone]
        rfl
    | false =>
      refine ⟨[("prefix", .text start), ("overrides", .mapping (names.entries.map
        fun (path, name) => (path, .text name)))], ?_, .refl _, rfl, ?_⟩
      · rw [GoSection.content, hempty]
        rfl
      · exact overrides?_node root names
  have hfields := fields?_node root ["prefix", "overrides"] entries hnames (by decide)
  unfold ConfigReading.goSection?
  rw [hcontent, hfields]
  simp only [Option.bind_eq_bind, Option.bind_some, lookup_fieldNodes, hprefix, Option.map_some,
    text?_node, hoverrides]
  rfl

/-- A section on Java packages is read back. -/
theorem javaSection?_content (root : Node) (javaSection : JavaSection) :
    ConfigReading.javaSection? root javaSection.content.node = some javaSection := by
  have hfields := fields?_node root ["prefix"] [("prefix", .text javaSection.packagePrefix)]
    (.refl _) (by decide)
  have hprefix : ConfigReading.field Node.text? JavaSection.defaultPrefix "prefix"
      (fieldNodes [("prefix", .text javaSection.packagePrefix)]) =
        some javaSection.packagePrefix :=
    text?_node javaSection.packagePrefix
  unfold ConfigReading.javaSection? JavaSection.content
  rw [hfields]
  simp only [Option.bind_eq_bind, Option.bind_some, hprefix]
  rfl

/-- A mapping is not absent. -/
theorem optional?_mapping {α : Type} {read : Node → Option α} {a : α}
    (entries : List (String × Content)) (h : read (Content.mapping entries).node = some a) :
    Node.optional? read (Content.mapping entries).node = some (some a) := by
  rw [Content.node] at h ⊢
  exact congrArg (Option.map some) h

theorem optional?_goSection (root : Node) (goSection : GoSection) :
    Node.optional? (ConfigReading.goSection? root) goSection.content.node = some (some goSection) :=
  optional?_mapping _ (goSection?_content root goSection)

theorem optional?_javaSection (root : Node) (javaSection : JavaSection) :
    Node.optional? (ConfigReading.javaSection? root) javaSection.content.node =
      some (some javaSection) :=
  optional?_mapping _ (javaSection?_content root javaSection)

/-! ## Configurations -/

/-- A number of workers may stand as a plain word. -/
theorem sound_jobs (n : UInt64) : (Content.word n.toNat.repr).Sound := by
  rw [Content.Sound, Nat.toList_repr]
  exact ⟨Nat.toDigits_ne_nil, fitsPlain_digits (digits_toDigits _)⟩

theorem sound_ofBool (b : Bool) : (Content.ofBool b).Sound := by
  cases b <;> exact ⟨by decide, by decide⟩

theorem sound_goSection (goSection : GoSection) : goSection.content.Sound := by
  rw [GoSection.content]
  cases hempty : goSection.overrides.entries.isEmpty with
  | true => exact ⟨List.cons_ne_nil _ _, trivial, trivial⟩
  | false =>
    have hnames : goSection.overrides.entries ≠ [] := List.isEmpty_eq_false_iff.1 hempty
    refine ⟨List.cons_ne_nil _ _, trivial, ⟨?_, ?_⟩, trivial⟩
    · exact fun hnil => hnames (List.map_eq_nil_iff.1 hnil)
    · refine soundEntries_iff.2 fun entry hmem => ?_
      obtain ⟨pair, -, rfl⟩ := List.mem_map.1 hmem
      exact trivial

theorem sound_javaSection (javaSection : JavaSection) : javaSection.content.Sound :=
  ⟨List.cons_ne_nil _ _, trivial, trivial⟩

namespace Config

/-- The row of all fields, each with what is written for it. -/
def row (config : Config) : List (String × Option Content) := [
  ("version", some (.text config.version)),
  ("jobs", config.jobs.map fun n => .word n.toNat.repr),
  ("go_package", config.goPackage.map GoSection.content),
  ("java_package", config.javaPackage.map JavaSection.content),
  ("java_multiple_files", config.javaMultipleFiles.map Content.ofBool),
  ("java_outer_classname", some (Content.ofBool config.javaOuterClassname)),
  ("csharp_namespace", some (Content.ofBool config.csharpNamespace)),
  ("ruby_package", some (Content.ofBool config.rubyPackage)),
  ("php_namespace", some (Content.ofBool config.phpNamespace)),
  ("objc_class_prefix", some (Content.ofBool config.objcClassPrefix)),
  ("cc_enable_arenas", config.ccEnableArenas.map Content.ofBool),
  ("optimize_for", config.optimizeFor.map fun mode => .text mode.configName)]

theorem fields_eq (config : Config) : config.fields = presentFields config.row := by
  simp only [fields, row, presentField, presentFields_cons, Option.toList_map, Option.toList_some,
    List.map_cons, List.map_nil, List.map_map, Function.comp_def, List.append_assoc,
    List.cons_append, List.nil_append, presentFields_nil, List.append_nil]

/-- What is written for a configuration can be read back. -/
theorem soundEntries_fields (config : Config) : SoundEntries config.fields := by
  have hpresent {α : Type} (content : α → Content) (h : ∀ a, (content a).Sound) (value : Option α) :
      ∀ written ∈ value.map content, written.Sound := by
    intro written hmem
    obtain ⟨a, -, rfl⟩ := Option.map_eq_some_iff.1 hmem
    exact h a
  have hrow : ∀ slot ∈ config.row, ∀ written ∈ slot.2, written.Sound := by
    simp only [row, List.forall_mem_cons]
    exact ⟨hpresent (fun s => .text s) (fun _ => trivial) (some config.version),
      hpresent _ sound_jobs _,
      hpresent _ sound_goSection _,
      hpresent _ sound_javaSection _,
      hpresent _ sound_ofBool _,
      hpresent _ sound_ofBool (some _),
      hpresent _ sound_ofBool (some _),
      hpresent _ sound_ofBool (some _),
      hpresent _ sound_ofBool (some _),
      hpresent _ sound_ofBool (some _),
      hpresent _ sound_ofBool _,
      hpresent (fun mode : OptimizeMode => .text mode.configName) (fun _ => trivial) _,
      fun _ h => absurd h List.not_mem_nil⟩
  rw [fields_eq, soundEntries_iff]
  intro entry hmem
  obtain ⟨slot, hslot, hentry⟩ := List.mem_filterMap.1 hmem
  obtain ⟨written, hwritten, rfl⟩ := Option.map_eq_some_iff.1 hentry
  exact hrow slot hslot written hwritten

/-- The fields of a configuration are read as the configuration. -/
theorem config?_fields (config : Config) :
    ConfigReading.config? (Content.mapping config.fields).node = some config := by
  have hknown : (config.row.map Prod.fst).Nodup := by
    show ConfigReading.fieldNames.Nodup
    decide
  have hsublist : (config.fields.map Prod.fst).Sublist ConfigReading.fieldNames := by
    rw [fields_eq]
    exact presentFields_sublist config.row
  have hfields := fields?_node (Content.mapping config.fields).node ConfigReading.fieldNames
    config.fields hsublist hknown
  have hlookup (name : String) : config.fields.lookup name = (config.row.lookup name).join := by
    rw [fields_eq]
    exact lookup_presentFields hknown name
  unfold ConfigReading.config?
  rw [hfields]
  simp only [Option.bind_eq_bind, Option.bind_some,
    field_fieldNodes (hlookup "version") (text?_node _),
    optionalField_fieldNodes (hlookup "jobs") optional?_jobs,
    optionalField_fieldNodes (hlookup "go_package") (optional?_goSection _),
    optionalField_fieldNodes (hlookup "java_package") (optional?_javaSection _),
    optionalField_fieldNodes (hlookup "java_multiple_files") optional?_bool,
    field_fieldNodes (hlookup "java_outer_classname") (bool?_ofBool _),
    field_fieldNodes (hlookup "csharp_namespace") (bool?_ofBool _),
    field_fieldNodes (hlookup "ruby_package") (bool?_ofBool _),
    field_fieldNodes (hlookup "php_namespace") (bool?_ofBool _),
    field_fieldNodes (hlookup "objc_class_prefix") (bool?_ofBool _),
    optionalField_fieldNodes (hlookup "cc_enable_arenas") optional?_bool,
    optionalField_fieldNodes (hlookup "optimize_for") optional?_mode]
  rfl

/-- The bytes of a configuration are read as the configuration, whether or not it contradicts
itself. -/
theorem ofBytes?_save (config : Config) : ofBytes? config.save = some config := by
  have hne : config.fields ≠ [] := List.cons_ne_nil _ _
  have hnode := Node.ofBytes?_writeEntries hne config.soundEntries_fields
  rw [ofBytes?, save, text, hnode]
  exact config.config?_fields

/-- A configuration without a fault is loaded from its saved bytes as it was, and so it is from a
file of any directory to which they are written. -/
theorem load_save {config : Config} (hvalid : config.fault? = none) :
    load (some config.save) = .ok config ∧
      ∀ (around : Surroundings) (directory : Directory around) (path name : String),
        around.destination path = .name name → config.save.length ≤ Directory.maxContent →
        ∃ after, directory.write? path config.save = some after ∧
          loadEntry (after.entryAt path) = .ok config := by
  have hload : load (some config.save) = .ok config := by
    simp only [load, ofBytes?_save, hvalid]
  refine ⟨hload, fun around directory path name hpath hlength => ?_⟩
  have hentry : (directory.put name config.save).entryAt path = .file config.save :=
    Directory.entryAt_of_get? hpath (directory.get?_put name config.save)
  refine ⟨_, Directory.write?_of_name hpath hlength, ?_⟩
  rw [hentry]
  exact hload

/-- A configuration whose texts look like marks, numbers and nulls. -/
def lookalikes : Config where
  version := " 1.0\n# null: "
  jobs := some 4
  goPackage := some ⟨"true", .ofList [("- a\n\n", "~"), ("", "\x00:")]⟩

theorem load_save_lookalikes :
    let directory : Directory .bare := ⟨[], ()⟩
    lookalikes.fault? = none ∧ Surroundings.bare.destination "out" = .name "out" ∧
      lookalikes.save.length ≤ Directory.maxContent ∧
      load (some lookalikes.save) = .ok lookalikes ∧
      ∃ after, directory.write? "out" lookalikes.save = some after ∧
        loadEntry (after.entryAt "out") = .ok lookalikes := by
  intro directory
  have hvalid : lookalikes.fault? = none := by decide
  have hpath : Surroundings.bare.destination "out" = .name "out" := by decide
  have hlength : lookalikes.save.length ≤ Directory.maxContent := by decide +kernel
  obtain ⟨hload, hfile⟩ := load_save hvalid
  exact ⟨hvalid, hpath, hlength, hload, hfile _ directory "out" "out" hpath hlength⟩

end Config

end SchemaOptions
