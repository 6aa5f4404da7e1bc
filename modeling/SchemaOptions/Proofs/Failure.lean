import SchemaOptions.Proofs.Pass

/-!
# What a failed pass leaves

A pass that fails does so at one rule and in one file. The rules before that one went through all
files and it went through the files before that one; nothing else happened. In particular nothing
was swept, so the sweeper still holds a touch for each value that differs from what it was
(`Config.failed_pass_spec`).
-/

namespace SchemaOptions

/-! ## Some of the rules -/

namespace Independent

variable {rules earlier later : List OptionRule} {rule : OptionRule} {file : File}

/-- The first ones of independent rules are independent. -/
theorem initial (h : Independent (earlier ++ later)) : Independent earlier where
  slots := by
    have hslots := h.slots
    rw [List.map_append] at hslots
    exact (List.nodup_append.1 hslots).1
  isLocal := fun rule hmem => h.isLocal rule (List.mem_append_left _ hmem)

/-- The slot of a rule is none of those before it. -/
theorem slot_not_mem (h : Independent (earlier ++ rule :: later)) :
    rule.slot ∉ earlier.map OptionRule.slot := by
  have hslots := h.slots
  rw [List.map_append] at hslots
  intro hmem
  exact (List.nodup_append.1 hslots).2.2 _ hmem _ List.mem_cons_self rfl

/-- A slot reads differently after rules exactly if one of them manages and changes it. -/
theorem readSlot_editedAll_ne_iff (h : Independent rules) {slot : Slot} :
    (editedAll rules file).readSlot slot ≠ file.readSlot slot ↔
      ∃ rule ∈ rules, rule.slot = slot ∧ rule.changes file = true := by
  constructor
  · intro hne
    have hslot : slot ∈ rules.map OptionRule.slot := by
      by_contra hslot
      exact hne ((editedAll_frame rules file).readSlot_eq hslot)
    obtain ⟨rule, hmem, rfl⟩ := List.mem_map.1 hslot
    rw [h.readSlot_editedAll hmem] at hne
    exact ⟨rule, hmem, rfl, OptionRule.readSlot_edited_ne_iff.1 hne⟩
  · rintro ⟨rule, hmem, rfl, hchanges⟩
    rw [h.readSlot_editedAll hmem]
    exact OptionRule.readSlot_edited_ne_iff.2 hchanges

end Independent

theorem mem_touchesAll_append {rules others : List OptionRule} {files : List File}
    {touch : Touch} :
    touch ∈ touchesAll (rules ++ others) files ↔
      touch ∈ touchesAll rules files ∨ touch ∈ touchesAll others files := by
  rw [touchesAll, List.flatMap_append, List.mem_append]
  rfl

theorem mem_touchesAll_files_append {rules : List OptionRule} {files others : List File}
    {touch : Touch} :
    touch ∈ touchesAll rules (files ++ others) ↔
      touch ∈ touchesAll rules files ∨ touch ∈ touchesAll rules others := by
  simp only [mem_touchesAll, List.mem_append, or_and_right, exists_or, and_or_left]

theorem touchesAll_singleton (rule : OptionRule) (files : List File) :
    touchesAll [rule] files = rule.touches files :=
  List.append_nil _

theorem editedAll_concat (rules : List OptionRule) (rule : OptionRule) (file : File) :
    editedAll (rules ++ [rule]) file = rule.edited (editedAll rules file) :=
  List.foldl_concat ..

/-- The touches that rules leave are those of the values that differ from what they were. -/
theorem Independent.mem_touchesAll_iff {rules : List OptionRule} (h : Independent rules)
    {files : List File} {touch : Touch} :
    touch ∈ touchesAll rules files ↔
      ∃ pair ∈ files.zip (files.map (editedAll rules)), ∃ slot : Slot,
        pair.2.readSlot slot ≠ pair.1.readSlot slot ∧ touch = pair.1.slotTouch slot := by
  simp only [mem_touchesAll, ← List.map_prod_left_eq_zip, List.mem_map, exists_exists_and_eq_and,
    h.readSlot_editedAll_ne_iff]
  constructor
  · rintro ⟨rule, hrule, file, hfile, hchanges, htouch⟩
    exact ⟨file, hfile, rule.slot, ⟨rule, hrule, rfl, hchanges⟩, htouch⟩
  · rintro ⟨file, hfile, _, ⟨rule, hrule, rfl, hchanges⟩, htouch⟩
    exact ⟨rule, hrule, file, hfile, hchanges, htouch⟩

/-- What a failing rule leaves, told from the files that the rules before it started with: two rows
of files, the first up to the one in which it fails. -/
theorem left_of_error {earlier : List OptionRule} {rule : OptionRule} {files : List File}
    {error : EditError} {left : Workspace} (h : Independent (earlier ++ [rule]))
    (hrule : rule.modifier (appliedAll earlier { image := ⟨files⟩ }) = .error error left) :
    ∃ first last, files = first ++ last ∧
      left.image.files =
        first.map (editedAll (earlier ++ [rule])) ++ last.map (editedAll earlier) ∧
      ∀ touch, touch ∈ left.sweeper.touches ↔
        touch ∈ touchesAll (earlier ++ [rule]) first ∨ touch ∈ touchesAll earlier last := by
  obtain ⟨_, _, _, hfiles, -, herror, rfl⟩ := OptionRule.modifier_eq_error_iff.1 hrule
  obtain ⟨before, others, rfl, rfl, hothers⟩ := List.map_eq_append_iff.1 hfiles
  obtain ⟨file, after, rfl, rfl, rfl⟩ := List.map_eq_cons_iff.1 hothers
  have hlocal : rule.Local := h.isLocal rule (List.mem_append_right _ List.mem_cons_self)
  have hframe := editedAll_frame earlier
  refine ⟨before ++ [file], after, ?_, ?_, fun touch => ?_⟩
  · rw [List.append_assoc, List.singleton_append]
  · have hedited : editedAll (earlier ++ [rule]) = rule.edited ∘ editedAll earlier :=
      funext (editedAll_concat earlier rule)
    rw [hedited, List.map_append, List.append_assoc, List.map_map]
    rfl
  · -- the file in which the rule fails does not change, so it has no touch
    have hchanges : rule.changes file = false := by
      rw [← hlocal.changes_frame (hframe file) h.slot_not_mem]
      exact OptionRule.changes_of_error herror
    have hnone : rule.touches [file] = [] := by
      rw [OptionRule.touches_cons, OptionRule.touchOf, hchanges]
      rfl
    rw [hlocal.touches_map hframe h.slot_not_mem, List.append_cons before file after]
    simp only [Sweeper.mem_touches_touchAll, appliedAll, Sweeper.touches_empty, List.not_mem_nil,
      or_false, mem_touchesAll_append, mem_touchesAll_files_append, touchesAll_singleton, hnone]
    tauto

/-! ## Where a pass fails -/

/-- An error of a rule, and where it happened: at one rule, after others, and in one file. -/
structure FailedAt (image : Image) (left : Workspace) (error : EditError)
    (earlier : List OptionRule) (rule : OptionRule) (middle : Workspace)
    (before : List File) (file : File) (after edited : List File) (kept : File) : Prop where
  /-- The rules before that one went through all files. -/
  earlier_ran :
    Modifier.sequence (earlier.map OptionRule.modifier) { image } = .ok () middle
  found : middle.image.files = before ++ file :: after
  /-- The rule went through the files before that one. -/
  rule_ran : rule.modifier { middle with image := ⟨before⟩ } =
    .ok () { left with image := ⟨edited⟩ }
  /-- It did not come to the files after that one. -/
  left_files : left.image.files = edited ++ kept :: after
  /-- In the file itself at most an empty block of options is new. -/
  kept_file : kept = file ∨
    file.options = none ∧ kept = { file with options := some FileOptions.empty }
  /-- The error is that of the file. -/
  failed : editSlot rule.slot rule.target (file, left.sweeper) = .error error (kept, left.sweeper)
  named : ∃ fault, error = .file file.path fault

namespace Config

variable {config : Config} {rules : List OptionRule} {rule : OptionRule} {file : File}

/-- The error of a rule in a file names the file. -/
theorem error?_eq_some (hrules : config.rules = .ok rules) (hmem : rule ∈ rules)
    {error : EditError} (h : rule.error? file = some error) :
    ∃ fault, error = .file file.path fault := by
  rw [OptionRule.error?, OptionRule.effect] at h
  obtain ⟨-, hdemand⟩ | ⟨-, -, fault, -, hdemand⟩ | ⟨-, -, hdemand⟩ :=
    demand_cases hrules hmem file
  · rw [hdemand] at h
    cases h
  · rw [hdemand] at h
    cases h
    exact ⟨.path fault, rfl⟩
  · rw [hdemand] at h
    cases hvalue : (config.target rule.slot file.path file.packageName).value? with
    | none =>
      rw [hvalue] at h
      cases h
    | some value =>
      simp only [hvalue, File.error?_update] at h
      split at h
      · cases h
      · obtain ⟨fault, -, rfl⟩ := Option.map_eq_some_iff.1 h
        exact ⟨.slot fault, rfl⟩

/-- A pass never fails at the sweep, so it fails at one of its rules. -/
theorem sequence_build_eq_error {workspace left : Workspace} {error : EditError}
    (h : Modifier.sequence (rules.map OptionRule.modifier ++ [Modifier.sweep]) workspace =
      .error error left) :
    ∃ earlier rule later middle, rules = earlier ++ rule :: later ∧
      Modifier.sequence (earlier.map OptionRule.modifier) workspace = .ok () middle ∧
      rule.modifier middle = .error error left := by
  rw [Modifier.sequence_append] at h
  cases hrun : Modifier.sequence (rules.map OptionRule.modifier) workspace with
  | ok _ done =>
    rw [hrun] at h
    cases h
  | error e last =>
    rw [hrun] at h
    cases h
    obtain ⟨before, modifier, after, middle, hsplit, hbefore, hmodifier⟩ :=
      Modifier.sequence_eq_error_iff.1 hrun
    obtain ⟨earlier, others, rfl, rfl, hothers⟩ := List.map_eq_append_iff.1 hsplit
    obtain ⟨rule, later, rfl, rfl, -⟩ := List.map_eq_cons_iff.1 hothers
    exact ⟨earlier, rule, later, middle, rfl, hbefore, hmodifier⟩

/-- A pass that fails does so at one rule and in one file. What was done before stays done and
nothing else is; the locations are as they were, the sweeper holds the touches of the values that
differ from what they were, and the files still make an image. -/
theorem failed_pass_spec {files : List File} {image : Image} {modifiers : List Modifier}
    {error : EditError} {left : Workspace} (himage : Image.ofFiles files = .ok image)
    (hbuild : config.build = .ok modifiers)
    (hrun : Modifier.sequence modifiers { image } = .error error left) :
    ∃ earlier rule later middle before file after edited kept,
      config.rules = .ok (earlier ++ rule :: later) ∧
      modifiers = earlier.map OptionRule.modifier ++
        rule.modifier :: (later.map OptionRule.modifier ++ [Modifier.sweep]) ∧
      FailedAt image left error earlier rule middle before file after edited kept ∧
      left.image.files.map File.sourceInfo = image.files.map File.sourceInfo ∧
      (∀ touch, touch ∈ left.sweeper.touches ↔
        ∃ pair ∈ image.files.zip left.image.files, ∃ slot : Slot,
          pair.2.readSlot slot ≠ pair.1.readSlot slot ∧ touch = pair.1.slotTouch slot) ∧
      Image.ofFiles left.image.files = .ok left.image := by
  obtain ⟨rules, hrules, rfl⟩ := build_eq_ok_iff.1 hbuild
  obtain ⟨earlier, rule, later, middle, rfl, hearlier, hrule⟩ := sequence_build_eq_error hrun
  have hindependent := independent_rules hrules
  have hfirst := hindependent.initial
  obtain ⟨-, rfl⟩ := (sequence_rules_eq_ok_iff hfirst).1 hearlier
  obtain ⟨before, file, after, hfiles, hbefore, herror, hstate⟩ :=
    OptionRule.modifier_eq_error_iff.1 hrule
  obtain ⟨rfl, -⟩ := Image.ofFiles_eq_ok_iff.1 himage
  have hsome : Independent (earlier ++ [rule]) := by
    rw [List.append_cons] at hindependent
    exact hindependent.initial
  obtain ⟨first, last, rfl, hleft, htouches⟩ := left_of_error hsome hrule
  have hkeep {α : Type} (part : File → α)
      (hpart : ∀ rules file, part (editedAll rules file) = part file) :
      left.image.files.map part = (first ++ last).map part := by
    rw [hleft]
    simp only [List.map_append, List.map_map, Function.comp_def, hpart]
  refine ⟨earlier, rule, later, _, before, file, after, before.map rule.edited, rule.edited file,
    hrules, ?_, ⟨hearlier, hfiles, ?_, ?_, ?_, ?_, ?_⟩, ?_, fun touch => ?_, ?_⟩
  · rw [List.map_append, List.map_cons, List.append_assoc, List.cons_append]
  · rw [hstate]
    exact OptionRule.modifier_of_ok hbefore
  · rw [hstate]
  · exact OptionRule.edited_of_error herror
  · exact OptionRule.editSlot_of_error _ herror
  · exact error?_eq_some hrules (List.mem_append_right _ List.mem_cons_self) herror
  · exact hkeep File.sourceInfo fun rules file => (editedAll_frame rules file).sourceInfo_eq
  · rw [htouches, hleft, List.zip_append (List.length_map _).symm,
      hsome.mem_touchesAll_iff, hfirst.mem_touchesAll_iff]
    simp only [List.mem_append, or_and_right, exists_or]
  · exact Image.ofFiles_eq_ok_of_map himage
      (hkeep File.path fun rules file => (editedAll_frame rules file).path_eq)
      (hkeep File.imports fun rules file => (editedAll_frame rules file).imports_eq)

/-- A pass that fails in the second of two files: the first has its new value and a touch for it,
the second has an empty block. -/
theorem failed_pass_spec_nul :
    let config : Config := { javaPackage := some { packagePrefix := "com" } }
    let modifiers := [(JavaPackage.rule { packagePrefix := "com" }).modifier, Modifier.sweep]
    let first : File := {
      name := some "a.proto", package := some "a", sourceInfo := some [{ path := [8, 1] }] }
    let second : File := { name := some "b.proto", package := some "b\x00" }
    let left : Workspace := {
      image := ⟨[
        { first with options := some { javaPackage := some "com.a" } },
        { second with options := some {} }]⟩
      sweeper := Sweeper.empty.touch (first.slotTouch (.text .javaPackage)) }
    Image.ofFiles [first, second] = .ok ⟨[first, second]⟩ ∧ config.build = .ok modifiers ∧
      Modifier.sequence modifiers { image := ⟨[first, second]⟩ } =
        .error (.file "b.proto" (.slot (.containsNul (.text .javaPackage)))) left ∧
      first.slotTouch (.text .javaPackage) ∈ left.sweeper.touches ∧
      Image.ofFiles left.image.files = .ok left.image := by
  intro config modifiers first second left
  have himage : Image.ofFiles [first, second] = .ok ⟨[first, second]⟩ := by rfl
  have hbuild : config.build = .ok modifiers := rfl
  have hrun : Modifier.sequence modifiers { image := ⟨[first, second]⟩ } =
      .error (.file "b.proto" (.slot (.containsNul (.text .javaPackage)))) left := by
    simp only [modifiers, first, second, left]
    rfl
  obtain ⟨_, _, _, _, _, _, _, _, _, -, -, -, -, htouches, hleft⟩ :=
    failed_pass_spec himage hbuild hrun
  refine ⟨himage, hbuild, hrun, (htouches _).2 ?_, hleft⟩
  exact ⟨(first, _), List.mem_cons_self, .text .javaPackage, by decide, rfl⟩

end Config

end SchemaOptions
