import SchemaOptions.Proofs.Managed

/-!
# A pass from start to end

The rules of a configuration look at a file and find there what the configuration asks for
(`Config.demand_of_mem`). They fail in a file exactly if the configuration refuses it, and they
change the slots to which it writes. As they do not notice each other, the run of all rules over all
files is settled file by file, and the sweep at the end removes the locations of the slots that were
changed in the file at hand, since no other file has its path. `Config.pass_spec` puts this
together.
-/

namespace SchemaOptions.Config

variable {config : Config} {rules : List OptionRule} {rule : OptionRule} {file : File}

/-- A configuration that can be put into effect is one rule for each enabled slot, and a sweep. -/
theorem build_eq_ok_iff {modifiers : List Modifier} :
    config.build = .ok modifiers ↔ ∃ rules, config.rules = .ok rules ∧
      modifiers = rules.map OptionRule.modifier ++ [Modifier.sweep] := by
  unfold build
  cases config.rules with
  | error e =>
    constructor
    · intro h
      cases h
    · rintro ⟨_, h, -⟩
      cases h
  | ok rules =>
    constructor
    · intro h
      cases h
      exact ⟨rules, rfl, rfl⟩
    · rintro ⟨_, h, rfl⟩
      cases h
      rfl

/-! ## What a rule does in a file -/

/-- Everything that a rule can ask of a file: nothing if the file is well known, an error if the
path is needed and has a fault, and otherwise what the configuration asks for. -/
theorem demand_cases (hrules : config.rules = .ok rules) (hmem : rule ∈ rules) (file : File) :
    (file.isWellKnown = true ∧ rule.demand file = .ok none) ∨
    (file.isWellKnown = false ∧ rule.slot = .text .goPackage ∧ ∃ fault,
      pathFault? file.path = some fault ∧
        rule.demand file = .error (.file file.path (.path fault))) ∨
    (file.isWellKnown = false ∧ ¬(rule.slot = .text .goPackage ∧ (pathFault? file.path).isSome) ∧
      rule.demand file = .ok (config.target rule.slot file.path file.packageName).value?) := by
  rw [OptionRule.demand, (rules_follow hrules).target_eq rule hmem, answer]
  cases hknown : file.isWellKnown with
  | true => exact .inl ⟨rfl, rfl⟩
  | false =>
    refine .inr ?_
    by_cases hslot : rule.slot = .text .goPackage
    · rw [if_pos hslot]
      cases hpath : pathFault? file.path with
      | some fault => exact .inl ⟨rfl, hslot, fault, rfl, rfl⟩
      | none => exact .inr ⟨rfl, fun h => Bool.false_ne_true h.2, rfl⟩
    · rw [if_neg hslot]
      exact .inr ⟨rfl, fun h => hslot h.1, rfl⟩

/-- A rule that does not fail in a file changes it if the configuration writes to its slot. -/
theorem changes_of_ok (hrules : config.rules = .ok rules) (hmem : rule ∈ rules)
    (hok : rule.error? file = none) :
    rule.changes file = (config.change? file rule.slot).isSome := by
  unfold change?
  obtain ⟨hknown, hdemand⟩ | ⟨-, -, fault, -, hdemand⟩ | ⟨hknown, -, hdemand⟩ :=
    demand_cases hrules hmem file
  · rw [OptionRule.changes_of_demand hok hdemand, if_pos hknown]
    rfl
  · simp only [OptionRule.error?, OptionRule.effect, hdemand] at hok
    cases hok
  · rw [OptionRule.changes_of_demand hok hdemand, if_neg (Bool.eq_false_iff.1 hknown)]

/-- What the configuration writes is what the rule leaves in the slot. -/
theorem stored_edited_of_change? (hrules : config.rules = .ok rules) (hmem : rule ∈ rules)
    (hok : rule.error? file = none) {value : Option OptionValue}
    (h : config.change? file rule.slot = some value) :
    rule.slot.stored (rule.edited file).optionsOrEmpty = value.map OptionValue.stored := by
  obtain ⟨hknown, htarget, -⟩ := change?_eq_some h
  have hchanges : rule.changes file = true := by
    rw [changes_of_ok hrules hmem hok, h, Option.isSome]
  obtain ⟨hwell, -⟩ | ⟨-, -, fault, -, hdemand⟩ | ⟨-, -, hdemand⟩ :=
    demand_cases hrules hmem file
  · rw [hknown] at hwell
    cases hwell
  · simp only [OptionRule.error?, OptionRule.effect, hdemand] at hok
    cases hok
  · rw [htarget] at hdemand
    exact OptionRule.stored_edited_of_changes hdemand hchanges

/-- A rule fails in a file if it needs the path and cannot have it, or if it is to write a text with
a NUL character. -/
theorem error?_eq_none_iff (hrules : config.rules = .ok rules) (hmem : rule ∈ rules)
    (file : File) :
    rule.error? file = none ↔ (file.isWellKnown = false →
      ¬(rule.slot = .text .goPackage ∧ (pathFault? file.path).isSome) ∧
      ∀ s, config.target rule.slot file.path file.packageName = .set (.text s) →
        '\x00' ∈ s.toList → file.readSlot rule.slot = some (.text s)) := by
  rw [OptionRule.error?, OptionRule.effect]
  obtain ⟨hknown, hdemand⟩ | ⟨hknown, hslot, fault, hpath, hdemand⟩ | ⟨hknown, hpath, hdemand⟩ :=
    demand_cases hrules hmem file
  · rw [hdemand]
    exact iff_of_true rfl fun h => by rw [hknown] at h; cases h
  · rw [hdemand]
    constructor
    · intro h
      cases h
    · intro h
      refine absurd ⟨hslot, ?_⟩ (h hknown).1
      rw [hpath, Option.isSome_some]
  · rw [hdemand]
    simp only [hknown, forall_const, hpath, not_false_eq_true, true_and]
    cases htarget : config.target rule.slot file.path file.packageName with
    | keep => exact iff_of_true rfl fun s h => by cases h
    | clear =>
      refine iff_of_true ?_ fun s h => by cases h
      simp only [OptionEdit.value?, File.error?_update]
      cases rule.slot <;> simp only [Slot.refusal?, Option.map_none, ite_self]
    | set value =>
      have hkind := Slot.refusal?_isSome_iff (kind_of_target htarget)
      simp only [OptionEdit.value?, File.error?_update, OptionEdit.set.injEq]
      constructor
      · rintro hnone s rfl hnul
        by_contra hread
        rw [if_neg hread, Option.map_eq_none_iff] at hnone
        have hrefused := hkind.2 ⟨s, rfl, hnul⟩
        rw [hnone] at hrefused
        cases hrefused
      · intro hsame
        by_cases hread : file.readSlot rule.slot = some value
        · rw [if_pos hread]
        · rw [if_neg hread, Option.map_eq_none_iff, ← Option.not_isSome_iff_eq_none, hkind]
          rintro ⟨s, rfl, hnul⟩
          exact hread (hsame s rfl hnul)

/-- The rules fail in a file exactly if it is not well known and the configuration refuses it. -/
theorem forall_error?_eq_none_iff (hrules : config.rules = .ok rules) (file : File) :
    (∀ rule ∈ rules, rule.error? file = none) ↔
      (file.isWellKnown = false → ¬config.Refuses file) := by
  constructor
  · rintro hok hknown (⟨henables, hpath⟩ | ⟨slot, s, henables, htarget, hnul, hread⟩)
    · obtain ⟨rule, hmem, hslot⟩ := (exists_rule_iff hrules).2 henables
      exact ((error?_eq_none_iff hrules hmem file).1 (hok rule hmem) hknown).1 ⟨hslot, hpath⟩
    · obtain ⟨rule, hmem, rfl⟩ := (exists_rule_iff hrules).2 henables
      have hall := (error?_eq_none_iff hrules hmem file).1 (hok rule hmem) hknown
      exact hread (hall.2 s htarget hnul)
  · intro hok rule hmem
    have henables := (exists_rule_iff hrules).1 ⟨rule, hmem, rfl⟩
    refine (error?_eq_none_iff hrules hmem file).2 fun hknown => ⟨?_, fun s htarget hnul => ?_⟩
    · rintro ⟨hslot, hpath⟩
      exact hok hknown (.inl ⟨hslot ▸ henables, hpath⟩)
    · by_contra hread
      exact hok hknown (.inr ⟨rule.slot, s, henables, htarget, hnul, hread⟩)

/-! ## Rules and sweep -/

/-- The sweeper after rules went through files. -/
def noted (rules : List OptionRule) (files : List File) : Sweeper :=
  Sweeper.empty.touchAll (touchesAll rules files)

/-- In an image the touches of a file are those of the slots that were changed in it. -/
theorem names_noted_iff {files : List File} (hpaths : (files.map File.path).Nodup)
    (hmem : file ∈ files) (location : Location) :
    (noted rules files).names file.path location = true ↔
      ∃ rule ∈ rules, rule.changes file = true ∧ location.path = rule.slot.path := by
  simp only [Sweeper.names, noted, List.any_eq_true, Sweeper.mem_touches_touchAll,
    mem_touchesAll, Sweeper.touches_empty, List.not_mem_nil, or_false, Bool.and_eq_true, beq_iff_eq]
  constructor
  · rintro ⟨_, ⟨rule, hrule, other, hother, hchanges, rfl⟩, hpath, hnames⟩
    obtain rfl := Image.eq_of_path_eq hpaths hother hmem hpath
    exact ⟨rule, hrule, hchanges, eq_of_beq hnames⟩
  · rintro ⟨rule, hrule, hchanges, hlocation⟩
    exact ⟨file.slotTouch rule.slot, ⟨rule, hrule, file, hmem, hchanges, rfl⟩, rfl,
      beq_iff_eq.2 hlocation⟩

/-- Rules that do not fail in a file, and the sweep after them, make of it what the configuration
asks for. -/
theorem manages_swept (hrules : config.rules = .ok rules) {files : List File}
    (hpaths : (files.map File.path).Nodup) (hmem : file ∈ files)
    (hok : ∀ rule ∈ rules, rule.error? file = none) :
    config.Manages file ((noted rules files).sweepFile (editedAll rules file)) := by
  have hindependent := independent_rules hrules
  have frame := editedAll_frame rules file
  have hchanged (slot : Slot) :
      (config.change? file slot).isSome = true ↔
        ∃ rule ∈ rules, rule.changes file = true ∧ rule.slot = slot := by
    constructor
    · intro hsome
      obtain ⟨value, hchange⟩ := Option.isSome_iff_exists.1 hsome
      obtain ⟨-, htarget, -⟩ := change?_eq_some hchange
      have henables : config.enables slot = true := by
        by_contra hnot
        rw [target_of_not_enables (Bool.eq_false_iff.2 hnot)] at htarget
        cases htarget
      obtain ⟨rule, hrule, rfl⟩ := (exists_rule_iff hrules).2 henables
      exact ⟨rule, hrule, (changes_of_ok hrules hrule (hok rule hrule)).trans hsome, rfl⟩
    · rintro ⟨rule, hrule, hchanges, rfl⟩
      exact (changes_of_ok hrules hrule (hok rule hrule)).symm.trans hchanges
  rw [Sweeper.sweepFile_eq, frame.path_eq, frame.sourceInfo_eq]
  refine ⟨?_, fun slot value hchange => ?_, fun slot hchange => ?_, frame.unmanaged, ?_, ?_⟩
  · rw [frame.declared]
  · have hsome : (config.change? file slot).isSome = true := by rw [hchange, Option.isSome_some]
    obtain ⟨rule, hrule, -, rfl⟩ := (hchanged slot).1 hsome
    exact (hindependent.stored_editedAll hrule).trans
      (stored_edited_of_change? hrules hrule (hok rule hrule) hchange)
  · by_cases hslot : slot ∈ rules.map OptionRule.slot
    · obtain ⟨rule, hrule, rfl⟩ := List.mem_map.1 hslot
      have hchanges := changes_of_ok hrules hrule (hok rule hrule)
      rw [hchange, Option.isSome_none] at hchanges
      refine (hindependent.stored_editedAll hrule).trans ?_
      rw [OptionRule.optionsOrEmpty_edited_of_not_changes hchanges]
    · exact frame.others slot hslot
  · rw [hindependent.isSome_editedAll_iff hok]
    refine or_congr_right ⟨?_, ?_⟩
    · rintro ⟨rule, hrule, hchanges⟩
      exact ⟨rule.slot, (hchanged rule.slot).2 ⟨rule, hrule, hchanges, rfl⟩⟩
    · rintro ⟨slot, hsome⟩
      obtain ⟨rule, hrule, hchanges, -⟩ := (hchanged slot).1 hsome
      exact ⟨rule, hrule, hchanges⟩
  · have hnames : ∀ location,
        (noted rules files).names file.path location = config.outdates file location := by
      intro location
      apply Bool.eq_iff_iff.2
      rw [names_noted_iff hpaths hmem, outdates, List.any_eq_true]
      simp only [Bool.and_eq_true, beq_iff_eq, hchanged, Slot.mem_all, true_and]
      constructor
      · rintro ⟨rule, hrule, hchanges, hlocation⟩
        exact ⟨rule.slot, ⟨rule, hrule, hchanges, rfl⟩, hlocation⟩
      · rintro ⟨_, ⟨rule, hrule, hchanges, rfl⟩, hlocation⟩
        exact ⟨rule, hrule, hchanges, hlocation⟩
    simp only [hnames]

/-- A run of a pass is a run of its rules and the sweep of what they noted. -/
theorem sequence_build_eq_ok_iff (hrules : config.rules = .ok rules) (files : List File)
    (done : Workspace) :
    Modifier.sequence (rules.map OptionRule.modifier ++ [Modifier.sweep]) { image := ⟨files⟩ } =
        .ok () done ↔
      (∀ file ∈ files, ∀ rule ∈ rules, rule.error? file = none) ∧
        done = { image := ⟨files.map fun file =>
          (noted rules files).sweepFile (editedAll rules file)⟩ } := by
  have hindependent := independent_rules hrules
  rw [Modifier.sequence_append]
  cases hrun : Modifier.sequence (rules.map OptionRule.modifier) { image := ⟨files⟩ } with
  | error e left =>
    refine iff_of_false (fun h => by cases h) fun h => ?_
    have hok : Modifier.sequence (rules.map OptionRule.modifier) { image := ⟨files⟩ } = .ok () _ :=
      (sequence_rules_eq_ok_iff hindependent).2
        ⟨fun rule hrule file hmem => h.1 file hmem rule hrule, rfl⟩
    rw [hrun] at hok
    cases hok
  | ok _ next =>
    obtain ⟨hok, rfl⟩ := (sequence_rules_eq_ok_iff hindependent).1 hrun
    simp only [Modifier.sequence, Modifier.sweep, EStateM.Result.ok.injEq, true_and]
    rw [and_iff_right fun file hmem rule hrule => hok rule hrule file hmem, eq_comm]
    simp only [appliedAll, Sweeper.sweepImage, List.map_map]
    rfl

/-- A pass over an image goes through exactly if the configuration refuses no file that is not well
known, and then it makes of each file what the configuration asks for, and of a well-known file
itself. -/
theorem pass_spec {files : List File} {image : Image} {modifiers : List Modifier}
    (himage : Image.ofFiles files = .ok image) (hbuild : config.build = .ok modifiers) :
    ((∃ done, Modifier.sequence modifiers { image } = .ok () done) ↔
      ∀ file ∈ image.files, file.isWellKnown = false → ¬config.Refuses file) ∧
    ∀ done, Modifier.sequence modifiers { image } = .ok () done →
      done.image.files = image.files.map config.managed ∧
      ∀ file ∈ image.files, config.Manages file (config.managed file) ∧
        (file.isWellKnown = true → config.managed file = file) := by
  obtain ⟨rules, hrules, rfl⟩ := build_eq_ok_iff.1 hbuild
  obtain ⟨rfl, -, hpaths, -⟩ := Image.ofFiles_eq_ok_iff.1 himage
  have hruns := sequence_build_eq_ok_iff hrules files
  constructor
  · simp only [hruns, ← forall_error?_eq_none_iff hrules]
    exact ⟨fun ⟨_, hok, _⟩ => hok, fun hok => ⟨_, hok, rfl⟩⟩
  · intro done hdone
    obtain ⟨hok, rfl⟩ := (hruns done).1 hdone
    have hmanages : ∀ file ∈ files, config.Manages file (config.managed file) := fun file hmem =>
      manages_managed ((forall_error?_eq_none_iff hrules file).1 (hok file hmem))
    refine ⟨List.map_congr_left fun file hmem => ?_, fun file hmem => ?_⟩
    · exact (manages_swept hrules hpaths hmem (hok file hmem)).unique (hmanages file hmem)
    · exact ⟨hmanages file hmem, managed_of_isWellKnown⟩

/-- A pass for one flag: the ordinary file gets a block and loses the location, the well-known file
stays. -/
theorem pass_spec_multipleFiles :
    let config : Config := { javaMultipleFiles := some true }
    let file : File := {
      name := some "a.proto"
      sourceInfo := some [{ path := [8, 10], leading := some "old" }, { path := [8, 11] }] }
    let known : File := { name := some "google/protobuf/any.proto" }
    ∃ image modifiers done, Image.ofFiles [file, known] = .ok image ∧
      config.build = .ok modifiers ∧ Modifier.sequence modifiers { image } = .ok () done ∧
      done.image.files = [
        { file with
          options := some { javaMultipleFiles := some true }
          sourceInfo := some [{ path := [8, 11] }] },
        known] := by
  intro config file known
  have himage : Image.ofFiles [file, known] = .ok ⟨[file, known]⟩ := by rfl
  have hspec := pass_spec himage (rfl : config.build = .ok _)
  have htakes : ∀ file, ¬config.Refuses file := by
    rintro file (⟨henables, -⟩ | ⟨slot, s, -, htarget, -⟩)
    · cases henables
    · rcases slot with slot | slot | _
      · cases slot <;> cases htarget
      · cases slot <;> cases htarget
      · cases htarget
  obtain ⟨done, hdone⟩ := hspec.1.2 fun file _ _ => htakes file
  refine ⟨_, _, done, himage, rfl, hdone, (hspec.2 done hdone).1.trans ?_⟩
  rfl

end SchemaOptions.Config
