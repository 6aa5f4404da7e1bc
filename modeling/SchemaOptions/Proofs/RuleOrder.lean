import SchemaOptions.Proofs.Target

/-!
# Rules in another order

The rules of the library look at nothing of a file but its path and its package
(`OptionRule.Standard.isLocal`), so those for different slots are independent. Independent rules
make the same of a file in whichever order they come (`Independent.editedAll_perm`), and whether one
of them fails does not depend on those before it. `sequence_rules_perm` tells this of their runs
over an image.
-/

namespace SchemaOptions

/-! ## The rules of the library -/

namespace OptionRule

/-- The rules that there are. -/
inductive Standard : OptionRule → Prop where
  | goPackage (go : GoPackage) : Standard go.rule
  | javaPackage (java : JavaPackage) : Standard java.rule
  | javaMultipleFiles (value : Bool) : Standard (javaMultipleFilesRule value)
  | javaOuterClassname : Standard javaOuterClassnameRule
  | csharpNamespace : Standard csharpNamespaceRule
  | rubyPackage : Standard rubyPackageRule
  | phpNamespace : Standard phpNamespaceRule
  | objcClassPrefix : Standard objcClassPrefixRule
  | ccEnableArenas (value : Bool) : Standard (ccEnableArenasRule value)
  | optimizeFor (mode : OptimizeMode) : Standard (optimizeForRule mode)

theorem isLocal_ofText (slot : TextSlot) {text? : File → Option String}
    (h : ∀ file other : File, file.path = other.path → file.packageName = other.packageName →
      text? file = text? other) : (ofText slot text?).Local := by
  intro file other hpath hpackage
  simp only [ofText, h file other hpath hpackage]

/-- None of them looks at more of a file than its path and its package. -/
theorem Standard.isLocal {rule : OptionRule} (h : rule.Standard) : rule.Local := by
  cases h with
  | goPackage go =>
    intro file other hpath hpackage
    simp only [GoPackage.rule, GoPackage.importPath, hpath, hpackage]
  | javaPackage java =>
    exact isLocal_ofText _ fun file other _ hpackage => by rw [hpackage]
  | javaOuterClassname =>
    exact isLocal_ofText _ fun file other hpath _ => by
      simp only [SchemaOptions.javaOuterClassname, hpath]
  | csharpNamespace | rubyPackage | phpNamespace =>
    exact isLocal_ofText _ fun file other _ hpackage => by rw [hpackage]
  | objcClassPrefix =>
    intro file other _ hpackage
    simp only [objcClassPrefixRule, hpackage]
  | javaMultipleFiles | ccEnableArenas | optimizeFor => exact fun _ _ _ _ => rfl

end OptionRule

/-- The rules of a configuration are such rules. -/
theorem Config.standard_rules {config : Config} {rules : List OptionRule}
    (h : config.rules = .ok rules) : ∀ rule ∈ rules, rule.Standard := by
  obtain ⟨go, hgo, h⟩ := bind_eq_ok.1 h
  obtain ⟨java, hjava, h⟩ := bind_eq_ok.1 h
  cases h
  intro rule hmem
  rw [List.mem_append, List.mem_append] at hmem
  obtain (hmem | hmem) | hmem := hmem
  · obtain ⟨_, rfl, -, hrule⟩ := sectionRule_eq_ok hgo
    obtain ⟨body, -, hbody⟩ := hrule rule (Option.mem_toList.1 hmem)
    obtain ⟨start, -, hbody⟩ := bind_eq_ok.1 hbody
    obtain ⟨given, -, hgiven⟩ := bind_eq_ok.1 hbody
    cases hgiven
    exact .goPackage given
  · obtain ⟨_, rfl, -, hrule⟩ := sectionRule_eq_ok hjava
    obtain ⟨body, -, hbody⟩ := hrule rule (Option.mem_toList.1 hmem)
    obtain ⟨start, -, hstart⟩ := bind_eq_ok.1 hbody
    cases hstart
    exact .javaPackage start
  · simp only [plainRules, List.mem_append, Option.mem_toList, Option.map_eq_some_iff,
      List.mem_ite_nil_right, List.mem_singleton] at hmem
    obtain ((((((⟨value, -, rfl⟩ | ⟨-, rfl⟩) | ⟨-, rfl⟩) | ⟨-, rfl⟩) | ⟨-, rfl⟩) | ⟨-, rfl⟩) |
      ⟨value, -, rfl⟩) | ⟨mode, -, rfl⟩ := hmem
    · exact .javaMultipleFiles value
    · exact .javaOuterClassname
    · exact .csharpNamespace
    · exact .rubyPackage
    · exact .phpNamespace
    · exact .objcClassPrefix
    · exact .ccEnableArenas value
    · exact .optimizeFor mode

/-! ## Independent rules -/

namespace Independent

variable {rules others : List OptionRule} {file : File}

theorem perm (h : Independent rules) (hperm : rules.Perm others) : Independent others :=
  ⟨(hperm.map OptionRule.slot).nodup_iff.1 h.slots,
    fun rule hmem => h.isLocal rule (hperm.mem_iff.2 hmem)⟩

/-- What independent rules make of a file in which none of them fails does not depend on their
order. -/
theorem editedAll_perm (h : Independent rules) (hperm : rules.Perm others)
    (hok : ∀ rule ∈ rules, rule.error? file = none) :
    editedAll rules file = editedAll others file := by
  have first := editedAll_frame rules file
  have second := editedAll_frame others file
  have hslots (slot : Slot) : slot.stored (editedAll rules file).optionsOrEmpty =
      slot.stored (editedAll others file).optionsOrEmpty := by
    by_cases hslot : slot ∈ rules.map OptionRule.slot
    · obtain ⟨rule, hmem, rfl⟩ := List.mem_map.1 hslot
      rw [h.stored_editedAll hmem, (h.perm hperm).stored_editedAll (hperm.mem_iff.1 hmem)]
    · have hother : slot ∉ others.map OptionRule.slot :=
        fun hmem => hslot ((hperm.map OptionRule.slot).mem_iff.2 hmem)
      rw [first.others slot hslot, second.others slot hother]
  have hvalues : (editedAll rules file).optionsOrEmpty = (editedAll others file).optionsOrEmpty :=
    FileOptions.eq_of_stored (first.unmanaged.trans second.unmanaged.symm) hslots
  have hblock : (editedAll rules file).options.isSome = (editedAll others file).options.isSome := by
    rw [Bool.eq_iff_iff, h.isSome_editedAll_iff hok, (h.perm hperm).isSome_editedAll_iff
      fun rule hmem => hok rule (hperm.mem_iff.2 hmem)]
    simp only [hperm.mem_iff]
  rw [first.declared, second.declared, File.options_eq hvalues hblock]

end Independent

/-- Independent rules fail together if one of them fails on its own. -/
theorem sequence_rules_fails_iff {rules : List OptionRule} (h : Independent rules)
    {workspace : Workspace} :
    (∃ error left, Modifier.sequence (rules.map OptionRule.modifier) workspace =
      .error error left) ↔
    ∃ rule ∈ rules, ∃ error left, rule.modifier workspace = .error error left := by
  simp only [OptionRule.modifier_fails_iff]
  constructor
  · rintro ⟨error, left, hrun⟩
    by_contra hnone
    have hok : ∀ rule ∈ rules, ∀ file ∈ workspace.image.files, rule.error? file = none := by
      intro rule hrule file hfile
      refine Option.eq_none_iff_forall_ne_some.2 fun error herror => ?_
      exact hnone ⟨rule, hrule, file, hfile, error, herror⟩
    rw [(sequence_rules_eq_ok_iff h).2 ⟨hok, rfl⟩] at hrun
    cases hrun
  · rintro ⟨rule, hrule, file, hfile, error, herror⟩
    cases hrun : Modifier.sequence (rules.map OptionRule.modifier) workspace with
    | error error left => exact ⟨error, left, rfl⟩
    | ok _ done =>
      rw [((sequence_rules_eq_ok_iff h).1 hrun).1 rule hrule file hfile] at herror
      cases herror

/-- In another order independent rules make the same of an image, and note the same touches. -/
theorem appliedAll_perm {rules others : List OptionRule} (h : Independent rules)
    (hperm : rules.Perm others) {workspace : Workspace}
    (hok : ∀ rule ∈ rules, ∀ file ∈ workspace.image.files, rule.error? file = none) :
    (appliedAll rules workspace).image = (appliedAll others workspace).image ∧
      ∀ touch, touch ∈ (appliedAll rules workspace).sweeper.touches ↔
        touch ∈ (appliedAll others workspace).sweeper.touches := by
  constructor
  · exact congrArg Image.mk (List.map_congr_left fun file hmem =>
      h.editedAll_perm hperm fun rule hrule => hok rule hrule file hmem)
  · intro touch
    have htouches : (touchesAll rules workspace.image.files).Perm
      (touchesAll others workspace.image.files) := hperm.flatMap_right _
    simp only [appliedAll, Sweeper.mem_touches_touchAll, htouches.mem_iff]

/-- Rules for different slots, like those of a configuration, can run in any order, whatever the
image and the sweeper at hand: they succeed in all orders or in none, and when they succeed they
make the same image and leave the same touches, so that a sweep after them leaves the same too. They
fail just if one of them fails on the image as it was. -/
theorem sequence_rules_perm {rules others : List OptionRule}
    (hrules : (∃ config : Config, config.rules = .ok rules) ∨
      (∀ rule ∈ rules, rule.Standard) ∧ (rules.map OptionRule.slot).Nodup)
    (hperm : rules.Perm others) (workspace : Workspace) :
    ((∃ done, Modifier.sequence (rules.map OptionRule.modifier) workspace = .ok () done) ↔
      ∃ other, Modifier.sequence (others.map OptionRule.modifier) workspace = .ok () other) ∧
    (∀ done other, Modifier.sequence (rules.map OptionRule.modifier) workspace = .ok () done →
      Modifier.sequence (others.map OptionRule.modifier) workspace = .ok () other →
      done.image = other.image ∧
      (∀ touch, touch ∈ done.sweeper.touches ↔ touch ∈ other.sweeper.touches) ∧
      Modifier.sweep done = Modifier.sweep other) ∧
    ((∃ error left, Modifier.sequence (rules.map OptionRule.modifier) workspace =
        .error error left) ↔
      ∃ rule ∈ rules, ∃ error left, rule.modifier workspace = .error error left) := by
  obtain ⟨hstandard, hslots⟩ : (∀ rule ∈ rules, rule.Standard) ∧
      (rules.map OptionRule.slot).Nodup := by
    obtain ⟨config, hconfig⟩ | hboth := hrules
    · exact ⟨Config.standard_rules hconfig, (Config.independent_rules hconfig).slots⟩
    · exact hboth
  have h : Independent rules := ⟨hslots, fun rule hmem => (hstandard rule hmem).isLocal⟩
  have hruns := @sequence_rules_eq_ok_iff rules h workspace
  have hothers := @sequence_rules_eq_ok_iff others (h.perm hperm) workspace
  refine ⟨?_, fun done other hdone hother => ?_, sequence_rules_fails_iff h⟩
  · simp only [hruns, hothers, exists_and_left, exists_eq, and_true, hperm.mem_iff]
  · obtain ⟨hok, rfl⟩ := hruns.1 hdone
    obtain ⟨-, rfl⟩ := hothers.1 hother
    obtain ⟨himage, htouches⟩ := appliedAll_perm h hperm hok
    refine ⟨himage, htouches, ?_⟩
    simp only [Modifier.sweep, himage, Sweeper.sweepImage_congr htouches]
    rfl

/-- Two rules in both orders note their touches in different orders, but the image is one, and so is
what a sweep leaves. Where the second of them fails on its own, they fail together. -/
theorem sequence_rules_perm_namespace :
    let rules := [javaMultipleFilesRule true, csharpNamespaceRule]
    let others := [csharpNamespaceRule, javaMultipleFilesRule true]
    let named : Workspace := { image := ⟨[{ name := some "a.proto", package := some "acme.v1" }]⟩ }
    let faulty : Workspace :=
      { image := ⟨[{ name := some "a.proto", package := some "acme\x00" }]⟩ }
    (∃ done other, Modifier.sequence (rules.map OptionRule.modifier) named = .ok () done ∧
      Modifier.sequence (others.map OptionRule.modifier) named = .ok () other ∧
      done.sweeper.touches ≠ other.sweeper.touches ∧ done.image = other.image ∧
      Modifier.sweep done = Modifier.sweep other) ∧
    ∃ error left, Modifier.sequence (rules.map OptionRule.modifier) faulty = .error error left := by
  intro rules others named faulty
  have hstandard : ∀ rule ∈ rules, rule.Standard :=
    List.forall_mem_cons.2 ⟨.javaMultipleFiles true, List.forall_mem_singleton.2 .csharpNamespace⟩
  have hslots : (rules.map OptionRule.slot).Nodup := by decide
  have hspec := sequence_rules_perm (.inr ⟨hstandard, hslots⟩) (.swap _ _ [] : rules.Perm others)
  obtain ⟨done, hdone, htouches⟩ : ∃ done,
      Modifier.sequence (rules.map OptionRule.modifier) named = .ok () done ∧
        done.sweeper.touches.map Touch.path = [[8, 37], [8, 10]] := ⟨_, rfl, rfl⟩
  obtain ⟨other, hother, hotherTouches⟩ : ∃ other,
      Modifier.sequence (others.map OptionRule.modifier) named = .ok () other ∧
        other.sweeper.touches.map Touch.path = [[8, 10], [8, 37]] := ⟨_, rfl, rfl⟩
  obtain ⟨himage, -, hsweep⟩ := (hspec named).2.1 done other hdone hother
  refine ⟨⟨done, other, hdone, hother, fun heq => ?_, himage, hsweep⟩, (hspec faulty).2.2.2 ?_⟩
  · rw [heq, hotherTouches] at htouches
    cases htouches
  · exact ⟨csharpNamespaceRule, List.mem_cons_of_mem _ List.mem_cons_self, _, _, rfl⟩

end SchemaOptions
