import SchemaOptions.Config.Pass
import SchemaOptions.Proofs.GoPackage
import SchemaOptions.Proofs.Rules

/-!
# What a configuration asks for

A configuration asks something of each slot of each file: a value, none, or nothing at all
(`Config.target`). It looks at the path and the package of the file for that, and at nothing else.
The one thing that it can refuse to answer for is a path that cannot be part of an import path,
where it is to become one (`Config.answer`).

`Config.rules_follow` is the link to the rules that the configuration stands for: they are those of
the enabled slots in a fixed order, and each says what the configuration asks of its slot. Hence
they do not notice each other (`Config.independent_rules`).
-/

namespace SchemaOptions

section

variable {ε α β : Type} {first : Except ε α} {error : ε}

/-- A computation in two steps succeeds if both steps do. -/
theorem bind_eq_ok {next : α → Except ε β} {b : β} :
    (first >>= next) = .ok b ↔ ∃ a, first = .ok a ∧ next a = .ok b := by
  cases first with
  | error e => exact ⟨fun h => (by cases h), fun ⟨_, h, _⟩ => (by cases h)⟩
  | ok a => exact ⟨fun h => ⟨a, rfl, h⟩, fun ⟨_, hfirst, h⟩ => (by cases hfirst; exact h)⟩

/-- A computation in two steps fails if one of the steps does. -/
theorem bind_eq_error {next : α → Except ε β} :
    (first >>= next) = .error error ↔
      first = .error error ∨ ∃ a, first = .ok a ∧ next a = .error error := by
  cases first with
  | error e =>
    constructor
    · exact fun h => (by cases h; exact .inl rfl)
    · rintro (h | ⟨_, hfirst, -⟩)
      · cases h
        rfl
      · cases hfirst
  | ok a =>
    constructor
    · exact fun h => .inr ⟨a, rfl, h⟩
    · rintro (h | ⟨_, hfirst, h⟩)
      · cases h
      · cases hfirst
        exact h

theorem map_eq_error {f : α → β} : first.map f = .error error ↔ first = .error error := by
  cases first with
  | error e => exact ⟨fun h => (by cases h; rfl), fun h => (by cases h; rfl)⟩
  | ok a => exact iff_of_false nofun nofun

end

/-! ## Targets -/

/-- The Go package of a file with a path and a package: the prefix, the directory of the file, and
behind a semicolon the name that the file was given or that its package has. -/
def GoSection.importPath (go : GoSection) (path package : String) : String :=
  let directory := (Naming.directory? path).elim go.importPrefix (go.importPrefix ++ "/" ++ ·)
  let name? := (go.overrides.entries.lookup path).or (Naming.versionedName? package)
  name?.elim directory (directory ++ ";" ++ ·)

/-- The Java package of a file with a package. -/
def JavaSection.packageName? (java : JavaSection) (package : String) : Option String :=
  if package = "" then none else some (java.packagePrefix ++ "." ++ package)

namespace Config

/-- Whether the section on a slot is enabled. -/
def enables (config : Config) : Slot → Bool
  | .text .goPackage => config.goPackage.isSome
  | .text .javaPackage => config.javaPackage.isSome
  | .flag .javaMultipleFiles => config.javaMultipleFiles.isSome
  | .text .javaOuterClassname => config.javaOuterClassname
  | .text .csharpNamespace => config.csharpNamespace
  | .text .rubyPackage => config.rubyPackage
  | .text .phpNamespace => config.phpNamespace
  | .text .objcClassPrefix => config.objcClassPrefix
  | .flag .ccEnableArenas => config.ccEnableArenas.isSome
  | .optimizeFor => config.optimizeFor.isSome

/-- The text that a configuration asks for in the file with a path and a package. -/
def text? (config : Config) (slot : TextSlot) (path package : String) : Option String :=
  match slot with
  | .goPackage => config.goPackage.map (·.importPath path package)
  | .javaPackage => config.javaPackage.bind (·.packageName? package)
  | .javaOuterClassname =>
    if config.javaOuterClassname then some (Naming.pascalCase (Naming.fileStem path) ++ "Proto")
    else none
  | .csharpNamespace => if config.csharpNamespace then joinedNamespace? "." package else none
  | .rubyPackage => if config.rubyPackage then joinedNamespace? "::" package else none
  | .phpNamespace => if config.phpNamespace then joinedNamespace? "\\" package else none
  | .objcClassPrefix => if config.objcClassPrefix then classPrefix? package else none

/-- The truth value that a configuration asks for in every file. -/
def flag? (config : Config) : FlagSlot → Option Bool
  | .javaMultipleFiles => config.javaMultipleFiles
  | .ccEnableArenas => config.ccEnableArenas

/-- What a configuration asks of a slot in the file with a path and a package. A class prefix that
is managed is taken away if there is none to be had; anything else stays as it is. -/
def target (config : Config) (slot : Slot) (path package : String) : OptionEdit :=
  match slot with
  | .text slot =>
    match config.text? slot path package with
    | some s => .set (.text s)
    | none => if slot = .objcClassPrefix ∧ config.objcClassPrefix then .clear else .keep
  | .flag slot => (config.flag? slot).elim .keep (.set <| .flag ·)
  | .optimizeFor => config.optimizeFor.elim .keep (.set <| .mode ·)

/-- What a configuration answers for a slot in the file with a path and a package: what it asks for,
unless an import path is to be made of a path that cannot be part of one. -/
def answer (config : Config) (slot : Slot) (path package : String) : Except EditError OptionEdit :=
  if slot = .text .goPackage then
    match pathFault? path with
    | some fault => .error (.file path (.path fault))
    | none => .ok (config.target slot path package)
  else
    .ok (config.target slot path package)

/-- A section that is not enabled asks for nothing. -/
theorem target_of_not_enables {config : Config} {slot : Slot} (h : config.enables slot = false)
    (path package : String) : config.target slot path package = .keep := by
  cases slot with
  | text slot => cases slot <;> simp_all [enables, target, text?]
  | flag slot => cases slot <;> simp_all [enables, target, flag?]
  | optimizeFor => simp_all [enables, target]

/-- A configuration asks for values of the kind that the slot takes. -/
theorem kind_of_target {config : Config} {slot : Slot} {path package : String}
    {value : OptionValue} (h : config.target slot path package = .set value) :
    value.kind = slot.kind := by
  cases slot with
  | text slot =>
    simp only [target] at h
    split at h
    · cases h
      rfl
    · split at h <;> cases h
  | flag slot =>
    simp only [target] at h
    cases hflag : config.flag? slot <;> rw [hflag] at h <;> cases h
    rfl
  | optimizeFor =>
    simp only [target] at h
    cases hmode : config.optimizeFor <;> rw [hmode] at h <;> cases h
    rfl

end Config

/-! ## The rules of the sections -/

/-- A path without an entry in a table is none of its keys. -/
theorem lookup_eq_none_iff_notMem {entries : List (String × String)} {path : String} :
    entries.lookup path = none ↔ path ∉ entries.map Prod.fst := by
  simp only [List.lookup_eq_none_iff, bne_iff_ne, List.mem_map, not_exists, not_and]
  exact forall₂_congr fun entry _ => ne_comm

/-- In a table without repeated keys the order of the entries does not matter. -/
theorem lookup_reverse {entries : List (String × String)} (h : (entries.map Prod.fst).Nodup)
    (key : String) : entries.reverse.lookup key = entries.lookup key := by
  induction entries with
  | nil => rfl
  | cons entry rest ih =>
    obtain ⟨hentry, hrest⟩ := List.nodup_cons.1 h
    rw [List.reverse_cons, List.lookup_append, ih hrest, List.lookup_singleton, List.lookup_cons]
    cases heq : key == entry.1 with
    | false => exact Option.or_none
    | true =>
      have hnone : rest.lookup key = none :=
        lookup_eq_none_iff_notMem.2 (eq_of_beq heq ▸ hentry)
      rw [hnone]
      rfl

theorem PackageNames.nodup_keys (names : PackageNames) : (names.entries.map Prod.fst).Nodup := by
  refine List.pairwise_map.2 (names.sorted.imp fun {a b} hlt heq => ?_)
  exact String.lt_irrefl _ (heq ▸ hlt)

/-- The rule of a section on Go packages answers as the section says. -/
theorem GoSection.rule_eq_ok {go : GoSection} {rule : OptionRule} (h : go.rule = .ok rule) :
    rule.slot = .text .goPackage ∧ ∀ file : File, rule.target file =
      match pathFault? file.path with
      | some fault => .error (.file file.path (.path fault))
      | none => .ok (.set (.text (go.importPath file.path file.packageName))) := by
  obtain ⟨start, hstart, hrule⟩ := bind_eq_ok.1 h
  obtain ⟨given, hgiven, heq⟩ := bind_eq_ok.1 hrule
  cases heq
  obtain ⟨-, rfl⟩ := GoPackage.ofPrefix_eq_ok_iff.1 hstart
  obtain ⟨-, rfl⟩ := GoPackage.withOverrides_eq_ok_iff.1 hgiven
  refine ⟨rfl, ?_⟩
  intro file
  simp only [GoPackage.rule, GoPackage.importPath, List.append_nil,
    lookup_reverse go.overrides.nodup_keys, importPath]
  cases pathFault? file.path with
  | some fault => rfl
  | none =>
    cases (go.overrides.entries.lookup file.path).or (Naming.versionedName? file.packageName) <;>
      cases Naming.directory? file.path <;> rfl

theorem JavaPackage.ofPrefix_eq_ok_iff {packagePrefix : String} {java : JavaPackage} :
    ofPrefix packagePrefix = .ok java ↔ Naming.isDottedIdentifier packagePrefix ∧
      java = { packagePrefix } := by
  unfold ofPrefix
  split
  · rename_i hdotted
    exact ⟨fun h => ⟨hdotted, (Except.ok.inj h).symm⟩, fun h => congrArg Except.ok h.2.symm⟩
  · rename_i hdotted
    exact iff_of_false nofun fun h => hdotted h.1

/-- The rule of a section on Java packages answers as the section says. -/
theorem JavaSection.rule_eq_ok {java : JavaSection} {rule : OptionRule} (h : java.rule = .ok rule) :
    rule.slot = .text .javaPackage ∧ ∀ file : File, rule.target file =
      .ok ((java.packageName? file.packageName).elim .keep (.set <| .text ·)) := by
  obtain ⟨start, hstart, heq⟩ := bind_eq_ok.1 h
  cases heq
  obtain ⟨-, rfl⟩ := JavaPackage.ofPrefix_eq_ok_iff.1 hstart
  refine ⟨rfl, ?_⟩
  intro file
  simp only [JavaPackage.rule, OptionRule.ofText, packageName?]
  by_cases hpackage : file.packageName = ""
  · rw [if_pos hpackage]
    rfl
  · rw [if_neg hpackage]
    rfl

/-! ## Following a configuration -/

/-- Rules that are those of the enabled ones of some slots, and say what the configuration does. -/
structure Config.Follows (config : Config) (slots : List Slot) (rules : List OptionRule) :
    Prop where
  slots_eq : rules.map OptionRule.slot = slots.filter config.enables
  target_eq : ∀ rule ∈ rules, ∀ file : File,
    rule.target file = config.answer rule.slot file.path file.packageName

namespace Config

variable {config : Config}

theorem Follows.append {slots others : List Slot} {rules more : List OptionRule}
    (first : config.Follows slots rules) (second : config.Follows others more) :
    config.Follows (slots ++ others) (rules ++ more) where
  slots_eq := by rw [List.map_append, List.filter_append, first.slots_eq, second.slots_eq]
  target_eq := fun rule hmem =>
    (List.mem_append.1 hmem).elim (first.target_eq rule) (second.target_eq rule)

/-- The rule of a section with a body follows the configuration if it does when enabled. -/
theorem follows_toList {rule? : Option OptionRule} {slot : Slot}
    (henables : config.enables slot = rule?.isSome)
    (h : ∀ rule, rule? = some rule → rule.slot = slot ∧ ∀ file : File,
      rule.target file = config.answer slot file.path file.packageName) :
    config.Follows [slot] rule?.toList := by
  cases rule? with
  | none => exact ⟨by rw [List.filter_singleton, henables]; rfl, fun _ hmem => by cases hmem⟩
  | some rule =>
    obtain ⟨rfl, htarget⟩ := h rule rfl
    refine ⟨by rw [List.filter_singleton, henables]; rfl, ?_⟩
    intro other hmem
    obtain rfl := List.mem_singleton.1 hmem
    exact htarget

/-- The rule of a section without a body follows the configuration if it does when enabled. -/
theorem follows_ite (rule : OptionRule) (h : config.enables rule.slot = true → ∀ file : File,
      rule.target file = config.answer rule.slot file.path file.packageName) :
    config.Follows [rule.slot] (if config.enables rule.slot then [rule] else []) := by
  cases henables : config.enables rule.slot with
  | false => exact ⟨by rw [List.filter_singleton, henables]; rfl, fun _ hmem => by cases hmem⟩
  | true =>
    refine ⟨by rw [List.filter_singleton, henables]; rfl, ?_⟩
    intro other hmem
    obtain rfl := List.mem_singleton.1 hmem
    exact h henables

/-- A text that is managed, or else left alone, is answered for every file. -/
theorem answer_text {slot : TextSlot} (hgo : slot ≠ .goPackage) (hobjc : slot ≠ .objcClassPrefix)
    (path package : String) :
    config.answer (.text slot) path package =
      .ok ((config.text? slot path package).elim .keep (.set <| .text ·)) := by
  have hslot : Slot.text slot ≠ .text .goPackage := fun heq => hgo (Slot.text.inj heq)
  rw [answer, if_neg hslot, target]
  cases config.text? slot path package with
  | none => exact congrArg _ (if_neg fun h => hobjc h.1)
  | some s => rfl

/-- The rule of a section that manages a text follows the configuration. -/
theorem follows_ofText (slot : TextSlot) {text? : File → Option String}
    (hgo : slot ≠ .goPackage) (hobjc : slot ≠ .objcClassPrefix)
    (h : config.enables (.text slot) = true → ∀ file : File,
      config.text? slot file.path file.packageName = text? file) :
    config.Follows [.text slot]
      (if config.enables (.text slot) then [OptionRule.ofText slot text?] else []) := by
  refine follows_ite (OptionRule.ofText slot text?) ?_
  intro henables file
  refine Eq.trans ?_ (answer_text hgo hobjc file.path file.packageName).symm
  rw [h henables file]
  simp only [OptionRule.ofText]
  cases text? file <;> rfl

/-- The slots in the order in which their rules are put into effect. -/
def order : List Slot := [
  .text .goPackage,
  .text .javaPackage,
  .flag .javaMultipleFiles,
  .text .javaOuterClassname,
  .text .csharpNamespace,
  .text .rubyPackage,
  .text .phpNamespace,
  .text .objcClassPrefix,
  .flag .ccEnableArenas,
  .optimizeFor]

theorem mem_order (slot : Slot) : slot ∈ order := by
  rcases slot with slot | slot | _
  · cases slot <;> decide
  · cases slot <;> decide
  · decide

theorem nodup_order : order.Nodup := by decide

/-- The rules of the sections that need no check follow the configuration. -/
theorem follows_plainRules (config : Config) :
    config.Follows (order.drop 2) config.plainRules := by
  have hmultiple : config.Follows [.flag .javaMultipleFiles]
      (config.javaMultipleFiles.map javaMultipleFilesRule).toList := by
    refine follows_toList (by rw [Option.isSome_map]; rfl) ?_
    intro rule hrule
    obtain ⟨b, hb, rfl⟩ := Option.map_eq_some_iff.1 hrule
    exact ⟨rfl, fun file => congrArg Except.ok (by rw [target, flag?, hb]; rfl)⟩
  have harenas : config.Follows [.flag .ccEnableArenas]
      (config.ccEnableArenas.map ccEnableArenasRule).toList := by
    refine follows_toList (by rw [Option.isSome_map]; rfl) ?_
    intro rule hrule
    obtain ⟨b, hb, rfl⟩ := Option.map_eq_some_iff.1 hrule
    exact ⟨rfl, fun file => congrArg Except.ok (by rw [target, flag?, hb]; rfl)⟩
  have hmode : config.Follows [.optimizeFor] (config.optimizeFor.map optimizeForRule).toList := by
    refine follows_toList (by rw [Option.isSome_map]; rfl) ?_
    intro rule hrule
    obtain ⟨m, hm, rfl⟩ := Option.map_eq_some_iff.1 hrule
    exact ⟨rfl, fun file => congrArg Except.ok (by rw [target, hm]; rfl)⟩
  have hprefix : config.Follows [.text .objcClassPrefix]
      (if config.objcClassPrefix then [objcClassPrefixRule] else []) := by
    refine follows_ite objcClassPrefixRule ?_
    intro henables file
    have hobjc : config.objcClassPrefix = true := henables
    show _ = Except.ok (config.target (.text .objcClassPrefix) file.path file.packageName)
    rw [target, text?, if_pos hobjc]
    simp only [objcClassPrefixRule]
    cases classPrefix? file.packageName with
    | some s => rfl
    | none => exact congrArg Except.ok (if_pos ⟨trivial, hobjc⟩).symm
  have houter : config.Follows [.text .javaOuterClassname]
      (if config.javaOuterClassname then [javaOuterClassnameRule] else []) :=
    follows_ofText .javaOuterClassname (by decide) (by decide) fun h _ => if_pos h
  have hcsharp : config.Follows [.text .csharpNamespace]
      (if config.csharpNamespace then [csharpNamespaceRule] else []) :=
    follows_ofText .csharpNamespace (by decide) (by decide) fun h _ => if_pos h
  have hruby : config.Follows [.text .rubyPackage]
      (if config.rubyPackage then [rubyPackageRule] else []) :=
    follows_ofText .rubyPackage (by decide) (by decide) fun h _ => if_pos h
  have hphp : config.Follows [.text .phpNamespace]
      (if config.phpNamespace then [phpNamespaceRule] else []) :=
    follows_ofText .phpNamespace (by decide) (by decide) fun h _ => if_pos h
  exact ((((((hmultiple.append houter).append hcsharp).append hruby).append hphp).append
    hprefix).append harenas).append hmode

/-- The rules of a section that is checked, from its body to the list of rules. -/
theorem sectionRule_eq_ok {α : Type} {rule : α → Except EditError OptionRule} {body? : Option α}
    {rules : List OptionRule} (h : sectionRule rule body? = .ok rules) :
    ∃ rule? : Option OptionRule, rules = rule?.toList ∧ rule?.isSome = body?.isSome ∧
      ∀ one, rule? = some one → ∃ body, body? = some body ∧ rule body = .ok one := by
  cases body? with
  | none =>
    cases h
    exact ⟨none, rfl, rfl, fun _ hone => by cases hone⟩
  | some body =>
    simp only [sectionRule] at h
    cases hrule : rule body with
    | error e => rw [hrule] at h; cases h
    | ok one =>
      rw [hrule] at h
      cases h
      exact ⟨some one, rfl, rfl, fun _ hone => by cases hone; exact ⟨body, rfl, hrule⟩⟩

/-- The rules of a configuration are those of the enabled slots, in order, and each says what the
configuration answers. -/
theorem rules_follow {rules : List OptionRule} (h : config.rules = .ok rules) :
    config.Follows order rules := by
  obtain ⟨go, hgo, h⟩ := bind_eq_ok.1 h
  obtain ⟨java, hjava, h⟩ := bind_eq_ok.1 h
  cases h
  have hfollows (hgo : config.Follows [.text .goPackage] go)
      (hjava : config.Follows [.text .javaPackage] java) :
      config.Follows order (go ++ java ++ config.plainRules) :=
    (hgo.append hjava).append config.follows_plainRules
  refine hfollows ?_ ?_
  · obtain ⟨rule?, rfl, hsome, hrule⟩ := sectionRule_eq_ok hgo
    refine follows_toList hsome.symm ?_
    intro rule hone
    obtain ⟨goSection, hbody, hmade⟩ := hrule rule hone
    obtain ⟨hslot, htarget⟩ := GoSection.rule_eq_ok hmade
    refine ⟨hslot, ?_⟩
    intro file
    rw [htarget, answer, if_pos rfl, target, text?, hbody]
    rfl
  · obtain ⟨rule?, rfl, hsome, hrule⟩ := sectionRule_eq_ok hjava
    refine follows_toList hsome.symm ?_
    intro rule hone
    obtain ⟨javaSection, hbody, hmade⟩ := hrule rule hone
    obtain ⟨hslot, htarget⟩ := JavaSection.rule_eq_ok hmade
    refine ⟨hslot, ?_⟩
    intro file
    rw [htarget, answer_text (by decide) (by decide), text?, hbody]
    rfl

/-- The rules of a configuration do not notice each other. -/
theorem independent_rules {rules : List OptionRule} (h : config.rules = .ok rules) :
    Independent rules where
  slots := by
    rw [(rules_follow h).slots_eq]
    exact nodup_order.filter _
  isLocal := fun rule hmem file other hpath hpackage => by
    rw [(rules_follow h).target_eq rule hmem, (rules_follow h).target_eq rule hmem, hpath, hpackage]

/-- Exactly the enabled slots have a rule. -/
theorem exists_rule_iff {rules : List OptionRule} (h : config.rules = .ok rules) {slot : Slot} :
    (∃ rule ∈ rules, rule.slot = slot) ↔ config.enables slot = true := by
  rw [← List.mem_map, (rules_follow h).slots_eq, List.mem_filter]
  exact and_iff_right (mem_order slot)

end Config

end SchemaOptions
