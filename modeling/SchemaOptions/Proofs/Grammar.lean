import SchemaOptions.Proofs.Files
import SchemaOptions.Proofs.ImportPath
import SchemaOptions.Proofs.Joined
import SchemaOptions.Proofs.Target

/-!
# The grammars of the checks

What the checks accept, said without the steps that they take. A prefix of import paths is segments
with slashes between them (`prefixFault?_eq_none_iff_joined`), and a prefix of Java packages is
identifiers with full stops between them. Of names that are given by hand the first bad one is
reported (`GoPackage.withOverrides_eq_error_iff`). From these follows what a configuration is
rejected for (`Config.build_eq_error_iff`).
-/

namespace SchemaOptions

/-! ## Prefixes of import paths -/

/-- Whether the characters may stand between the slashes of an import path. -/
structure ImportSegment (segment : List Char) : Prop where
  named : segment ≠ [] ∧ segment ≠ ['.'] ∧ segment ≠ ['.', '.']
  noSlash : '/' ∉ segment
  plain : ∀ c ∈ segment,
    Text.isBlank c = false ∧ Text.isControl c = false ∧ c ≠ ';' ∧ c ≠ '\\'

theorem isForbidden_eq_false_iff {c : Char} :
    isForbidden c = false ↔
      Text.isBlank c = false ∧ Text.isControl c = false ∧ c ≠ ';' ∧ c ≠ '\\' := by
  simp only [isForbidden, Bool.or_eq_false_iff, beq_eq_false_iff_ne, and_assoc, ne_eq]

/-- Import paths can start with segments with slashes between them. -/
theorem prefixFault?_eq_none_iff_joined {text : String} :
    prefixFault? text = none ↔ Joined '/' ImportSegment text.toList := by
  rw [prefixFault?_eq_none_iff]
  constructor
  · rintro ⟨hchars, hsegments⟩
    rw [joined_iff_splitOn fun _ h => h.noSlash]
    intro segment hmem
    have hparts := mem_of_mem_splitOn hmem
    exact ⟨isProperSegment_iff.1 (hsegments segment hmem), fun hslash => (hparts _ hslash).2 rfl,
      fun c hc => isForbidden_eq_false_iff.1 (hchars c (hparts c hc).1)⟩
  · intro h
    refine ⟨h.forall_mem (by decide) fun cs hcs c hmem =>
      isForbidden_eq_false_iff.2 (hcs.plain c hmem), fun segment hmem => ?_⟩
    rw [joined_iff_splitOn fun _ h => h.noSlash] at h
    exact isProperSegment_iff.2 (h segment hmem).named

/-! ## The checks of rules -/

section

variable {entries : List (String × String)} {path name : String}

/-- Whether an entry is the first of a list whose name is none. -/
def IsFirstBadName (entries : List (String × String)) (path name : String) : Prop :=
  ∃ before after, entries = before ++ (path, name) :: after ∧
    (∀ entry ∈ before, Naming.isIdentifier entry.2) ∧ Naming.isIdentifier name = false

/-- A list of names either has a first bad one or none at all. -/
theorem exists_isFirstBadName_iff :
    (∃ path name, IsFirstBadName entries path name) ↔
      ∃ entry ∈ entries, Naming.isIdentifier entry.2 = false := by
  constructor
  · rintro ⟨path, name, before, after, rfl, -, hbad⟩
    exact ⟨(path, name), List.mem_append_right _ List.mem_cons_self, hbad⟩
  · rintro ⟨entry, hmem, hbad⟩
    have hfind : (entries.find? fun entry => !Naming.isIdentifier entry.2).isSome :=
      List.find?_isSome.2 ⟨entry, hmem, congrArg (!·) hbad⟩
    obtain ⟨⟨path, name⟩, hfirst⟩ := Option.isSome_iff_exists.1 hfind
    simp only [List.find?_eq_some_iff_append, Bool.not_not, Bool.not_eq_true'] at hfirst
    obtain ⟨hname, before, after, hentries, hbefore⟩ := hfirst
    exact ⟨path, name, before, after, hentries, hbefore, hname⟩

namespace GoPackage

variable {go after : GoPackage} {error : EditError}

theorem ofPrefix_eq_error_iff {importPrefix : String} :
    ofPrefix importPrefix = .error error ↔ ∃ fault, prefixFault? importPrefix = some fault ∧
      error = .configuration (.importPrefix importPrefix fault) := by
  unfold ofPrefix
  cases prefixFault? importPrefix with
  | none => exact iff_of_false nofun fun ⟨_, h, _⟩ => nomatch h
  | some fault =>
    simp only [Except.error.injEq, Option.some.injEq, exists_eq_left']
    exact eq_comm

/-- Names up to the first bad one are given, and that one is reported. -/
theorem withOverrides_of_isFirstBadName (h : IsFirstBadName entries path name) (go : GoPackage) :
    go.withOverrides entries = .error (.configuration (.overrideName path name)) := by
  obtain ⟨before, after, rfl, hbefore, hbad⟩ := h
  induction before generalizing go with
  | nil => rw [List.nil_append, withOverrides, if_neg (Bool.eq_false_iff.1 hbad)]
  | cons entry rest ih =>
    obtain ⟨hentry, hrest⟩ := List.forall_mem_cons.1 hbefore
    rw [List.cons_append, withOverrides, if_pos hentry]
    exact ih _ hrest

theorem withOverrides_eq_error_iff :
    go.withOverrides entries = .error error ↔ ∃ path name, IsFirstBadName entries path name ∧
      error = .configuration (.overrideName path name) := by
  constructor
  · intro h
    have hbad : ∃ entry ∈ entries, Naming.isIdentifier entry.2 = false := by
      refine Decidable.not_not.1 fun hnone => ?_
      have hgood : ∀ entry ∈ entries, Naming.isIdentifier entry.2 :=
        fun entry hmem => Bool.not_eq_false _ ▸ fun hbad => hnone ⟨entry, hmem, hbad⟩
      rw [withOverrides_eq_ok_iff.2 ⟨hgood, rfl⟩] at h
      cases h
    obtain ⟨path, name, hfirst⟩ := exists_isFirstBadName_iff.2 hbad
    rw [withOverrides_of_isFirstBadName hfirst] at h
    exact ⟨path, name, hfirst, (Except.error.inj h).symm⟩
  · rintro ⟨path, name, hfirst, rfl⟩
    exact withOverrides_of_isFirstBadName hfirst go

/-- The last name that a file is given by hand is the one that counts. -/
theorem lookup_reverse_append {before later others : List (String × String)}
    (h : path ∉ later.map Prod.fst) :
    ((before ++ (path, name) :: later).reverse ++ others).lookup path = some name := by
  have hlater : later.reverse.lookup path = none := by
    rw [lookup_eq_none_iff_notMem, List.map_reverse, List.mem_reverse]
    exact h
  rw [List.lookup_append, List.reverse_append, List.reverse_cons, List.lookup_append,
    List.lookup_append, hlater, List.lookup_singleton, beq_self_eq_true]
  rfl

/-- The last name that a file is given by hand is the one that its Go package gets. -/
theorem target_rule_withOverrides {file : File} (h : go.withOverrides entries = .ok after) :
    (∀ before name later, entries = before ++ (file.path, name) :: later →
      file.path ∉ later.map Prod.fst →
      after.rule.target file =
        (importPath go.importPrefix (some name) file).map (.set <| .text ·)) ∧
    (file.path ∉ entries.map Prod.fst → after.rule.target file = go.rule.target file) := by
  obtain ⟨-, rfl⟩ := withOverrides_eq_ok_iff.1 h
  refine ⟨?_, fun hnone => ?_⟩
  · rintro before name later rfl hlater
    simp only [rule, lookup_reverse_append hlater]
  · have hlookup : entries.reverse.lookup file.path = none := by
      rw [lookup_eq_none_iff_notMem, List.map_reverse, List.mem_reverse]
      exact hnone
    simp only [rule, List.lookup_append, hlookup, Option.none_or]

end GoPackage

end

namespace JavaPackage

theorem ofPrefix_eq_error_iff {packagePrefix : String} {error : EditError} :
    ofPrefix packagePrefix = .error error ↔ Naming.isDottedIdentifier packagePrefix = false ∧
      error = .configuration (.javaPrefix packagePrefix) := by
  unfold ofPrefix
  split
  · rename_i hdotted
    exact iff_of_false nofun fun h => Bool.eq_false_iff.1 h.1 hdotted
  · rename_i hdotted
    exact ⟨fun h => ⟨Bool.eq_false_iff.2 hdotted, (Except.error.inj h).symm⟩,
      fun h => congrArg Except.error h.2.symm⟩

/-- A file in a package that could be a prefix gets a Java package that could be one. -/
theorem editSlot_rule {java : JavaPackage} (hjava : Naming.isDottedIdentifier java.packagePrefix)
    {file : File} (hknown : file.isWellKnown = false)
    (hpackage : Naming.isDottedIdentifier file.packageName) (sweeper : Sweeper) :
    ∃ changed after left value,
      editSlot (.text .javaPackage) java.rule.target (file, sweeper) = .ok changed (after, left) ∧
      after.readSlot (.text .javaPackage) = some (.text value) ∧
      value = java.packagePrefix ++ "." ++ file.packageName ∧ Naming.isDottedIdentifier value := by
  have hvalue := Naming.isDottedIdentifier_append hjava hpackage
  have hnonempty : file.packageName ≠ "" := by
    intro hempty
    rw [hempty] at hpackage
    cases hpackage
  obtain ⟨hok, hdemand⟩ : java.rule.error? file = none ∧ java.rule.demand file = _ :=
    OptionRule.error?_ofText hknown (if_neg hnonempty)
      (Naming.nul_not_mem_of_isDottedIdentifier hvalue)
  exact ⟨_, _, _, _, OptionRule.editSlot_of_ok sweeper hok,
    OptionRule.readSlot_edited hok hdemand, rfl, hvalue⟩

end JavaPackage

/-! ## The checks of a configuration -/

/-- What a section on Go packages is rejected for: its prefix, or else the first bad name. -/
inductive GoSection.Rejected (go : GoSection) : ConfigurationFault → Prop where
  | importPrefix {fault : PrefixFault} (h : prefixFault? go.importPrefix = some fault) :
      Rejected go (.importPrefix go.importPrefix fault)
  | overrideName {path name : String} (opens : prefixFault? go.importPrefix = none)
      (h : IsFirstBadName go.overrides.entries path name) : Rejected go (.overrideName path name)

/-- What a configuration is rejected for: its section on Go packages, or else its section on Java
packages. -/
inductive Config.Rejected (config : Config) : ConfigurationFault → Prop where
  | goPackage {go : GoSection} {fault : ConfigurationFault} (enabled : config.goPackage = some go)
      (h : go.Rejected fault) : Rejected config fault
  | javaPackage {java : JavaSection}
      (goAccepted : ∀ go ∈ config.goPackage, ∀ fault, ¬go.Rejected fault)
      (enabled : config.javaPackage = some java)
      (h : Naming.isDottedIdentifier java.packagePrefix = false) :
      Rejected config (.javaPrefix java.packagePrefix)

namespace GoSection

variable {go : GoSection}

theorem rule_eq_error_iff {error : EditError} :
    go.rule = .error error ↔ ∃ fault, error = .configuration fault ∧ go.Rejected fault := by
  unfold rule
  simp only [bind_eq_error, GoPackage.ofPrefix_eq_ok_iff, GoPackage.ofPrefix_eq_error_iff,
    GoPackage.withOverrides_eq_error_iff]
  constructor
  · rintro (⟨fault, hfault, rfl⟩ | ⟨_, ⟨opens, rfl⟩, ⟨path, name, hfirst, rfl⟩ | ⟨_, -, h⟩⟩)
    · exact ⟨_, rfl, .importPrefix hfault⟩
    · exact ⟨_, rfl, .overrideName opens hfirst⟩
    · cases h
  · rintro ⟨_, rfl, hrejected⟩
    cases hrejected with
    | importPrefix hfault => exact .inl ⟨_, hfault, rfl⟩
    | overrideName opens hfirst => exact .inr ⟨_, ⟨opens, rfl⟩, .inl ⟨_, _, hfirst, rfl⟩⟩

/-- A section is rejected for a bad prefix or a bad name. -/
theorem exists_rejected_iff :
    (∃ fault, go.Rejected fault) ↔ ¬Joined '/' ImportSegment go.importPrefix.toList ∨
      ∃ entry ∈ go.overrides.entries, Naming.isIdentifier entry.2 = false := by
  rw [← prefixFault?_eq_none_iff_joined, ← exists_isFirstBadName_iff]
  constructor
  · rintro ⟨_, hrejected⟩
    cases hrejected with
    | importPrefix hfault => exact .inl fun hnone => nomatch hfault.symm.trans hnone
    | overrideName _ hfirst => exact .inr ⟨_, _, hfirst⟩
  · intro h
    cases hfault : prefixFault? go.importPrefix with
    | some fault => exact ⟨_, .importPrefix hfault⟩
    | none =>
      obtain ⟨path, name, hfirst⟩ := h.resolve_left (not_not_intro hfault)
      exact ⟨_, .overrideName hfault hfirst⟩

end GoSection

theorem JavaSection.rule_eq_error_iff {java : JavaSection} {error : EditError} :
    java.rule = .error error ↔ Naming.isDottedIdentifier java.packagePrefix = false ∧
      error = .configuration (.javaPrefix java.packagePrefix) := by
  unfold rule
  rw [bind_eq_error, JavaPackage.ofPrefix_eq_error_iff]
  exact or_iff_left fun ⟨_, _, h⟩ => nomatch h

namespace Config

theorem sectionRule_eq_error_iff {α : Type} {rule : α → Except EditError OptionRule}
    {body? : Option α} {error : EditError} :
    sectionRule rule body? = .error error ↔
      ∃ body, body? = some body ∧ rule body = .error error := by
  cases body? with
  | none => exact iff_of_false nofun fun ⟨_, h, _⟩ => nomatch h
  | some body =>
    rw [sectionRule]
    simp only [map_eq_error, Option.some.injEq, exists_eq_left']

variable {config : Config}

/-- The section on Go packages passes if it is rejected for nothing. -/
theorem exists_sectionRule_eq_ok_iff :
    (∃ rules, sectionRule GoSection.rule config.goPackage = .ok rules) ↔
      ∀ go ∈ config.goPackage, ∀ fault, ¬go.Rejected fault := by
  constructor
  · rintro ⟨rules, h⟩ go hgo fault hrejected
    have herror := sectionRule_eq_error_iff.2
      ⟨go, hgo, GoSection.rule_eq_error_iff.2 ⟨fault, rfl, hrejected⟩⟩
    cases h.symm.trans herror
  · intro haccepted
    cases hrules : sectionRule GoSection.rule config.goPackage with
    | ok rules => exact ⟨rules, rfl⟩
    | error error =>
      obtain ⟨go, hgo, hrule⟩ := sectionRule_eq_error_iff.1 hrules
      obtain ⟨fault, -, hrejected⟩ := GoSection.rule_eq_error_iff.1 hrule
      exact absurd hrejected (haccepted go hgo fault)

/-- A configuration cannot be built for what it is rejected for. -/
theorem build_eq_error_iff {error : EditError} :
    config.build = .error error ↔
      ∃ fault, error = .configuration fault ∧ config.Rejected fault := by
  rw [build, map_eq_error, rules, bind_eq_error]
  -- The section on Java packages is looked at only once the rules of the other are there.
  constructor
  · rintro (hgo | ⟨goRules, hgo, h⟩)
    · obtain ⟨go, enabled, hrule⟩ := sectionRule_eq_error_iff.1 hgo
      obtain ⟨fault, rfl, hrejected⟩ := GoSection.rule_eq_error_iff.1 hrule
      exact ⟨fault, rfl, .goPackage enabled hrejected⟩
    · obtain hjava | ⟨_, -, h⟩ := bind_eq_error.1 h
      · obtain ⟨java, enabled, hrule⟩ := sectionRule_eq_error_iff.1 hjava
        obtain ⟨hbad, rfl⟩ := JavaSection.rule_eq_error_iff.1 hrule
        exact ⟨_, rfl, .javaPackage (exists_sectionRule_eq_ok_iff.1 ⟨_, hgo⟩) enabled hbad⟩
      · cases h
  · rintro ⟨_, rfl, hrejected⟩
    cases hrejected with
    | goPackage enabled hrejected =>
      exact .inl (sectionRule_eq_error_iff.2
        ⟨_, enabled, GoSection.rule_eq_error_iff.2 ⟨_, rfl, hrejected⟩⟩)
    | javaPackage accepted enabled hbad =>
      obtain ⟨goRules, hgo⟩ := exists_sectionRule_eq_ok_iff.2 accepted
      refine .inr ⟨goRules, hgo, bind_eq_error.2 (.inl ?_)⟩
      exact sectionRule_eq_error_iff.2 ⟨_, enabled, JavaSection.rule_eq_error_iff.2 ⟨hbad, rfl⟩⟩

/-- A configuration is rejected for a bad section on Go packages or a bad one on Java packages. -/
theorem exists_rejected_iff :
    (∃ fault, config.Rejected fault) ↔
      (∃ go ∈ config.goPackage, ∃ fault, go.Rejected fault) ∨
        ∃ java ∈ config.javaPackage, Naming.isDottedIdentifier java.packagePrefix = false := by
  constructor
  · rintro ⟨_, hrejected⟩
    cases hrejected with
    | goPackage enabled hrejected => exact .inl ⟨_, enabled, _, hrejected⟩
    | javaPackage _ enabled hbad => exact .inr ⟨_, enabled, hbad⟩
  · intro h
    by_cases hgo : ∃ go ∈ config.goPackage, ∃ fault, go.Rejected fault
    · obtain ⟨go, enabled, fault, hrejected⟩ := hgo
      exact ⟨fault, .goPackage enabled hrejected⟩
    · obtain ⟨java, enabled, hbad⟩ := h.resolve_left hgo
      exact ⟨_, .javaPackage (fun go hmem fault hrejected =>
        hgo ⟨go, hmem, fault, hrejected⟩) enabled hbad⟩

end Config

/-! ## The grammars -/

/-- The checks accept exactly their grammars: prefixes of import paths are segments with slashes
between them, prefixes of Java packages are identifiers with full stops between them, as the regular
expressions say, and names that are given by hand are identifiers. The first bad name is reported;
if there is none, the last name for a file is the one it gets. A configuration cannot be built just
if a section that it enables is bad, the one on Go packages being the first to be looked at. Below
an accepted prefix, a file in a package that could be a prefix gets a Java package that could be
one. -/
theorem checks_match_grammars :
    (∀ text, (∃ go, GoPackage.ofPrefix text = .ok go) ↔ Joined '/' ImportSegment text.toList) ∧
    (∀ text, (∃ java, JavaPackage.ofPrefix text = .ok java) ↔
      ∀ part ∈ text.toList.splitOn '.', Naming.isIdentifier (String.ofList part)) ∧
    (∀ text, (∃ java, JavaPackage.ofPrefix text = .ok java) ↔
      text.toList ∈ separated '.' Naming.identifiers) ∧
    (∀ text, Naming.isIdentifier text ↔ text.toList ∈ Naming.identifiers) ∧
    (∀ go entries, ((∃ after, GoPackage.withOverrides entries go = .ok after) ↔
        ∀ entry ∈ entries, Naming.isIdentifier entry.2) ∧
      (∀ error, go.withOverrides entries = .error error ↔ ∃ path name,
        IsFirstBadName entries path name ∧ error = .configuration (.overrideName path name)) ∧
      ∀ after, go.withOverrides entries = .ok after → ∀ file : File,
        (∀ before name later, entries = before ++ (file.path, name) :: later →
          file.path ∉ later.map Prod.fst → after.rule.target file =
            (GoPackage.importPath go.importPrefix (some name) file).map (.set <| .text ·)) ∧
        (file.path ∉ entries.map Prod.fst → after.rule.target file = go.rule.target file)) ∧
    (∀ config : Config,
      (∀ error, config.build = .error error ↔
        ∃ fault, error = .configuration fault ∧ config.Rejected fault) ∧
      ((∃ fault, config.Rejected fault) ↔
        (∃ go ∈ config.goPackage, ¬Joined '/' ImportSegment go.importPrefix.toList ∨
          ∃ entry ∈ go.overrides.entries, Naming.isIdentifier entry.2 = false) ∨
        ∃ java ∈ config.javaPackage,
          java.packagePrefix.toList ∉ separated '.' Naming.identifiers)) ∧
    ∀ packagePrefix java, JavaPackage.ofPrefix packagePrefix = .ok java →
      ∀ file : File, file.isWellKnown = false →
        (∃ other, JavaPackage.ofPrefix file.packageName = .ok other) →
        ∀ sweeper, ∃ changed after left value,
          editSlot (.text .javaPackage) java.rule.target (file, sweeper) =
            .ok changed (after, left) ∧
          after.readSlot (.text .javaPackage) = some (.text value) ∧
          value = packagePrefix ++ "." ++ file.packageName ∧
          ∃ again, JavaPackage.ofPrefix value = .ok again := by
  have hjava (text : String) : (∃ java, JavaPackage.ofPrefix text = .ok java) ↔
      Naming.isDottedIdentifier text := by
    simp only [JavaPackage.ofPrefix_eq_ok_iff, exists_and_left, exists_eq, and_true]
  refine ⟨fun text => ?_, fun text => ?_, fun text => ?_, fun text => ?_, fun go entries =>
    ⟨?_, fun error => GoPackage.withOverrides_eq_error_iff,
      fun after h file => GoPackage.target_rule_withOverrides h⟩,
    fun config => ⟨fun error => config.build_eq_error_iff, ?_⟩, ?_⟩
  · simp only [GoPackage.ofPrefix_eq_ok_iff, exists_and_left, exists_eq, and_true,
      prefixFault?_eq_none_iff_joined]
  · simp only [hjava, Naming.isDottedIdentifier, Naming.isIdentifier, List.all_eq_true,
      String.toList_ofList]
  · rw [hjava, Naming.mem_separated_identifiers_iff]
  · rw [Naming.mem_identifiers_iff, Naming.isIdentifier]
  · simp only [GoPackage.withOverrides_eq_ok_iff, exists_and_left, exists_eq, and_true]
  · simp only [Config.exists_rejected_iff, GoSection.exists_rejected_iff,
      Naming.mem_separated_identifiers_iff, Bool.not_eq_true]
  · intro packagePrefix java hmade file hknown hpackage sweeper
    obtain ⟨hdotted, rfl⟩ := JavaPackage.ofPrefix_eq_ok_iff.1 hmade
    obtain ⟨changed, after, left, value, hrun, hread, heq, hvalue⟩ :=
      JavaPackage.editSlot_rule hdotted hknown ((hjava _).1 hpackage) sweeper
    exact ⟨changed, after, left, value, hrun, hread, heq, (hjava value).2 hvalue⟩

/-- Of two bad sections, the one on Go packages is reported, and of two bad names the first. -/
theorem checks_match_grammars_bothBad :
    let config : Config := {
      goPackage := some {
        importPrefix := "x"
        overrides := ⟨[("a.proto", "a"), ("b.proto", "9"), ("c.proto", "")], by decide⟩ }
      javaPackage := some ⟨"com."⟩ }
    config.build = .error (.configuration (.overrideName "b.proto" "9")) := by
  intro config
  refine (checks_match_grammars.2.2.2.2.2.1 config).1 _ |>.2 ⟨_, rfl, .goPackage rfl ?_⟩
  exact .overrideName (by decide) ⟨[("a.proto", "a")], _, rfl,
    List.forall_mem_singleton.2 (by decide), by decide⟩

end SchemaOptions
