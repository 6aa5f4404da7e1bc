import Mathlib.Data.List.Basic
import SchemaOptions.Proofs.Naming
import SchemaOptions.Rule.GoPackage

/-!
# The form of Go packages

A Go package is to be an import path, of the same form as those that may open other import paths,
and behind it may stand one semicolon and an identifier (`IsGoPackage`). Its parts come from three
places, and each is checked in a way of its own: prefixes by `prefixFault?`, paths of files by
`pathFault?`, which lets semicolons, white space and controls pass, and names by `isIdentifier` if
they are given by hand, but not at all if they are derived from packages. So what comes out has the
form on a condition (`GoPackage.isGoPackage_importPath_iff`), which files with plain directories and
packages made of identifiers meet (`GoPackage.isGoPackage_importPath`).
-/

namespace SchemaOptions

/-! ## The checks of paths -/

/-- A text whose segments all name something is not empty and has no slash at either end. -/
theorem ends_of_properSegments {text : String}
    (h : ∀ segment ∈ Naming.segments text, isProperSegment segment) :
    text ≠ "" ∧ text.toList.head? ≠ some '/' ∧ text.toList.getLast? ≠ some '/' := by
  have hempty : [] ∉ Naming.segments text := fun hmem => nomatch h [] hmem
  have hslash (before after : List Char) (htext : text.toList = before ++ '/' :: after) :
      before ≠ [] ∧ after ≠ [] := by
    rw [Naming.segments, htext, List.splitOn_append_cons_self, List.mem_append, not_or] at hempty
    constructor
    · rintro rfl
      exact hempty.1 List.mem_cons_self
    · rintro rfl
      exact hempty.2 List.mem_cons_self
  refine ⟨?_, fun hhead => ?_, fun hlast => ?_⟩
  · rintro rfl
    exact hempty List.mem_cons_self
  · obtain ⟨after, htext⟩ := List.head?_eq_some_iff.1 hhead
    exact (hslash [] after htext).1 rfl
  · obtain ⟨before, htext⟩ := List.getLast?_eq_some_iff.1 hlast
    exact (hslash before [] htext).2 rfl

/-- Import paths can start with the texts in which no character is forbidden and whose segments all
name something. -/
theorem prefixFault?_eq_none_iff {text : String} :
    prefixFault? text = none ↔ (∀ c ∈ text.toList, isForbidden c = false) ∧
      ∀ segment ∈ Naming.segments text, isProperSegment segment := by
  constructor
  · intro h
    unfold prefixFault? at h
    split at h
    · cases h
    · split at h
      · cases h
      · rename_i hfind
        split at h
        · cases h
        · split at h
          · rename_i hsegments
            exact ⟨fun c hc => Bool.eq_false_iff.2 (List.find?_eq_none.1 hfind c hc),
              List.all_eq_true.1 hsegments⟩
          · cases h
  · rintro ⟨hchars, hsegments⟩
    obtain ⟨hempty, hhead, hlast⟩ := ends_of_properSegments hsegments
    have hfind : text.toList.find? isForbidden = none :=
      List.find?_eq_none.2 fun c hc => Bool.eq_false_iff.1 (hchars c hc)
    rw [prefixFault?, if_neg hempty, hfind]
    simp only [if_neg (not_or.2 ⟨hhead, hlast⟩), if_pos (List.all_eq_true.2 hsegments)]

/-- The paths that can be part of an import path are those without a backslash whose segments all
name something. -/
theorem pathFault?_eq_none_iff {path : String} :
    pathFault? path = none ↔ '\\' ∉ path.toList ∧
      ∀ segment ∈ Naming.segments path, isProperSegment segment := by
  constructor
  · intro h
    unfold pathFault? at h
    split at h
    · cases h
    · split at h
      · cases h
      · split at h
        · cases h
        · rename_i hbackslash
          split at h
          · rename_i hsegments
            exact ⟨fun hmem => hbackslash (List.contains_iff_mem.2 hmem),
              List.all_eq_true.1 hsegments⟩
          · cases h
  · rintro ⟨hbackslash, hsegments⟩
    obtain ⟨hempty, hhead, -⟩ := ends_of_properSegments hsegments
    rw [pathFault?, if_neg hempty, if_neg hhead,
      if_neg fun hmem => hbackslash (List.contains_iff_mem.1 hmem),
      if_pos (List.all_eq_true.2 hsegments)]

/-! ## Import paths of directories -/

/-- Whether the directory of a path holds only characters that may stand in an import path. -/
def PlainDirectory (path : String) : Prop :=
  ∀ directory ∈ Naming.directory? path, ∀ c ∈ directory.toList, isForbidden c = false

instance (path : String) : Decidable (PlainDirectory path) :=
  decidable_of_iff ((Naming.directory? path).all (·.toList.all (!isForbidden ·))) <| by
    simp only [PlainDirectory, Option.all_eq_true, List.all_eq_true, Option.mem_def,
      Bool.not_eq_true']

/-- The import path of the directory of a file's path. -/
def importDirectory (importPrefix path : String) : String :=
  (Naming.directory? path).elim importPrefix (importPrefix ++ "/" ++ ·)

/-- The import path of a directory can itself open import paths just if the directory is plain. -/
theorem prefixFault?_importDirectory_iff {importPrefix path : String}
    (hopens : prefixFault? importPrefix = none) (hpath : pathFault? path = none) :
    prefixFault? (importDirectory importPrefix path) = none ↔ PlainDirectory path := by
  unfold importDirectory PlainDirectory
  cases hdirectory : Naming.directory? path with
  | none => exact iff_of_true hopens fun directory hmem => nomatch hmem
  | some directory =>
    obtain ⟨hchars, hsegments⟩ := prefixFault?_eq_none_iff.1 hopens
    obtain ⟨own, rfl, -⟩ := Naming.directory?_eq_some_iff.1 hdirectory
    have hproper := (pathFault?_eq_none_iff.1 hpath).2
    rw [Naming.segments_append] at hproper
    have hdirectories := (List.forall_mem_append.1 hproper).1
    simp only [Option.elim_some, Option.mem_some_iff, forall_eq', prefixFault?_eq_none_iff,
      Naming.segments_append, String.toList_append, List.forall_mem_append]
    have hslash : ∀ c ∈ ['/'], isForbidden c = false :=
      List.forall_mem_singleton.2 (by decide)
    exact ⟨fun h => h.1.2, fun h => ⟨⟨⟨hchars, hslash⟩, h⟩, hsegments, hdirectories⟩⟩

/-! ## The form of a Go package -/

/-- Whether a text is an import path of the form of those that may open others, with nothing behind
it or a semicolon and an identifier. No such path holds a semicolon, so it is what stands before the
first one. -/
def IsGoPackage (value : String) : Prop :=
  prefixFault? value = none ∨
    ∃ path name, value = path ++ ";" ++ name ∧ prefixFault? path = none ∧
      Naming.isIdentifier name

/-- No semicolon stands in what may open import paths. -/
theorem not_semicolon_of_prefixFault? {text : String} (h : prefixFault? text = none) :
    ';' ∉ text.toList :=
  fun hmem => nomatch (prefixFault?_eq_none_iff.1 h).1 ';' hmem

/-- No semicolon stands in an identifier. -/
theorem not_semicolon_of_isIdentifier {name : String} (h : Naming.isIdentifier name) :
    ';' ∉ name.toList :=
  fun hmem => nomatch Naming.isIdentifierPart_of_mem h ';' hmem

/-- What opens with a text without a semicolon and is taken apart at one has it behind that text. -/
theorem exists_of_append_eq {start rest path name : String} (hstart : ';' ∉ start.toList)
    (h : start ++ rest = path ++ ";" ++ name) :
    ∃ before, path = start ++ before ∧ rest = before ++ ";" ++ name := by
  have hlists : start.toList ++ rest.toList = path.toList ++ ';' :: name.toList := by
    rw [← String.toList_append, h, Naming.toList_joined ';' rfl]
  -- The text ends before the semicolon, at it or behind it, and the last would put one into it.
  rcases List.append_eq_append_iff.1 hlists with ⟨before, hpath, hrest⟩ | ⟨extra, hstarts, hextra⟩
  · refine ⟨String.ofList before, ?_, ?_⟩
    · rw [← String.toList_inj, hpath, String.toList_append, String.toList_ofList]
    · rw [← String.toList_inj, hrest, Naming.toList_joined ';' rfl, String.toList_ofList]
  · cases extra with
    | nil =>
      refine ⟨"", ?_, ?_⟩
      · rw [← String.toList_inj, String.append_empty, hstarts, List.append_nil]
      · rw [← String.toList_inj, Naming.toList_joined ';' rfl]
        exact hextra.symm
    | cons c cs =>
      obtain ⟨rfl, -⟩ := List.cons.inj hextra
      exact absurd (hstarts ▸ List.mem_append_right _ List.mem_cons_self) hstart

/-- A text that ends in a semicolon and a name has the form of a Go package just if what stands
before the semicolon may open import paths and the name is an identifier. -/
theorem isGoPackage_append_iff {path name : String} :
    IsGoPackage (path ++ ";" ++ name) ↔
      prefixFault? path = none ∧ Naming.isIdentifier name := by
  constructor
  · rintro (hwhole | ⟨before, after, heq, hbefore, hafter⟩)
    · refine absurd ?_ (not_semicolon_of_prefixFault? hwhole)
      rw [Naming.toList_joined ';' rfl]
      exact List.mem_append_right _ List.mem_cons_self
    · -- Neither part of the form holds a semicolon, so both are taken apart at the same one.
      have hlists := congrArg String.toList heq.symm
      rw [Naming.toList_joined ';' rfl, Naming.toList_joined ';' rfl] at hlists
      obtain ⟨hpath, -, hname⟩ := (List.append_cons_inj_of_notMem
        (not_semicolon_of_prefixFault? hbefore) (not_semicolon_of_isIdentifier hafter)).1 hlists
      rw [← String.toList_inj.1 hpath, ← String.toList_inj.1 hname]
      exact ⟨hbefore, hafter⟩
  · rintro ⟨hpath, hname⟩
    exact .inr ⟨path, name, rfl, hpath, hname⟩

/-- The import path of a directory has the form of a Go package if the directory is plain, and else
just if the directory itself is a path, a semicolon and an identifier. -/
theorem isGoPackage_importDirectory_iff {importPrefix path : String}
    (hopens : prefixFault? importPrefix = none) (hpath : pathFault? path = none) :
    IsGoPackage (importDirectory importPrefix path) ↔ PlainDirectory path ∨
      ∃ before name, Naming.directory? path = some (before ++ ";" ++ name) ∧
        prefixFault? (importPrefix ++ "/" ++ before) = none ∧ Naming.isIdentifier name := by
  rw [IsGoPackage, prefixFault?_importDirectory_iff hopens hpath]
  -- A semicolon can only come from the directory, because the prefix holds none.
  refine or_congr_right ?_
  have hnone := not_semicolon_of_prefixFault? hopens
  unfold importDirectory
  constructor
  · rintro ⟨start, name, heq, hstart, hname⟩
    cases hdirectory : Naming.directory? path with
    | none =>
      rw [hdirectory, Option.elim_none] at heq
      refine absurd ?_ hnone
      rw [heq, Naming.toList_joined ';' rfl]
      exact List.mem_append_right _ List.mem_cons_self
    | some directory =>
      rw [hdirectory, Option.elim_some] at heq
      have hslash : ';' ∉ (importPrefix ++ "/").toList := by
        rw [String.toList_append, List.mem_append, not_or]
        exact ⟨hnone, by decide⟩
      obtain ⟨before, rfl, rfl⟩ := exists_of_append_eq hslash heq
      exact ⟨before, name, rfl, hstart, hname⟩
  · rintro ⟨before, name, hdirectory, hstart, hname⟩
    refine ⟨importPrefix ++ "/" ++ before, name, ?_, hstart, hname⟩
    rw [hdirectory, Option.elim_some]
    simp only [String.append_assoc]

/-! ## What packages are made of -/

namespace GoPackage

/-- The packages that can be come by: those of a prefix, and those given names by hand, any number
of times. -/
inductive Made : GoPackage → Prop
  | ofPrefix {importPrefix : String} {go : GoPackage}
    (h : GoPackage.ofPrefix importPrefix = .ok go) : Made go
  | withOverrides {entries : List (String × String)} {go next : GoPackage} (made : Made go)
    (h : go.withOverrides entries = .ok next) : Made next

/-- What is true of the parts of a package that can be come by. -/
structure Checked (go : GoPackage) : Prop where
  opens : prefixFault? go.importPrefix = none
  names : ∀ entry ∈ go.overrides, Naming.isIdentifier entry.2

/-- Names can be given by hand if they are identifiers; they are found last first. -/
theorem withOverrides_eq_ok_iff {entries : List (String × String)} {go after : GoPackage} :
    go.withOverrides entries = .ok after ↔ (∀ entry ∈ entries, Naming.isIdentifier entry.2) ∧
      after = { go with overrides := entries.reverse ++ go.overrides } := by
  induction entries generalizing go with
  | nil => exact ⟨fun h => ⟨nofun, (Except.ok.inj h).symm⟩, fun h => congrArg Except.ok h.2.symm⟩
  | cons entry rest ih =>
    rw [GoPackage.withOverrides, List.forall_mem_cons]
    split
    · rename_i hname
      rw [ih, List.reverse_cons, List.append_assoc]
      exact and_congr_left fun _ => (and_iff_right hname).symm
    · rename_i hname
      exact iff_of_false nofun fun h => hname h.1.1

/-- Names that are given by hand keep a package checked. -/
theorem Checked.withOverrides {entries : List (String × String)} {go next : GoPackage}
    (checked : go.Checked) (h : go.withOverrides entries = .ok next) : next.Checked := by
  obtain ⟨hnames, rfl⟩ := withOverrides_eq_ok_iff.1 h
  exact ⟨checked.opens, List.forall_mem_append.2
    ⟨fun entry hmem => hnames entry (List.mem_reverse.1 hmem), checked.names⟩⟩

theorem ofPrefix_eq_ok_iff {importPrefix : String} {go : GoPackage} :
    GoPackage.ofPrefix importPrefix = .ok go ↔ prefixFault? importPrefix = none ∧
      go = { importPrefix } := by
  unfold GoPackage.ofPrefix
  cases prefixFault? importPrefix with
  | some fault => exact iff_of_false nofun fun h => nomatch h.1
  | none => exact ⟨fun h => ⟨rfl, (Except.ok.inj h).symm⟩, fun h => congrArg Except.ok h.2.symm⟩

/-- The parts of a package that was come by have been checked. -/
theorem Made.checked {go : GoPackage} (made : go.Made) : go.Checked := by
  induction made with
  | ofPrefix h =>
    obtain ⟨hopens, rfl⟩ := ofPrefix_eq_ok_iff.1 h
    exact ⟨hopens, fun _ hmem => nomatch hmem⟩
  | withOverrides _ h ih => exact ih.withOverrides h

/-- A file gets a Go package if its path can be part of an import path: the import path of its
directory, with its name behind it if it has one. -/
theorem importPath_eq_ok_iff {importPrefix : String} {given? : Option String} {file : File}
    {value : String} :
    importPath importPrefix given? file = .ok value ↔ pathFault? file.path = none ∧
      value = (given?.or (Naming.versionedName? file.packageName)).elim
        (importDirectory importPrefix file.path)
        (importDirectory importPrefix file.path ++ ";" ++ ·) := by
  unfold importPath importDirectory
  cases pathFault? file.path with
  | some fault => exact iff_of_false nofun fun h => nomatch h.1
  | none =>
    cases given?.or (Naming.versionedName? file.packageName) <;>
      cases Naming.directory? file.path <;>
      exact ⟨fun h => ⟨rfl, (Except.ok.inj h).symm⟩, fun h => congrArg Except.ok h.2.symm⟩

/-- What a Go package is made of decides whether it has its form. -/
theorem isGoPackage_value_iff {importPrefix path : String}
    (hopens : prefixFault? importPrefix = none) (hpath : pathFault? path = none)
    (name? : Option String) :
    IsGoPackage (name?.elim (importDirectory importPrefix path)
        (importDirectory importPrefix path ++ ";" ++ ·)) ↔
      (PlainDirectory path ∧ ∀ name ∈ name?, Naming.isIdentifier name) ∨
      (name? = none ∧ ∃ before name, Naming.directory? path = some (before ++ ";" ++ name) ∧
        prefixFault? (importPrefix ++ "/" ++ before) = none ∧ Naming.isIdentifier name) := by
  cases name? with
  | none =>
    rw [Option.elim_none, isGoPackage_importDirectory_iff hopens hpath]
    simp only [Option.not_mem_none, false_implies, implies_true, and_true, true_and]
  | some name =>
    rw [Option.elim_some, isGoPackage_append_iff, prefixFault?_importDirectory_iff hopens hpath]
    simp only [Option.mem_some_iff, forall_eq', reduceCtorEq, false_and, or_false]

/-- With a prefix and names that were accepted, the Go package of a file has its form just if the
directory of the file is plain and, where no name was given, the one derived from its package is an
identifier. The one exception is a file without a name whose directory brings along the semicolon
and an identifier. -/
theorem isGoPackage_importPath_iff {go : GoPackage} (made : go.Made) {given? : Option String}
    (hgiven : ∀ name ∈ given?, ∃ path, (path, name) ∈ go.overrides) {file : File} {value : String}
    (h : importPath go.importPrefix given? file = .ok value) :
    IsGoPackage value ↔
      (PlainDirectory file.path ∧ (given? = none →
        ∀ name ∈ Naming.versionedName? file.packageName, Naming.isIdentifier name)) ∨
      ((given? = none ∧ Naming.versionedName? file.packageName = none) ∧
        ∃ before name, Naming.directory? file.path = some (before ++ ";" ++ name) ∧
          prefixFault? (go.importPrefix ++ "/" ++ before) = none ∧ Naming.isIdentifier name) := by
  obtain ⟨hpath, rfl⟩ := importPath_eq_ok_iff.1 h
  have hnames : (∀ name ∈ given?.or (Naming.versionedName? file.packageName),
      Naming.isIdentifier name) ↔ (given? = none →
        ∀ name ∈ Naming.versionedName? file.packageName, Naming.isIdentifier name) := by
    cases given? with
    | none => rw [Option.none_or, eq_self, true_implies]
    | some given =>
      obtain ⟨path, hmem⟩ := hgiven given rfl
      refine iff_of_true ?_ nofun
      rintro name ⟨⟩
      exact made.checked.names _ hmem
  rw [isGoPackage_value_iff made.checked.opens hpath, hnames, Option.or_eq_none_iff]

/-- A file with a plain directory that was given a name by hand. -/
theorem isGoPackage_importPath_iff_given :
    let start : GoPackage := { importPrefix := "github.com/org/repo" }
    let go : GoPackage := { start with overrides := [("weather/v1/a.proto", "wx")] }
    let file : File := { name := some "weather/v1/a.proto", package := some "1x.v1" }
    let value := "github.com/org/repo/weather/v1;wx"
    go.Made ∧ importPath go.importPrefix (some "wx") file = .ok value ∧ IsGoPackage value := by
  intro start go file value
  have hstart : GoPackage.ofPrefix "github.com/org/repo" = .ok start :=
    ofPrefix_eq_ok_iff.2 ⟨by decide +kernel, rfl⟩
  have hgo : start.withOverrides [("weather/v1/a.proto", "wx")] = .ok go := by rfl
  have hmade : go.Made := .withOverrides (.ofPrefix hstart) hgo
  have hvalue : importPath go.importPrefix (some "wx") file = .ok value :=
    importPath_eq_ok_iff.2 (by decide +kernel)
  have hgiven : ∀ name ∈ some "wx", ∃ path, (path, name) ∈ go.overrides := by
    rintro name ⟨⟩
    exact ⟨"weather/v1/a.proto", List.mem_cons_self⟩
  have hplain : PlainDirectory file.path := by decide +kernel
  exact ⟨hmade, hvalue,
    (isGoPackage_importPath_iff hmade hgiven hvalue).2 (.inl ⟨hplain, nofun⟩)⟩

/-- A semicolon and white space in the directory of a file get into its Go package, and so does a
name that is no identifier if the package of the file has one. -/
theorem not_isGoPackage_importPath :
    let go : GoPackage := { importPrefix := "github.com/org/repo" }
    go.Made ∧ ∀ entry ∈ [
        ("a;b/c.proto", "weather.v1", "github.com/org/repo/a;b", "weatherv1"),
        ("a b/c.proto", "weather.v1", "github.com/org/repo/a b", "weatherv1"),
        ("a/b.proto", "1x.v1", "github.com/org/repo/a", "1xv1")],
      let file : File := { name := some entry.1, package := some entry.2.1 }
      let value := entry.2.2.1 ++ ";" ++ entry.2.2.2
      importPath go.importPrefix none file = .ok value ∧ ¬IsGoPackage value := by
  intro go
  refine ⟨.ofPrefix (ofPrefix_eq_ok_iff.2 ⟨by decide +kernel, rfl⟩), ?_⟩
  simp only [importPath_eq_ok_iff, isGoPackage_append_iff]
  decide +kernel

/-- With a prefix and names that were accepted, the Go package of a file has its form if the
directory of the file is plain and its package is made of identifiers. -/
theorem isGoPackage_importPath {go : GoPackage} (made : go.Made) {given? : Option String}
    (hgiven : ∀ name ∈ given?, ∃ path, (path, name) ∈ go.overrides) {file : File} {value : String}
    (h : importPath go.importPrefix given? file = .ok value) (hplain : PlainDirectory file.path)
    (hpackage : Naming.isDottedIdentifier file.packageName) : IsGoPackage value := by
  obtain ⟨hpath, rfl⟩ := importPath_eq_ok_iff.1 h
  refine (isGoPackage_value_iff made.checked.opens hpath _).2 (.inl ⟨hplain, ?_⟩)
  intro name hname
  cases given? with
  | some given =>
    obtain ⟨path, hmem⟩ := hgiven given rfl
    cases hname
    exact made.checked.names _ hmem
  | none => exact Naming.isIdentifier_versionedName hpackage hname

end GoPackage

end SchemaOptions
