import SchemaOptions.Proofs.GoPackage

/-!
# What a Go package is derived from

A file gets a Go package exactly if its path is clean (`CleanPath`). The Go package is the import
path of the file's directory, which takes the place of the directory in the path of the file below
the prefix (`importDirectory_append_ownName`), and behind it the file's name if it has one
(`PackageNamed`). So files share the import path just if they share the directory
(`GoPackage.importPath_derived`).
-/

namespace SchemaOptions

/-! ## Clean paths -/

/-- Whether a path is made of segments that all name something, with slashes between them. -/
structure CleanPath (path : String) : Prop where
  nonempty : path ≠ ""
  noBackslash : '\\' ∉ path.toList
  segments : ∀ segment ∈ Naming.segments path,
    segment ≠ [] ∧ segment ≠ ['.'] ∧ segment ≠ ['.', '.']

theorem isProperSegment_iff {segment : List Char} :
    isProperSegment segment = true ↔ segment ≠ [] ∧ segment ≠ ['.'] ∧ segment ≠ ['.', '.'] := by
  simp only [isProperSegment, Bool.and_eq_true, bne_iff_ne, and_assoc]

/-- The paths without a fault are the clean ones. -/
theorem pathFault?_eq_none_iff_cleanPath {path : String} :
    pathFault? path = none ↔ CleanPath path := by
  rw [pathFault?_eq_none_iff]
  constructor
  · rintro ⟨hbackslash, hsegments⟩
    exact ⟨(ends_of_properSegments hsegments).1, hbackslash,
      fun segment hmem => isProperSegment_iff.1 (hsegments segment hmem)⟩
  · rintro ⟨-, hbackslash, hsegments⟩
    exact ⟨hbackslash, fun segment hmem => isProperSegment_iff.2 (hsegments segment hmem)⟩

/-! ## Import paths of directories -/

section

variable (importPrefix : String) {path other : String}

/-- With a file's own name, the import path of its directory is the path of the file below the
prefix. -/
theorem importDirectory_append_ownName (path : String) :
    ∃ own : String, (Naming.segments path).getLast? = some own.toList ∧
      importDirectory importPrefix path ++ "/" ++ own = importPrefix ++ "/" ++ path := by
  obtain ⟨own, hlast, hpath⟩ := Naming.exists_ownName path
  refine ⟨own, hlast, ?_⟩
  unfold importDirectory
  cases hdirectory : Naming.directory? path with
  | none =>
    rw [hdirectory, Option.elim_none] at hpath
    rw [hpath, Option.elim_none]
  | some directory =>
    rw [hdirectory, Option.elim_some] at hpath
    rw [hpath, Option.elim_some]
    simp only [String.append_assoc]

/-- A prefix is none of the import paths below it. -/
theorem append_slash_ne (directory : String) : importPrefix ++ "/" ++ directory ≠ importPrefix := by
  intro h
  have hlength := congrArg String.length h
  rw [String.length_append, String.length_append] at hlength
  have hslash : "/".length = 1 := rfl
  omega

/-- Only a file at the root has the prefix for its import path. -/
theorem importDirectory_eq_prefix_iff :
    importDirectory importPrefix path = importPrefix ↔ '/' ∉ path.toList := by
  rw [← Naming.directory?_eq_none_iff, importDirectory]
  cases Naming.directory? path with
  | none => exact iff_of_true rfl rfl
  | some directory => exact iff_of_false (append_slash_ne importPrefix directory) nofun

/-- Files have the same import path just if they lie in the same directory. -/
theorem importDirectory_eq_iff :
    importDirectory importPrefix path = importDirectory importPrefix other ↔
      (Naming.segments path).dropLast = (Naming.segments other).dropLast := by
  rw [← Naming.directory?_eq_iff]
  unfold importDirectory
  cases Naming.directory? path with
  | none =>
    cases Naming.directory? other with
    | none => exact iff_of_true rfl rfl
    | some directory => exact iff_of_false (append_slash_ne importPrefix directory).symm nofun
  | some first =>
    cases Naming.directory? other with
    | none => exact iff_of_false (append_slash_ne importPrefix first) nofun
    | some second =>
      rw [Option.elim_some, Option.elim_some, String.append_right_inj, Option.some.injEq]

end

/-! ## Names of packages -/

/-- Whether a package is named behind its import path: by hand, or else by a version, which is the
last of its components but not the only one. -/
inductive PackageNamed (given? : Option String) (package : String) : String → Prop where
  | given {name : String} (byHand : given? = some name) : PackageNamed given? package name
  | versioned {front : List String} {last version : String} (notByHand : given? = none)
      (components : Naming.components package = front ++ [last, version])
      (isVersion : Naming.isVersion version = true) :
      PackageNamed given? package (last ++ version)

theorem or_versionedName?_eq_some_iff {given? : Option String} {package name : String} :
    given?.or (Naming.versionedName? package) = some name ↔ PackageNamed given? package name := by
  cases given? with
  | some given =>
    rw [Option.some_or]
    constructor
    · exact fun h => .given h
    · intro h
      cases h with
      | given byHand => exact byHand
      | versioned notByHand => cases notByHand
  | none =>
    rw [Option.none_or, Naming.versionedName?_eq_some_iff]
    constructor
    · rintro ⟨front, last, version, hcomponents, hversion, rfl⟩
      exact .versioned rfl hcomponents hversion
    · intro h
      cases h with
      | given byHand => cases byHand
      | versioned _ hcomponents hversion => exact ⟨_, _, _, hcomponents, hversion, rfl⟩

namespace GoPackage

/-- A file gets a Go package exactly if its path is clean; else it cannot be edited. The Go package
is the import path of the file's directory, with the name behind it that the package has, if it has
one. With the file's own name the import path is the path of the file below the prefix, so files
have the same one just if they lie in the same directory, and that of a file at the root is the
prefix. -/
theorem importPath_derived (importPrefix : String) (given? : Option String) (file : File) :
    ((∃ value, importPath importPrefix given? file = .ok value) ↔ CleanPath file.path) ∧
    (¬CleanPath file.path → ∃ fault,
      importPath importPrefix given? file = .error (.file file.path (.path fault))) ∧
    (∀ value, importPath importPrefix given? file = .ok value →
      (∃ name, PackageNamed given? file.packageName name ∧
        value = importDirectory importPrefix file.path ++ ";" ++ name) ∨
      (∀ name, ¬PackageNamed given? file.packageName name) ∧
        value = importDirectory importPrefix file.path) ∧
    (∃ own : String, (Naming.segments file.path).getLast? = some own.toList ∧
      importDirectory importPrefix file.path ++ "/" ++ own = importPrefix ++ "/" ++ file.path) ∧
    (∀ other : File,
      importDirectory importPrefix file.path = importDirectory importPrefix other.path ↔
        (Naming.segments file.path).dropLast = (Naming.segments other.path).dropLast) ∧
    (importDirectory importPrefix file.path = importPrefix ↔ '/' ∉ file.path.toList) := by
  refine ⟨?_, fun hclean => ?_, fun value h => ?_,
    importDirectory_append_ownName importPrefix file.path,
    fun other => importDirectory_eq_iff importPrefix, importDirectory_eq_prefix_iff importPrefix⟩
  · rw [← pathFault?_eq_none_iff_cleanPath]
    constructor
    · rintro ⟨value, h⟩
      exact (importPath_eq_ok_iff.1 h).1
    · exact fun hpath => ⟨_, importPath_eq_ok_iff.2 ⟨hpath, rfl⟩⟩
  · rw [← pathFault?_eq_none_iff_cleanPath] at hclean
    obtain ⟨fault, hfault⟩ := Option.ne_none_iff_exists'.1 hclean
    refine ⟨fault, ?_⟩
    rw [importPath, hfault]
  · obtain ⟨-, rfl⟩ := importPath_eq_ok_iff.1 h
    cases hname : given?.or (Naming.versionedName? file.packageName) with
    | none =>
      refine .inr ⟨fun name hnamed => ?_, rfl⟩
      rw [or_versionedName?_eq_some_iff.2 hnamed] at hname
      cases hname
    | some name => exact .inl ⟨name, or_versionedName?_eq_some_iff.1 hname, rfl⟩

/-- Empty components of a package do not count. -/
example : importPath "x" none { name := some "a/v1/b.proto", package := some ".a..v1" } =
    .ok "x/a/v1;av1" := by rfl

end GoPackage

end SchemaOptions
