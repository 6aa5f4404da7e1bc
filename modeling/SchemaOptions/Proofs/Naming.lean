import SchemaOptions.Naming.FilePath
import SchemaOptions.Naming.Identifier
import SchemaOptions.Naming.Package

/-!
# Taking names apart

A path is its directory, a slash and the file's own name, which holds no slash
(`directory?_eq_some_iff`), and its segments are those of the directory and that name. A package has
a short name if it ends in a version (`versionedName?_eq_some_iff`), and this name is an identifier
if the package is made of identifiers (`isIdentifier_versionedName`).
-/

namespace SchemaOptions.Naming

/-! ## Texts -/

/-- A text that holds a character can be taken apart at its last occurrence. -/
theorem eq_append_cons_of_mem_last {sep : Char} {cs : List Char} (h : sep ∈ cs) :
    ∃ before after, cs = before ++ sep :: after ∧ sep ∉ after := by
  obtain ⟨after, before, hcs, hafter⟩ := List.eq_append_cons_of_mem (List.mem_reverse.2 h)
  refine ⟨before.reverse, after.reverse, ?_, fun hsep => hafter (List.mem_reverse.1 hsep)⟩
  rw [← List.reverse_reverse cs, hcs]
  simp only [List.reverse_append, List.reverse_cons, List.append_assoc, List.singleton_append]

/-- The characters of two texts with a text of one character between them. -/
theorem toList_joined {sep : String} (c : Char) (h : sep.toList = [c]) (before after : String) :
    (before ++ sep ++ after).toList = before.toList ++ c :: after.toList := by
  rw [String.toList_append, String.toList_append, h, List.append_assoc, List.singleton_append]

/-! ## Paths -/

theorem segments_ne_nil (path : String) : segments path ≠ [] :=
  List.splitOn_ne_nil '/' path.toList

theorem segments_append (path other : String) :
    segments (path ++ "/" ++ other) = segments path ++ segments other := by
  unfold segments
  rw [toList_joined '/' rfl, List.splitOn_append_cons_self]

/-- A text without a slash is one segment. -/
theorem segments_eq_singleton {own : String} (h : '/' ∉ own.toList) :
    segments own = [own.toList] :=
  List.splitOn_eq_singleton h

/-- A path with a slash can be taken apart at the last one. -/
theorem exists_eq_append_of_slash {path : String} (h : '/' ∈ path.toList) :
    ∃ directory own, path = directory ++ "/" ++ own ∧ '/' ∉ own.toList := by
  obtain ⟨before, after, hpath, hafter⟩ := eq_append_cons_of_mem_last h
  refine ⟨String.ofList before, String.ofList after, ?_, by rwa [String.toList_ofList]⟩
  rw [← String.toList_inj, toList_joined '/' rfl, String.toList_ofList, String.toList_ofList, hpath]

/-- The directory of a path is what stands before the last slash. -/
theorem directory?_append {directory own : String} (h : '/' ∉ own.toList) :
    directory? (directory ++ "/" ++ own) = some directory := by
  rw [directory?, segments_append, segments_eq_singleton h, List.dropLast_concat]
  split
  · exact absurd ‹_› (segments_ne_nil directory)
  · rw [segments, List.intercalate_splitOn, String.ofList_toList]

/-- A path has no directory just if it has no slash. -/
theorem directory?_eq_none_iff {path : String} : directory? path = none ↔ '/' ∉ path.toList := by
  constructor
  · intro h hslash
    obtain ⟨directory, own, rfl, hown⟩ := exists_eq_append_of_slash hslash
    rw [directory?_append hown] at h
    cases h
  · intro h
    rw [directory?, segments_eq_singleton h]
    rfl

/-- A path that has a directory is the directory, a slash and the file's own name. -/
theorem directory?_eq_some_iff {path directory : String} :
    directory? path = some directory ↔
      ∃ own, path = directory ++ "/" ++ own ∧ '/' ∉ own.toList := by
  constructor
  · intro h
    have hslash : '/' ∈ path.toList := Decidable.not_not.1 fun hnone => by
      rw [directory?_eq_none_iff.2 hnone] at h
      cases h
    obtain ⟨before, own, rfl, hown⟩ := exists_eq_append_of_slash hslash
    rw [directory?_append hown] at h
    cases h
    exact ⟨own, rfl, hown⟩
  · rintro ⟨own, rfl, hown⟩
    exact directory?_append hown

/-- The last segment of a path is the file's own name, which stands behind the directory. -/
theorem exists_ownName (path : String) :
    ∃ own : String, (segments path).getLast? = some own.toList ∧
      path = (directory? path).elim own (· ++ "/" ++ own) := by
  cases hdirectory : directory? path with
  | none =>
    refine ⟨path, ?_, rfl⟩
    rw [segments_eq_singleton (directory?_eq_none_iff.1 hdirectory)]
    rfl
  | some directory =>
    obtain ⟨own, rfl, hown⟩ := directory?_eq_some_iff.1 hdirectory
    refine ⟨own, ?_, rfl⟩
    rw [segments_append, segments_eq_singleton hown, List.getLast?_concat]

/-- The other segments are those of the directory. -/
theorem dropLast_segments (path : String) :
    (segments path).dropLast = (directory? path).elim [] segments := by
  cases hdirectory : directory? path with
  | none =>
    rw [segments_eq_singleton (directory?_eq_none_iff.1 hdirectory)]
    rfl
  | some directory =>
    obtain ⟨own, rfl, hown⟩ := directory?_eq_some_iff.1 hdirectory
    rw [segments_append, segments_eq_singleton hown, List.dropLast_concat]
    rfl

/-- Paths have the same directory just if they have the same segments but the last. -/
theorem directory?_eq_iff {path other : String} :
    directory? path = directory? other ↔ (segments path).dropLast = (segments other).dropLast := by
  constructor
  · intro h
    rw [dropLast_segments, dropLast_segments, h]
  · intro h
    rw [directory?, directory?, h]

/-! ## Identifiers -/

/-- What may open an identifier may also follow in one. -/
theorem isIdentifierPart_of_start {c : Char} (h : isIdentifierStart c) : isIdentifierPart c := by
  simp only [isIdentifierStart, isIdentifierPart, Char.isAlphanum, Bool.or_eq_true] at h ⊢
  exact h.imp_left .inl

/-- All characters of an identifier are those that may follow in one. -/
theorem isIdentifierPart_of_mem {cs : List Char} (h : isIdentifierWord cs) :
    ∀ c ∈ cs, isIdentifierPart c := by
  cases cs with
  | nil => exact fun _ hc => nomatch hc
  | cons c cs =>
    obtain ⟨hstart, hrest⟩ := Bool.and_eq_true_iff.1 h
    exact List.forall_mem_cons.2 ⟨isIdentifierPart_of_start hstart, List.all_eq_true.1 hrest⟩

/-- Two identifiers in a row are an identifier. -/
theorem isIdentifierWord_append {cs others : List Char} (h : isIdentifierWord cs)
    (hothers : isIdentifierWord others) : isIdentifierWord (cs ++ others) := by
  cases cs with
  | nil => cases h
  | cons c cs =>
    obtain ⟨hstart, hrest⟩ := Bool.and_eq_true_iff.1 h
    rw [List.cons_append, isIdentifierWord, List.all_append, hstart, hrest]
    exact List.all_eq_true.2 (isIdentifierPart_of_mem hothers)

/-- The components of a package that is made of identifiers are identifiers. -/
theorem isIdentifier_of_mem_components {package component : String}
    (h : isDottedIdentifier package) (hmem : component ∈ components package) :
    isIdentifier component := by
  obtain ⟨piece, hpiece, rfl⟩ := List.mem_map.1 hmem
  have hword := List.all_eq_true.1 h piece (List.mem_filter.1 hpiece).1
  rwa [isIdentifier, String.toList_ofList]

/-- A package has a short name if the last of its components is a version and not the only one. -/
theorem versionedName?_eq_some_iff {package name : String} :
    versionedName? package = some name ↔ ∃ front last version,
      components package = front ++ [last, version] ∧ isVersion version = true ∧
        name = last ++ version := by
  unfold versionedName?
  constructor
  · intro h
    split at h
    · rename_i version last rest hreverse
      split at h
      · rename_i hversion
        cases h
        refine ⟨rest.reverse, last, version, ?_, hversion, rfl⟩
        rw [← List.reverse_reverse (components package), hreverse, List.reverse_cons,
          List.reverse_cons, List.append_assoc]
        rfl
      · cases h
    · cases h
  · rintro ⟨front, last, version, hcomponents, hversion, rfl⟩
    rw [hcomponents, List.reverse_append]
    exact if_pos hversion

/-- The short name that a package gets from its version is an identifier if the package is made of
identifiers. -/
theorem isIdentifier_versionedName {package name : String} (h : isDottedIdentifier package)
    (hname : versionedName? package = some name) : isIdentifier name := by
  obtain ⟨front, last, version, hcomponents, -, rfl⟩ := versionedName?_eq_some_iff.1 hname
  have hmem : ∀ component ∈ [last, version], isIdentifier component := fun component hcomponent =>
    isIdentifier_of_mem_components h (hcomponents ▸ List.mem_append_right front hcomponent)
  have hlast := hmem last List.mem_cons_self
  have hversion := hmem version (List.mem_cons_of_mem _ List.mem_cons_self)
  rw [isIdentifier, String.toList_append]
  exact isIdentifierWord_append hlast hversion

end SchemaOptions.Naming
