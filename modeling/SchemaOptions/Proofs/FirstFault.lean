import Mathlib.Data.List.Induction
import Mathlib.Data.Nat.Find
import SchemaOptions.Proofs.Image

/-!
# The first fault of a list of files

Files make an image if they are complete (`Image.Complete`). Otherwise `Image.ofFiles` reports their
first fault (`Image.FirstFault`): the first path, in the order of the files, that is missing or was
seen before, and only if there is none the first import of a path that no file has.

What links the loop to the paths is that the paths seen so far are those of the files gone through:
a list with another behind it is gone through by going through the first, and then through the other
with the paths of the first as seen (`Image.pathFault?_append`).
-/

namespace SchemaOptions.Image

/-- Whether files are complete: their paths are there and differ, and whatever a file imports is the
path of one of them. -/
structure Complete (files : List File) : Prop where
  named : ∀ file ∈ files, file.path ≠ ""
  distinct : (files.map File.path).Nodup
  closed : ∀ file ∈ files, ∀ path ∈ file.imports, path ∈ files.map File.path

/-- Whether the file at an index has no path, or the path of an earlier file. -/
def FaultyPathAt (files : List File) (index : Nat) : Prop :=
  ∃ file, files[index]? = some file ∧
    (file.path = "" ∨ file.path ∈ (files.take index).map File.path)

/-- Which error the first fault of a list of files is. -/
inductive FirstFault (files : List File) : ImageError → Prop where
  | emptyPath {index : Nat} {file : File} (found : files[index]? = some file)
      (first : ∀ earlier < index, ¬FaultyPathAt files earlier) (empty : file.path = "") :
      FirstFault files (.emptyPath index)
  | duplicateFile {index : Nat} {file : File} (found : files[index]? = some file)
      (first : ∀ earlier < index, ¬FaultyPathAt files earlier) (named : file.path ≠ "")
      (repeated : file.path ∈ (files.take index).map File.path) :
      FirstFault files (.duplicateFile file.path)
  | missingImport {before after : List File} {file : File} {resolved others : List String}
      {path : String} (paths : ∀ index, ¬FaultyPathAt files index)
      (found : files = before ++ file :: after)
      (first : ∀ earlier ∈ before, ∀ path ∈ earlier.imports, path ∈ files.map File.path)
      (imports : file.imports = resolved ++ path :: others)
      (firstImport : ∀ path ∈ resolved, path ∈ files.map File.path)
      (missing : path ∉ files.map File.path) :
      FirstFault files (.missingImport file.path path)

variable {files before after : List File} {file : File} {index : Nat} {error : ImageError}

/-! ## Paths -/

/-- Going through a list is going through its first part, and then through the other with the paths
of the first as seen. -/
theorem pathFault?_append (seen : List String) (index : Nat) (before after : List File) :
    pathFault? seen index (before ++ after) =
      (pathFault? seen index before).or
        (pathFault? ((before.map File.path).reverse ++ seen) (index + before.length) after) := by
  induction before generalizing seen index with
  | nil => rfl
  | cons file before ih =>
    simp only [List.cons_append, pathFault?]
    split
    · rfl
    · split
      · rfl
      · rw [ih, List.map_cons, List.reverse_cons, List.append_assoc, List.singleton_append,
          List.length_cons, Nat.add_right_comm]
        rfl

theorem pathFault?_of_append_eq_none (h : pathFault? [] 0 (before ++ after) = none) :
    pathFault? [] 0 before = none := by
  rw [pathFault?_append, Option.or_eq_none_iff] at h
  exact h.1

/-- The fault of the file behind files without any. -/
theorem pathFault?_of_faulty (hbefore : pathFault? [] 0 before = none) (file : File)
    (after : List File) (hfaulty : file.path = "" ∨ file.path ∈ before.map File.path) :
    pathFault? [] 0 (before ++ file :: after) =
      some (if file.path = "" then .emptyPath before.length else .duplicateFile file.path) := by
  rw [pathFault?_append, hbefore, Option.none_or, pathFault?, Nat.zero_add, List.append_nil]
  split
  · rfl
  · rename_i hpath
    have hseen : ((before.map File.path).reverse.contains file.path) = true :=
      List.contains_iff_mem.2 (List.mem_reverse.2 (hfaulty.resolve_left hpath))
    rw [if_pos hseen]

theorem FaultyPathAt.lt_length (h : FaultyPathAt files index) : index < files.length := by
  obtain ⟨file, hfile, -⟩ := h
  exact (List.getElem?_eq_some_iff.1 hfile).1

/-- Whether a path is faulty does not depend on the files behind it. -/
theorem faultyPathAt_append (h : index < before.length) :
    FaultyPathAt (before ++ after) index ↔ FaultyPathAt before index := by
  rw [FaultyPathAt, FaultyPathAt, List.getElem?_append_left h,
    List.take_append_of_le_length (Nat.le_of_lt h)]

theorem faultyPathAt_length :
    FaultyPathAt (before ++ file :: after) before.length ↔
      file.path = "" ∨ file.path ∈ before.map File.path := by
  rw [FaultyPathAt, List.getElem?_append_right (Nat.le_refl _), Nat.sub_self,
    List.getElem?_cons_zero, List.take_left]
  simp only [Option.some.injEq, exists_eq_left']

/-- Files have no fault in their paths exactly if no path is faulty. -/
theorem pathFault?_eq_none_iff_forall :
    pathFault? [] 0 files = none ↔ ∀ index, ¬FaultyPathAt files index := by
  -- A path is compared with those before it, so files are added at the end.
  induction files using List.reverseRecOn with
  | nil => exact iff_of_true rfl fun index h => Nat.not_lt_zero index h.lt_length
  | append_singleton before file ih =>
    by_cases hfaulty : file.path = "" ∨ file.path ∈ before.map File.path
    · refine iff_of_false ?_ fun h => h before.length (faultyPathAt_length.2 hfaulty)
      intro hnone
      rw [pathFault?_of_faulty (pathFault?_of_append_eq_none hnone) file [] hfaulty] at hnone
      cases hnone
    · have hlast : pathFault? ((before.map File.path).reverse ++ []) (0 + before.length) [file] =
          none := by
        rw [pathFault?_eq_none_iff]
        simp only [List.mem_singleton, forall_eq, List.append_nil, List.mem_reverse, List.map_cons,
          List.map_nil, List.nodup_singleton, and_true]
        exact not_or.1 hfaulty
      rw [pathFault?_append, hlast, Option.or_none, ih]
      constructor
      · intro h index hindex
        have hlength : index < before.length + 1 := by
          simpa only [List.length_append, List.length_singleton] using hindex.lt_length
        rcases Nat.lt_or_eq_of_le (Nat.le_of_lt_succ hlength) with hlt | rfl
        · exact h index ((faultyPathAt_append hlt).1 hindex)
        · exact hfaulty (faultyPathAt_length.1 hindex)
      · intro h index hindex
        exact h index ((faultyPathAt_append hindex.lt_length).2 hindex)

/-- A file splits the list that it is found in. -/
theorem eq_take_append_of_getElem? (h : files[index]? = some file) :
    files = files.take index ++ file :: files.drop (index + 1) ∧
      (files.take index).length = index := by
  obtain ⟨hlt, hfile⟩ := List.getElem?_eq_some_iff.1 h
  refine ⟨?_, List.length_take_of_le (Nat.le_of_lt hlt)⟩
  rw [← hfile, List.getElem_cons_drop, List.take_append_drop]

/-- The files before a first fault have none. -/
theorem pathFault?_take (h : index ≤ files.length)
    (hfirst : ∀ earlier < index, ¬FaultyPathAt files earlier) :
    pathFault? [] 0 (files.take index) = none := by
  refine pathFault?_eq_none_iff_forall.2 fun earlier hfaulty => ?_
  have hlt := hfaulty.lt_length
  refine hfirst earlier (List.length_take_of_le h ▸ hlt) ?_
  rw [← List.take_append_drop index files]
  exact (faultyPathAt_append hlt).2 hfaulty

/-- The fault in a path is at the first index that has one. -/
theorem pathFault?_of_first (hfile : files[index]? = some file)
    (hfirst : ∀ earlier < index, ¬FaultyPathAt files earlier)
    (hfaulty : file.path = "" ∨ file.path ∈ (files.take index).map File.path) :
    pathFault? [] 0 files =
      some (if file.path = "" then .emptyPath index else .duplicateFile file.path) := by
  obtain ⟨hsplit, hlength⟩ := eq_take_append_of_getElem? hfile
  have hbefore := pathFault?_take (Nat.le_of_lt (List.getElem?_eq_some_iff.1 hfile).1) hfirst
  rw [hsplit, pathFault?_of_faulty hbefore file _ hfaulty, hlength]

/-- Some path is the first faulty one, if any is. -/
theorem exists_first_of_pathFault? {fault : ImageError} (h : pathFault? [] 0 files = some fault) :
    ∃ index file, files[index]? = some file ∧ (∀ earlier < index, ¬FaultyPathAt files earlier) ∧
      (file.path = "" ∨ file.path ∈ (files.take index).map File.path) := by
  classical
  have hfaulty : ∃ index, FaultyPathAt files index := by
    by_contra hnone
    rw [pathFault?_eq_none_iff_forall.2 (not_exists.1 hnone)] at h
    cases h
  obtain ⟨file, hfile, hpath⟩ := Nat.find_spec hfaulty
  exact ⟨Nat.find hfaulty, file, hfile, fun earlier hlt => Nat.find_min hfaulty hlt, hpath⟩

/-! ## Imports -/

/-- The import that is missing is the first one of the first file that has any. -/
theorem importFault?_eq_some_iff {members : List String} :
    importFault? members files = some error ↔
      ∃ before file after resolved path others, files = before ++ file :: after ∧
        (∀ earlier ∈ before, ∀ path ∈ earlier.imports, path ∈ members) ∧
        file.imports = resolved ++ path :: others ∧ (∀ path ∈ resolved, path ∈ members) ∧
        path ∉ members ∧ error = .missingImport file.path path := by
  simp only [importFault?, List.findSome?_eq_some_iff, Option.map_eq_some_iff,
    Option.map_eq_none_iff, List.find?_eq_some_iff_append, List.find?_eq_none,
    Bool.not_eq_true', List.contains_iff_mem, ← Bool.not_eq_true, not_not]
  constructor
  · rintro ⟨before, file, after, hfiles, ⟨path, ⟨hmissing, resolved, others, himports, hresolved⟩,
      rfl⟩, hbefore⟩
    exact ⟨before, file, after, resolved, path, others, hfiles, hbefore, himports, hresolved,
      hmissing, rfl⟩
  · rintro ⟨before, file, after, resolved, path, others, hfiles, hbefore, himports, hresolved,
      hmissing, rfl⟩
    exact ⟨before, file, after, hfiles, ⟨path, ⟨hmissing, resolved, others, himports, hresolved⟩,
      rfl⟩, hbefore⟩

/-! ## All faults -/

theorem complete_iff : Complete files ↔ pathFault? [] 0 files = none ∧
    ∀ file ∈ files, ∀ path ∈ file.imports, path ∈ files.map File.path := by
  rw [pathFault?_eq_none_iff]
  simp only [List.not_mem_nil, not_false_eq_true, and_true]
  exact ⟨fun h => ⟨⟨h.named, h.distinct⟩, h.closed⟩, fun ⟨⟨named, distinct⟩, closed⟩ =>
    ⟨named, distinct, closed⟩⟩

/-- Files make an image if they are complete. -/
theorem ofFiles_eq_ok_iff_complete {image : Image} :
    ofFiles files = .ok image ↔ image = ⟨files⟩ ∧ Complete files :=
  ofFiles_eq_ok_iff.trans <| and_congr_right fun _ =>
    ⟨fun ⟨named, distinct, closed⟩ => ⟨named, distinct, closed⟩,
      fun h => ⟨h.named, h.distinct, h.closed⟩⟩

/-- Otherwise the error is that of their first fault. -/
theorem ofFiles_eq_error_iff : ofFiles files = .error error ↔ FirstFault files error := by
  constructor
  · intro h
    unfold ofFiles at h
    cases hpath : pathFault? [] 0 files with
    | some fault =>
      rw [hpath] at h
      cases h
      obtain ⟨index, file, hfile, hfirst, hfaulty⟩ := exists_first_of_pathFault? hpath
      rw [pathFault?_of_first hfile hfirst hfaulty] at hpath
      cases hpath
      split
      · rename_i hempty
        exact .emptyPath hfile hfirst hempty
      · rename_i hnamed
        exact .duplicateFile hfile hfirst hnamed (hfaulty.resolve_left hnamed)
    | none =>
      rw [hpath] at h
      cases himport : importFault? (files.map File.path) files with
      | none =>
        rw [himport] at h
        cases h
      | some fault =>
        rw [himport] at h
        cases h
        obtain ⟨before, file, after, resolved, path, others, hfiles, hbefore, himports, hresolved,
          hmissing, rfl⟩ := importFault?_eq_some_iff.1 himport
        exact .missingImport (pathFault?_eq_none_iff_forall.1 hpath) hfiles hbefore himports
          hresolved hmissing
  · intro h
    cases h with
    | emptyPath found first empty =>
      rw [ofFiles, pathFault?_of_first found first (.inl empty), if_pos empty]
    | duplicateFile found first named repeated =>
      rw [ofFiles, pathFault?_of_first found first (.inr repeated), if_neg named]
    | missingImport paths found first imports firstImport missing =>
      have himport := importFault?_eq_some_iff.2
        ⟨_, _, _, _, _, _, found, first, imports, firstImport, missing, rfl⟩
      rw [ofFiles, pathFault?_eq_none_iff_forall.2 paths]
      simp only [himport]

/-- A list of files is an image, as it stands, exactly if it is complete; otherwise the error is
that of its first fault. Whether it is an image does not depend on its order. -/
theorem ofFiles_spec (files : List File) :
    (∀ image, ofFiles files = .ok image ↔ image = ⟨files⟩ ∧ Complete files) ∧
    (∀ error, ofFiles files = .error error ↔ FirstFault files error) ∧
    ∀ others, files.Perm others →
      ((∃ image, ofFiles files = .ok image) ↔ ∃ image, ofFiles others = .ok image) := by
  refine ⟨fun image => ofFiles_eq_ok_iff_complete, fun error => ofFiles_eq_error_iff, ?_⟩
  intro others hperm
  constructor
  · rintro ⟨image, himage⟩
    exact ⟨_, ofFiles_perm hperm himage⟩
  · rintro ⟨image, himage⟩
    exact ⟨_, ofFiles_perm hperm.symm himage⟩

/-- An import may stand behind the file that needs it, or before. -/
theorem ofFiles_spec_forwardImport :
    let needing : File := { name := some "b.proto", imports := ["b.proto", "a.proto"] }
    let needed : File := { name := some "a.proto" }
    [needing, needed].Perm [needed, needing] ∧
      ofFiles [needing, needed] = .ok ⟨[needing, needed]⟩ ∧
      ∃ image, ofFiles [needed, needing] = .ok image := by
  intro needing needed
  have hperm : [needing, needed].Perm [needed, needing] := List.Perm.swap needed needing []
  have himage : ofFiles [needing, needed] = .ok ⟨[needing, needed]⟩ := by rfl
  exact ⟨hperm, himage, ((ofFiles_spec [needing, needed]).2.2 _ hperm).1 ⟨_, himage⟩⟩

/-- A path that is missing comes before an import that is, wherever they stand. -/
example : ofFiles [{ name := some "a.proto", imports := ["b.proto"] }, {}] =
    .error (.emptyPath 1) := by rfl

end SchemaOptions.Image
