import Mathlib.Data.List.Nodup
import SchemaOptions.Image.Basic

/-!
# What makes files an image

`Image.ofFiles` goes through the files with a list of the paths seen so far. It accepts files whose
paths are all there and all different, and whose imports are all among these paths
(`Image.ofFiles_eq_ok_iff`). So nothing but the paths and the imports of the files decides whether
they make an image (`Image.ofFiles_eq_ok_of_map`), and their order does not (`Image.ofFiles_perm`).
-/

namespace SchemaOptions.Image

/-- Paths that are there, differ from those seen before and differ from each other have no fault. -/
theorem pathFault?_eq_none_iff {seen : List String} {index : Nat} {files : List File} :
    pathFault? seen index files = none ↔
      (∀ file ∈ files, file.path ≠ "" ∧ file.path ∉ seen) ∧ (files.map File.path).Nodup := by
  induction files generalizing seen index with
  | nil => simp only [pathFault?, List.not_mem_nil, false_imp_iff, implies_true, List.map_nil,
      List.nodup_nil, and_self]
  | cons file rest ih =>
    rw [pathFault?, List.forall_mem_cons, List.map_cons, List.nodup_cons]
    split
    · rename_i hempty
      exact iff_of_false (by simp) fun h => h.1.1.1 hempty
    · rename_i hpath
      split
      · rename_i hseen
        exact iff_of_false (by simp) fun h => h.1.1.2 (List.contains_iff_mem.1 hseen)
      · rename_i hseen
        rw [ih]
        have hnew : file.path ∉ seen := fun hmem => hseen (List.contains_iff_mem.2 hmem)
        constructor
        · rintro ⟨hrest, hnodup⟩
          refine ⟨⟨⟨hpath, hnew⟩, fun other hmem => ⟨(hrest other hmem).1, ?_⟩⟩, ?_, hnodup⟩
          · intro h
            exact (hrest other hmem).2 (List.mem_cons_of_mem _ h)
          · rintro hrepeated
            obtain ⟨other, hmem, heq⟩ := List.mem_map.1 hrepeated
            exact (hrest other hmem).2 (heq ▸ List.mem_cons_self)
        · rintro ⟨⟨-, hrest⟩, hfirst, hnodup⟩
          refine ⟨fun other hmem => ⟨(hrest other hmem).1, fun h => ?_⟩, hnodup⟩
          obtain heq | hbefore := List.mem_cons.1 h
          · exact hfirst (heq ▸ List.mem_map_of_mem hmem)
          · exact (hrest other hmem).2 hbefore

theorem importFault?_eq_none_iff {members : List String} {files : List File} :
    importFault? members files = none ↔
      ∀ file ∈ files, ∀ path ∈ file.imports, path ∈ members := by
  simp only [importFault?, List.findSome?_eq_none_iff, Option.map_eq_none_iff,
    List.find?_eq_none, Bool.not_eq_true', Bool.not_eq_false, List.contains_iff_mem]

/-- Files make an image if their paths are there and differ, and they import each other only. -/
theorem ofFiles_eq_ok_iff {files : List File} {image : Image} :
    ofFiles files = .ok image ↔ image = ⟨files⟩ ∧ (∀ file ∈ files, file.path ≠ "") ∧
      (files.map File.path).Nodup ∧
      ∀ file ∈ files, ∀ path ∈ file.imports, path ∈ files.map File.path := by
  have hpaths : pathFault? [] 0 files = none ↔ _ := pathFault?_eq_none_iff
  have himports : importFault? (files.map File.path) files = none ↔ _ := importFault?_eq_none_iff
  simp only [List.not_mem_nil, not_false_eq_true, and_true] at hpaths
  unfold ofFiles
  cases hpath : pathFault? [] 0 files with
  | some fault =>
    refine iff_of_false (by simp) ?_
    intro h
    exact Option.some_ne_none fault (hpath.symm.trans (hpaths.2 ⟨h.2.1, h.2.2.1⟩))
  | none =>
    have hdistinct := hpaths.1 hpath
    cases himport : importFault? (files.map File.path) files with
    | some fault =>
      refine iff_of_false (by simp) ?_
      intro h
      exact Option.some_ne_none fault (himport.symm.trans (himports.2 h.2.2.2))
    | none =>
      simp only [Except.ok.injEq]
      constructor
      · rintro rfl
        exact ⟨rfl, hdistinct.1, hdistinct.2, himports.1 himport⟩
      · rintro ⟨rfl, -⟩
        rfl

/-- Files that are an image stay one under edits that keep their paths and imports. -/
theorem ofFiles_eq_ok_of_map {files others : List File} {image : Image}
    (h : ofFiles files = .ok image) (hpaths : others.map File.path = files.map File.path)
    (himports : others.map File.imports = files.map File.imports) :
    ofFiles others = .ok ⟨others⟩ := by
  obtain ⟨-, hpath, hnodup, himport⟩ := ofFiles_eq_ok_iff.1 h
  refine ofFiles_eq_ok_iff.2 ⟨rfl, fun file hmem => ?_, hpaths ▸ hnodup, fun file hmem => ?_⟩
  · obtain ⟨other, hother, heq⟩ := List.mem_map.1 (hpaths ▸ List.mem_map_of_mem hmem)
    exact heq ▸ hpath other hother
  · obtain ⟨other, hother, heq⟩ := List.mem_map.1 (himports ▸ List.mem_map_of_mem hmem)
    rw [hpaths, ← heq]
    exact himport other hother

/-- Files that make an image make one in any order. -/
theorem ofFiles_perm {files others : List File} {image : Image} (hperm : files.Perm others)
    (h : ofFiles files = .ok image) : ofFiles others = .ok ⟨others⟩ := by
  obtain ⟨-, hpath, hnodup, himports⟩ := ofFiles_eq_ok_iff.1 h
  have hpaths := hperm.map File.path
  refine ofFiles_eq_ok_iff.2 ⟨rfl, fun file hmem => hpath file (hperm.mem_iff.2 hmem),
    hpaths.nodup_iff.1 hnodup, fun file hmem path hpath => ?_⟩
  exact hpaths.mem_iff.1 (himports file (hperm.mem_iff.2 hmem) path hpath)

/-- In an image a file is found by its path. -/
theorem eq_of_path_eq {files : List File} (h : (files.map File.path).Nodup) {file other : File}
    (hfile : file ∈ files) (hother : other ∈ files) (hpath : file.path = other.path) :
    file = other :=
  List.inj_on_of_nodup_map h hfile hother hpath

end SchemaOptions.Image
