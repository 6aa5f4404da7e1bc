import SchemaOptions.Image.Bytes
import SchemaOptions.Proofs.FirstFault
import SchemaOptions.Proofs.Wire.Concatenation
import SchemaOptions.Proofs.Wire.Sections

/-!
# Joining images

The bytes of some files with those of others behind them are the bytes of all of them
(`Image.filesOfBytes?_append`). So images are joined by writing one behind the other, and what is
decoded is the image of all the files, if they are one (`Image.decode_append`): files may import
each other across the seam, but no path may be on both sides of it.
-/

namespace SchemaOptions

open SchemaOptions.Wire

theorem Wire.Record.records_append (tag : Nat) (first rest : Record) :
    Record.records tag (first ++ rest) = Record.records tag first ++ Record.records tag rest := by
  rw [Record.records, Record.all_append, List.filterMap_append]
  rfl

namespace Image

variable {bytes more : List UInt8} {first rest before after : List File} {file : File}

/-- The files of bytes with others behind them are those of the first and then those of the
second. -/
theorem filesOfBytes?_append (hfirst : filesOfBytes? bytes = some first)
    (hrest : filesOfBytes? more = some rest) :
    filesOfBytes? (bytes ++ more) = some (first ++ rest) := by
  obtain ⟨record, hrecord, rfl⟩ := Option.map_eq_some_iff.1 hfirst
  obtain ⟨others, hothers, rfl⟩ := Option.map_eq_some_iff.1 hrest
  rw [filesOfBytes?, read?_append rfl rfl rfl hrecord, hothers, Option.map_some, Option.map_some,
    Record.records_append, List.map_append]

theorem decode_eq_ofFiles (h : filesOfBytes? bytes = some first) :
    decode bytes = ofFiles first := by
  rw [decode, h]

/-! ## Files of both sides -/

/-- What is imported may come from either side. -/
theorem mem_paths_append {path : String} :
    path ∈ (first ++ rest).map File.path ↔
      path ∈ first.map File.path ∨ path ∈ rest.map File.path := by
  rw [List.map_append, List.mem_append]

/-- Two lists without a fault in their paths have none together if no path is on both sides. -/
theorem pathFault?_append_eq_none_iff (hfirst : pathFault? [] 0 first = none)
    (hrest : pathFault? [] 0 rest = none) :
    pathFault? [] 0 (first ++ rest) = none ↔ ∀ file ∈ rest, file.path ∉ first.map File.path := by
  obtain ⟨hnamed, hdistinct⟩ := pathFault?_eq_none_iff.1 hrest
  rw [pathFault?_append, hfirst, Option.none_or, pathFault?_eq_none_iff, List.append_nil]
  simp only [List.mem_reverse]
  exact ⟨fun h file hmem => (h.1 file hmem).2, fun h =>
    ⟨fun file hmem => ⟨(hnamed file hmem).1, h file hmem⟩, hdistinct⟩⟩

/-- Complete files and others are complete together exactly if no path is on both sides. -/
theorem complete_append_iff (hfirst : Complete first) (hrest : Complete rest) :
    Complete (first ++ rest) ↔ ∀ file ∈ rest, file.path ∉ first.map File.path := by
  obtain ⟨hfirstPaths, hfirstImports⟩ := complete_iff.1 hfirst
  obtain ⟨hrestPaths, hrestImports⟩ := complete_iff.1 hrest
  rw [complete_iff, pathFault?_append_eq_none_iff hfirstPaths hrestPaths]
  refine and_iff_left fun file hmem path hpath => mem_paths_append.2 ?_
  exact (List.mem_append.1 hmem).imp (hfirstImports file · path hpath)
    (hrestImports file · path hpath)

/-- Otherwise the first file whose path is on the other side already is the fault. -/
theorem ofFiles_append_of_repeated (hfirst : Complete first)
    (hrest : Complete (before ++ file :: after))
    (hbefore : ∀ earlier ∈ before, earlier.path ∉ first.map File.path)
    (hpath : file.path ∈ first.map File.path) :
    ofFiles (first ++ (before ++ file :: after)) = .error (.duplicateFile file.path) := by
  have hnamed : file.path ≠ "" :=
    hrest.named file (List.mem_append_right _ List.mem_cons_self)
  have hnone : pathFault? [] 0 (first ++ before) = none :=
    (pathFault?_append_eq_none_iff (complete_iff.1 hfirst).1
      (pathFault?_of_append_eq_none (complete_iff.1 hrest).1)).2 hbefore
  rw [ofFiles, ← List.append_assoc,
    pathFault?_of_faulty hnone file after (.inr (mem_paths_append.2 (.inl hpath))), if_neg hnamed]

/-! ## Decoding both -/

/-- What is decoded from the bytes of some files with those of others behind them is the image of
all the files, or their first fault. Two images are one together exactly if no path is on both
sides; otherwise the first file of the second whose path is on the first is the fault. If the paths
are there and differ, an import need only be met on one of the two sides. -/
theorem decode_append (hfirst : filesOfBytes? bytes = some first)
    (hrest : filesOfBytes? more = some rest) :
    decode (bytes ++ more) = ofFiles (first ++ rest) ∧
    (∀ image other, decode bytes = .ok image → decode more = .ok other →
      (decode (bytes ++ more) = .ok ⟨image.files ++ other.files⟩ ↔
        ∀ file ∈ other.files, file.path ∉ image.files.map File.path) ∧
      ∀ before file after, other.files = before ++ file :: after →
        (∀ earlier ∈ before, earlier.path ∉ image.files.map File.path) →
        file.path ∈ image.files.map File.path →
        decode (bytes ++ more) = .error (.duplicateFile file.path)) ∧
    ((∀ file ∈ first ++ rest, file.path ≠ "") → ((first ++ rest).map File.path).Nodup →
      (decode (bytes ++ more) = .ok ⟨first ++ rest⟩ ↔
        ∀ file ∈ first ++ rest, ∀ path ∈ file.imports,
          path ∈ first.map File.path ∨ path ∈ rest.map File.path)) := by
  have hdecode : decode (bytes ++ more) = ofFiles (first ++ rest) :=
    decode_eq_ofFiles (filesOfBytes?_append hfirst hrest)
  refine ⟨hdecode, fun image other himage hother => ?_, fun hnamed hdistinct => ?_⟩
  · rw [decode_eq_ofFiles hfirst] at himage
    rw [decode_eq_ofFiles hrest] at hother
    obtain ⟨rfl, hone⟩ := ofFiles_eq_ok_iff_complete.1 himage
    obtain ⟨rfl, htwo⟩ := ofFiles_eq_ok_iff_complete.1 hother
    rw [hdecode]
    refine ⟨?_, ?_⟩
    · rw [ofFiles_eq_ok_iff_complete, complete_append_iff hone htwo]
      exact and_iff_right rfl
    · rintro before file after rfl hbefore hpath
      exact ofFiles_append_of_repeated hone htwo hbefore hpath
  · rw [hdecode, ofFiles_eq_ok_iff_complete, and_iff_right rfl]
    constructor
    · intro h file hmem path hpath
      exact mem_paths_append.1 (h.closed file hmem path hpath)
    · intro h
      exact ⟨hnamed, hdistinct, fun file hmem path hpath =>
        mem_paths_append.2 (h file hmem path hpath)⟩

/-- Behind a file `a` (and a group that is not known) two files `b` and `a` repeat the path of the
first, and a file `c` that imports `a` finds it there. -/
theorem decode_append_groupAndImport :
    let bytes : List UInt8 := [19, 16, 5, 20, 10, 3, 10, 1, 97]
    let more : List UInt8 := [10, 3, 10, 1, 98, 10, 3, 10, 1, 97]
    let importing : List UInt8 := [10, 6, 10, 1, 99, 26, 1, 97]
    let a : File := { name := some "a" }
    let b : File := { name := some "b" }
    let c : File := { name := some "c", imports := ["a"] }
    decode bytes = .ok ⟨[a]⟩ ∧ decode more = .ok ⟨[b, a]⟩ ∧
      decode (bytes ++ more) = .error (.duplicateFile "a") ∧
      decode importing = .error (.missingImport "c" "a") ∧
      decode (bytes ++ importing) = .ok ⟨[a, c]⟩ ∧
      decode (importing ++ bytes) = .ok ⟨[c, a]⟩ := by
  intro bytes more importing a b c
  have hbytes : filesOfBytes? bytes = some [a] := by with_unfolding_all rfl
  have hmore : filesOfBytes? more = some [b, a] := by with_unfolding_all rfl
  have himporting : filesOfBytes? importing = some [c] := by with_unfolding_all rfl
  have ha : decode bytes = .ok ⟨[a]⟩ := by with_unfolding_all rfl
  have hba : decode more = .ok ⟨[b, a]⟩ := by with_unfolding_all rfl
  refine ⟨ha, hba, ?_, by with_unfolding_all rfl, ?_, ?_⟩
  · exact ((decode_append hbytes hmore).2.1 _ _ ha hba).2 [b] a [] rfl (by decide) (by decide)
  · exact ((decode_append hbytes himporting).2.2 (by decide) (by decide)).2 (by decide)
  · exact ((decode_append himporting hbytes).2.2 (by decide) (by decide)).2 (by decide)

end Image

end SchemaOptions
