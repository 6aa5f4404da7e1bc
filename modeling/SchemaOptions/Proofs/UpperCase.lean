import SchemaOptions.Naming.PascalCase

/-!
# What upper case consists of

The upper case of a character is never empty (`upper_ne_nil`), each character in it is its own upper
case (`upper_of_mem_upper`), and none of them separates words unless the character itself does
(`isWordSeparator_of_mem_upper`).

That is so because of what is in the table, and it is checked on the table. An entry of the table
may stand for many letters and is checked as a whole: the images of a run are not among the letters
of another if they lie outside of it (`CaseRun.avoids`) or between its letters (`CaseRun.misses`).
-/

namespace SchemaOptions.Text

/-! ## Images of a run -/

namespace CaseRun

/-- Whether the images of a run lie outside a range. -/
def avoids (run : CaseRun) (range : Nat × Nat) : Bool :=
  range.2.blt run.image || (run.image + (run.last - run.first)).blt range.1

/-- Whether no image of a run is a letter of another: all of them lie outside, or the other run
takes every second letter and they are among those that it leaves out. -/
def misses (run other : CaseRun) : Bool :=
  run.avoids (other.first, other.last) ||
    other.step == 2 && (run.step == 2 || run.first == run.last) &&
      (run.image + other.first) % 2 == 1

variable {run other : CaseRun} {code image : Nat}

theorem map?_eq_some_iff :
    run.map? code = some image ↔
      (run.first ≤ code ∧ code ≤ run.last ∧ (code - run.first) % run.step = 0) ∧
        run.image + (code - run.first) = image := by
  unfold map?
  split
  · rename_i h
    rw [Option.some.injEq, and_iff_right h]
  · rename_i h
    exact iff_of_false nofun fun hboth => h hboth.1

theorem not_between_of_avoids {range : Nat × Nat} (h : run.avoids range)
    (himage : run.map? code = some image) : ¬(range.1 ≤ image ∧ image ≤ range.2) := by
  obtain ⟨⟨hfirst, hlast, -⟩, rfl⟩ := map?_eq_some_iff.1 himage
  simp only [avoids, Bool.or_eq_true, Nat.blt_eq] at h
  omega

theorem map?_eq_none_of_misses (h : run.misses other) (himage : run.map? code = some image) :
    other.map? image = none := by
  rw [Option.eq_none_iff_forall_ne_some]
  intro second hsecond
  obtain ⟨⟨hfirst, hlast, hstep⟩, -⟩ := map?_eq_some_iff.1 hsecond
  obtain houtside | hbetween := Bool.or_eq_true_iff.1 h
  · exact not_between_of_avoids houtside himage ⟨hfirst, hlast⟩
  · simp only [Bool.and_eq_true, Bool.or_eq_true, beq_iff_eq] at hbetween
    obtain ⟨⟨htwo, hletters⟩, hodd⟩ := hbetween
    obtain ⟨⟨hfrom, hto, hletter⟩, rfl⟩ := map?_eq_some_iff.1 himage
    rw [htwo] at hstep
    -- The letters go in steps of two. So do the images, one off, or there is only one of them.
    obtain hevery | hsingle := hletters
    · rw [hevery] at hletter
      omega
    · omega

end CaseRun

/-! ## The table -/

/-- The ranges of the characters that stand between words. -/
def separatorRanges : Ranges :=
  (0x002D, 0x002E) :: (0x005F, 0x005F) :: blankRanges

/-- The code points that are no characters. -/
def surrogates : Nat × Nat :=
  (0xD800, 0xDFFF)

theorem has_separatorRanges {c : Char} (h : Naming.isWordSeparator c) : separatorRanges.has c := by
  simp only [Naming.isWordSeparator, Bool.or_eq_true, beq_iff_eq] at h
  obtain ((rfl | rfl) | rfl) | hblank := h
  · decide
  · decide
  · decide
  · obtain ⟨range, hmem, hbetween⟩ := Ranges.has_iff.1 hblank
    exact Ranges.has_iff.2 ⟨range, List.mem_cons_of_mem _ (List.mem_cons_of_mem _ hmem), hbetween⟩

/-- No image of a run is a letter of a run. -/
theorem caseRuns_miss : ∀ run ∈ caseRuns, caseRuns.all run.misses := by
  decide +kernel

/-- No image of a run has an expansion. -/
theorem caseRuns_avoid_expansions :
    ∀ run ∈ caseRuns, expansions.all fun entry => run.avoids (entry.1, entry.1) := by
  decide +kernel

/-- The images of a run are characters, and characters that stand in words. -/
theorem caseRuns_avoid :
    ∀ run ∈ caseRuns, run.image + (run.last - run.first) < 0x110000 ∧
      (surrogates :: separatorRanges).all run.avoids := by
  decide +kernel

/-- What a character expands to are characters that stand in words and are their own upper case. -/
theorem expansions_upper :
    ∀ entry ∈ expansions, ∀ code ∈ entry.2, code.isValidChar ∧ upperCodes code = [code] ∧
      ∀ range ∈ separatorRanges, ¬(range.1 ≤ code ∧ code ≤ range.2) := by
  decide +kernel

/-- Whether a code point is an image in the table, on its own or as part of an expansion. -/
inductive IsImage : Nat → Prop where
  | ofRun {run : CaseRun} {code image : Nat} (hrun : run ∈ caseRuns)
      (h : run.map? code = some image) : IsImage image
  | ofExpansion {entry : Nat × List Nat} {image : Nat} (hentry : entry ∈ expansions)
      (h : image ∈ entry.2) : IsImage image

namespace IsImage

variable {image : Nat}

theorem isValidChar (h : IsImage image) : image.isValidChar := by
  cases h with
  | ofExpansion hentry hmem => exact (expansions_upper _ hentry _ hmem).1
  | ofRun hrun himage =>
    obtain ⟨hlast, havoids⟩ := caseRuns_avoid _ hrun
    have hbetween := CaseRun.not_between_of_avoids
      (List.all_eq_true.1 havoids surrogates List.mem_cons_self) himage
    obtain ⟨⟨hfrom, hto, -⟩, rfl⟩ := CaseRun.map?_eq_some_iff.1 himage
    simp only [surrogates] at hbetween
    unfold Nat.isValidChar
    omega

theorem not_between (h : IsImage image) : ∀ range ∈ separatorRanges,
    ¬(range.1 ≤ image ∧ image ≤ range.2) := by
  intro range hrange
  cases h with
  | ofExpansion hentry hmem => exact (expansions_upper _ hentry _ hmem).2.2 range hrange
  | ofRun hrun himage =>
    have havoids := List.all_eq_true.1 (caseRuns_avoid _ hrun).2
    exact CaseRun.not_between_of_avoids (havoids range (List.mem_cons_of_mem _ hrange)) himage

/-- An image is its own upper case. -/
theorem upperCodes_eq (h : IsImage image) : upperCodes image = [image] := by
  cases h with
  | ofExpansion hentry hmem => exact (expansions_upper _ hentry _ hmem).2.1
  | ofRun hrun himage =>
    have hlookup : expansions.lookup image = none := by
      rw [List.lookup_eq_none_iff]
      intro entry hentry
      rw [bne_iff_ne]
      rintro rfl
      have havoids := List.all_eq_true.1 (caseRuns_avoid_expansions _ hrun) entry hentry
      exact CaseRun.not_between_of_avoids havoids himage ⟨Nat.le_refl _, Nat.le_refl _⟩
    have hruns : caseRuns.findSome? (·.map? image) = none := by
      rw [List.findSome?_eq_none_iff]
      intro other hother
      exact CaseRun.map?_eq_none_of_misses (List.all_eq_true.1 (caseRuns_miss _ hrun) other hother)
        himage
    simp only [upperCodes, hlookup, hruns, Option.getD_none]

end IsImage

/-- What is in an upper case is an image of the table, or the code point that has none. -/
theorem isImage_or_eq_of_mem_upperCodes {code image : Nat} (h : image ∈ upperCodes code) :
    IsImage image ∨ image = code ∧ upperCodes code = [code] := by
  unfold upperCodes at h ⊢
  split
  · rename_i codes hlookup
    simp only [hlookup] at h
    obtain ⟨before, after, heq, -⟩ := List.lookup_eq_some_iff.1 hlookup
    exact .inl (.ofExpansion (heq ▸ List.mem_append_right _ List.mem_cons_self) h)
  · rename_i hlookup
    simp only [hlookup, List.mem_singleton] at h
    cases hrun : caseRuns.findSome? (·.map? code) with
    | none =>
      rw [hrun] at h
      exact .inr ⟨h, rfl⟩
    | some found =>
      rw [hrun] at h
      obtain rfl := h
      obtain ⟨run, hmem, himage⟩ := List.exists_of_findSome?_eq_some hrun
      exact .inl (.ofRun hmem himage)

/-! ## Characters -/

theorem upper_ne_nil (c : Char) : upper c ≠ [] := by
  have htable : ∀ entry ∈ expansions, entry.2 ≠ [] := by decide
  unfold upper upperCodes
  rw [ne_eq, List.map_eq_nil_iff]
  split
  · rename_i image himage
    obtain ⟨before, after, heq, -⟩ := List.lookup_eq_some_iff.1 himage
    exact htable (c.toNat, image) (heq ▸ List.mem_append_right _ List.mem_cons_self)
  · exact List.cons_ne_nil _ _

/-- A character in the upper case of another is an image of the table, or the other one itself. -/
theorem isImage_or_eq_of_mem_upper {c x : Char} (h : x ∈ upper c) :
    IsImage x.toNat ∨ x = c ∧ upper c = [c] := by
  obtain ⟨image, hmem, rfl⟩ := List.mem_map.1 h
  obtain himage | ⟨rfl, hself⟩ := isImage_or_eq_of_mem_upperCodes hmem
  · have hcode : (Char.ofNat image).toNat = image := by
      rw [Char.ofNat, dif_pos himage.isValidChar]
      rfl
    exact .inl (hcode.symm ▸ himage)
  · rw [upper, hself, List.map_singleton, Char.ofNat_toNat]
    exact .inr ⟨rfl, rfl⟩

/-- What is in an upper case is its own upper case. -/
theorem upper_of_mem_upper {c x : Char} (h : x ∈ upper c) : upper x = [x] := by
  obtain himage | ⟨rfl, hself⟩ := isImage_or_eq_of_mem_upper h
  · rw [upper, himage.upperCodes_eq, List.map_singleton, Char.ofNat_toNat]
  · exact hself

/-- The upper case of a character that stands in words stands in words. -/
theorem isWordSeparator_of_mem_upper {c x : Char} (h : x ∈ upper c)
    (hx : Naming.isWordSeparator x) : Naming.isWordSeparator c := by
  obtain himage | ⟨rfl, -⟩ := isImage_or_eq_of_mem_upper h
  · obtain ⟨range, hrange, hbetween⟩ := Ranges.has_iff.1 (has_separatorRanges hx)
    exact absurd hbetween (himage.not_between range hrange)
  · exact hx

end SchemaOptions.Text
