import SchemaOptions.Proofs.Effect

/-!
# A rule over the files of an image

A rule goes through the files in their order and stops at the first in which it fails. If it fails
nowhere, every file is edited (`editFiles_of_ok`); otherwise the files before the first failing one
are, that one is left as the failure leaves it, and the others are as they were
(`editFiles_of_error`). The touches are those of the files that changed. Each run is of one of the
two kinds, so the laws of a modifier (`OptionRule.modifier_eq_ok_iff`,
`OptionRule.modifier_eq_error_iff`) say all that it can do.
-/

namespace SchemaOptions

namespace OptionRule

/-- The touch that a rule leaves in a file, if it changes it. -/
def touchOf (rule : OptionRule) (file : File) : List Touch :=
  if rule.changes file then [file.slotTouch rule.slot] else []

/-- The touches that a rule leaves in files. -/
def touches (rule : OptionRule) (files : List File) : List Touch :=
  files.flatMap rule.touchOf

@[simp] theorem touches_nil (rule : OptionRule) : rule.touches [] = [] := rfl

@[simp] theorem touches_cons (rule : OptionRule) (file : File) (files : List File) :
    rule.touches (file :: files) = rule.touchOf file ++ rule.touches files := rfl

theorem mem_touches {rule : OptionRule} {files : List File} {touch : Touch} :
    touch ∈ rule.touches files ↔
      ∃ file ∈ files, rule.changes file = true ∧ touch = file.slotTouch rule.slot := by
  simp only [touches, List.mem_flatMap, touchOf]
  refine exists_congr fun file => and_congr_right fun _ => ?_
  cases rule.changes file with
  | false => simp only [Bool.false_eq_true, if_false, List.not_mem_nil, false_and]
  | true => simp only [if_true, List.mem_singleton, true_and]

/-! ## One file -/

theorem editSlot_of_ok {rule : OptionRule} {file : File} (sweeper : Sweeper)
    (h : rule.error? file = none) :
    editSlot rule.slot rule.target (file, sweeper) =
      .ok (rule.changes file) (rule.edited file, sweeper.touchAll (rule.touchOf file)) := by
  rw [editSlot_eq]
  unfold touchOf changes edited
  unfold error? at h
  cases heffect : rule.effect file with
  | kept => rfl
  | changed after => rfl
  | failed error left =>
    rw [heffect] at h
    cases h

theorem editSlot_of_error {rule : OptionRule} {file : File} {error : EditError} (sweeper : Sweeper)
    (h : rule.error? file = some error) :
    editSlot rule.slot rule.target (file, sweeper) = .error error (rule.edited file, sweeper) := by
  rw [editSlot_eq]
  unfold edited
  unfold error? at h
  cases heffect : rule.effect file with
  | kept => rw [heffect] at h; cases h
  | changed after => rw [heffect] at h; cases h
  | failed error left =>
    rw [heffect] at h
    cases h
    rfl

/-! ## All files -/

/-- A rule that fails in no file edits all of them. -/
theorem editFiles_of_ok {rule : OptionRule} {files : List File} (sweeper : Sweeper)
    (h : ∀ file ∈ files, rule.error? file = none) :
    editFiles (editSlot rule.slot rule.target) files sweeper =
      .ok (files.map rule.changes)
        (files.map rule.edited, sweeper.touchAll (rule.touches files)) := by
  induction files generalizing sweeper with
  | nil => rfl
  | cons file rest ih =>
    have hrest : ∀ file ∈ rest, rule.error? file = none :=
      fun file hmem => h file (List.mem_cons_of_mem _ hmem)
    simp only [editFiles, editSlot_of_ok sweeper (h file List.mem_cons_self), ih _ hrest,
      List.map_cons, touches_cons, Sweeper.touchAll_append]

/-- A rule that fails in some file edits those before the first such file. -/
theorem editFiles_of_error {rule : OptionRule} {before after : List File} {file : File}
    {error : EditError} (sweeper : Sweeper)
    (hbefore : ∀ file ∈ before, rule.error? file = none) (herror : rule.error? file = some error) :
    editFiles (editSlot rule.slot rule.target) (before ++ file :: after) sweeper =
      .error error (before.map rule.edited ++ rule.edited file :: after,
        sweeper.touchAll (rule.touches before)) := by
  induction before generalizing sweeper with
  | nil =>
    simp only [List.nil_append, editFiles, editSlot_of_error sweeper herror, List.map_nil,
      touches_nil, Sweeper.touchAll_nil]
  | cons first rest ih =>
    have hrest : ∀ file ∈ rest, rule.error? file = none :=
      fun file hmem => hbefore file (List.mem_cons_of_mem _ hmem)
    have hfirst := editSlot_of_ok sweeper (hbefore first List.mem_cons_self)
    simp only [List.cons_append, editFiles, hfirst, ih _ hrest, List.map_cons, touches_cons,
      Sweeper.touchAll_append]

/-- Either a rule fails in no file, or there is a first file in which it fails. -/
theorem error?_cases (rule : OptionRule) (files : List File) :
    (∀ file ∈ files, rule.error? file = none) ∨
      ∃ before file after error, files = before ++ file :: after ∧
        (∀ file ∈ before, rule.error? file = none) ∧ rule.error? file = some error := by
  cases h : files.findSome? rule.error? with
  | none => exact .inl (List.findSome?_eq_none_iff.1 h)
  | some error =>
    obtain ⟨before, file, after, hfiles, herror, hbefore⟩ := List.findSome?_eq_some_iff.1 h
    exact .inr ⟨before, file, after, error, hfiles, hbefore, herror⟩

/-! ## The modifier of a rule -/

/-- The workspace after a rule was put into effect in every file. -/
def applied (rule : OptionRule) (workspace : Workspace) : Workspace :=
  { workspace with
    image := ⟨workspace.image.files.map rule.edited⟩
    sweeper := workspace.sweeper.touchAll (rule.touches workspace.image.files) }

theorem modifier_of_ok {rule : OptionRule} {workspace : Workspace}
    (h : ∀ file ∈ workspace.image.files, rule.error? file = none) :
    rule.modifier workspace = .ok () (rule.applied workspace) := by
  simp only [modifier, modifyOption, Image.forEachFile, editFiles_of_ok workspace.sweeper h,
    applied]

theorem modifier_of_error {rule : OptionRule} {workspace : Workspace} {before after : List File}
    {file : File} {error : EditError} (hfiles : workspace.image.files = before ++ file :: after)
    (hbefore : ∀ file ∈ before, rule.error? file = none) (herror : rule.error? file = some error) :
    rule.modifier workspace =
      .error error { workspace with
        image := ⟨before.map rule.edited ++ rule.edited file :: after⟩
        sweeper := workspace.sweeper.touchAll (rule.touches before) } := by
  simp only [modifier, modifyOption, Image.forEachFile, hfiles,
    editFiles_of_error workspace.sweeper hbefore herror]

/-- A modifier succeeds if its rule fails in no file, and then it has edited every file. -/
theorem modifier_eq_ok_iff {rule : OptionRule} {workspace done : Workspace} :
    rule.modifier workspace = .ok () done ↔
      (∀ file ∈ workspace.image.files, rule.error? file = none) ∧
        done = rule.applied workspace := by
  constructor
  · intro h
    obtain hok | ⟨before, file, after, error, hfiles, hbefore, herror⟩ :=
      rule.error?_cases workspace.image.files
    · rw [modifier_of_ok hok] at h
      cases h
      exact ⟨hok, rfl⟩
    · rw [modifier_of_error hfiles hbefore herror] at h
      cases h
  · rintro ⟨hok, rfl⟩
    exact modifier_of_ok hok

/-- A modifier fails with the error of the first file in which its rule fails, and then the files
before that one are edited. -/
theorem modifier_eq_error_iff {rule : OptionRule} {workspace left : Workspace}
    {error : EditError} :
    rule.modifier workspace = .error error left ↔
      ∃ before file after, workspace.image.files = before ++ file :: after ∧
        (∀ file ∈ before, rule.error? file = none) ∧ rule.error? file = some error ∧
        left = { workspace with
          image := ⟨before.map rule.edited ++ rule.edited file :: after⟩
          sweeper := workspace.sweeper.touchAll (rule.touches before) } := by
  constructor
  · intro h
    obtain hok | ⟨before, file, after, error', hfiles, hbefore, herror⟩ :=
      rule.error?_cases workspace.image.files
    · rw [modifier_of_ok hok] at h
      cases h
    · rw [modifier_of_error hfiles hbefore herror] at h
      cases h
      exact ⟨before, file, after, hfiles, hbefore, herror, rfl⟩
  · rintro ⟨before, file, after, hfiles, hbefore, herror, rfl⟩
    exact modifier_of_error hfiles hbefore herror

/-- The error of a modifier is that of its rule in some file. -/
theorem exists_error?_of_modifier {rule : OptionRule} {workspace left : Workspace}
    {error : EditError} (h : rule.modifier workspace = .error error left) :
    ∃ file ∈ workspace.image.files, rule.error? file = some error := by
  obtain ⟨before, file, after, hfiles, -, herror, -⟩ := modifier_eq_error_iff.1 h
  refine ⟨file, ?_, herror⟩
  rw [hfiles]
  exact List.mem_append_right _ List.mem_cons_self

/-- A modifier fails if its rule fails in some file. -/
theorem modifier_fails_iff {rule : OptionRule} {workspace : Workspace} :
    (∃ error left, rule.modifier workspace = .error error left) ↔
      ∃ file ∈ workspace.image.files, ∃ error, rule.error? file = some error := by
  constructor
  · rintro ⟨error, left, h⟩
    obtain ⟨file, hmem, herror⟩ := exists_error?_of_modifier h
    exact ⟨file, hmem, error, herror⟩
  · rintro ⟨file, hmem, error, herror⟩
    obtain hok | ⟨before, first, after, error', hfiles, hbefore, hfirst⟩ :=
      rule.error?_cases workspace.image.files
    · rw [hok file hmem] at herror
      cases herror
    · exact ⟨error', _, modifier_of_error hfiles hbefore hfirst⟩

end OptionRule

end SchemaOptions
