import Mathlib.Data.List.Forall2
import SchemaOptions.Proofs.Files

/-!
# Editing one slot in every file

An edit of a slot is asked of a function of the file, which may be any. Whether a file stops the
edit, and with which error, can be told of the file alone (`StopsEdit`): the function fails, or it
asks for a value that the slot refuses and does not read as already. A file that does not stop it is
edited as the function asks (`SlotEdited`).

The edit goes through the files in their order up to the first that stops it. What it leaves of the
files before that one, and of the sweeper, is the same as if they had been all
(`modifyOption_up_to_first_stop`).
-/

namespace SchemaOptions

/-! ## One file -/

/-- Whether a file stops the edit of a slot, and with which error. A well-known file never does. -/
inductive StopsEdit (slot : Slot) (target : File → Except EditError OptionEdit) (file : File) :
    EditError → Prop where
  /-- There is no telling what the file is to hold. -/
  | unanswered {error : EditError} (managed : file.isWellKnown = false)
      (fails : target file = .error error) : StopsEdit slot target file error
  /-- The value that it is to hold is of another kind than the slot. -/
  | wrongKind {value : OptionValue} (managed : file.isWellKnown = false)
      (asks : target file = .ok (.set value)) (differs : file.readSlot slot ≠ some value)
      (kind : value.kind ≠ slot.kind) :
      StopsEdit slot target file (.file file.path (.slot (.wrongKind slot value)))
  /-- The text that it is to hold has a NUL character. -/
  | containsNul {s : String} (managed : file.isWellKnown = false)
      (asks : target file = .ok (.set (.text s))) (differs : file.readSlot slot ≠ some (.text s))
      (kind : slot.kind = .text) (nul : '\x00' ∈ s.toList) :
      StopsEdit slot target file (.file file.path (.slot (.containsNul slot)))

/-- What an edit of a slot makes of a file that does not stop it. -/
structure SlotEdited (slot : Slot) (target : File → Except EditError OptionEdit)
    (before after : File) : Prop where
  set : ∀ value, before.isWellKnown = false → target before = .ok (.set value) →
    after.readSlot slot = some value
  cleared : before.isWellKnown = false → target before = .ok .clear → after.readSlot slot = none
  kept : before.isWellKnown = true ∨ target before = .ok .keep → after = before
  /-- Nothing is written if nothing is to change. -/
  unchanged : after.readSlot slot = before.readSlot slot → after = before
  /-- Nothing changes but the slot. -/
  frame : SlotFrame [slot] before after

section OneFile

variable {slot : Slot} {target : File → Except EditError OptionEdit} {file : File}
  {error : EditError}

/-- A file stops an edit exactly if the rule that makes the edit fails in it. -/
theorem error?_eq_some_iff_stopsEdit :
    (OptionRule.mk slot target).error? file = some error ↔ StopsEdit slot target file error := by
  rw [OptionRule.error?_eq]
  constructor
  · intro h
    cases managed : file.isWellKnown with
    | true =>
      rw [OptionRule.demand, if_pos managed] at h
      cases h
    | false =>
      rw [OptionRule.demand_of_managed managed] at h
      cases asks : target file with
      | error e =>
        simp only [asks, Except.map] at h
        cases h
        exact .unanswered managed asks
      | ok edit =>
        simp only [asks, Except.map] at h
        cases edit with
        | keep => cases h
        | clear =>
          obtain ⟨-, fault, hfault, -⟩ := File.error?_update_eq_some_iff.1 h
          cases hfault
        | set value =>
          obtain ⟨differs, fault, hfault, rfl⟩ := File.error?_update_eq_some_iff.1 h
          obtain ⟨kind, rfl⟩ | ⟨kind, ⟨s, rfl, nul⟩, rfl⟩ := Slot.refusal?_eq_some_iff.1 hfault
          · exact .wrongKind managed asks differs kind
          · exact .containsNul managed asks differs kind nul
  · intro h
    cases h with
    | unanswered managed fails =>
      simp only [OptionRule.demand_of_managed managed, fails, Except.map]
    | wrongKind managed asks differs kind =>
      simp only [OptionRule.demand_of_managed managed, asks, Except.map]
      exact File.error?_update_eq_some_iff.2
        ⟨differs, _, Slot.refusal?_eq_some_iff.2 (.inl ⟨kind, rfl⟩), rfl⟩
    | containsNul managed asks differs kind nul =>
      simp only [OptionRule.demand_of_managed managed, asks, Except.map]
      exact File.error?_update_eq_some_iff.2
        ⟨differs, _, Slot.refusal?_eq_some_iff.2 (.inr ⟨kind, ⟨_, rfl, nul⟩, rfl⟩), rfl⟩

theorem error?_eq_none_of_not_stopsEdit (h : ∀ error, ¬StopsEdit slot target file error) :
    (OptionRule.mk slot target).error? file = none :=
  Option.eq_none_iff_forall_not_mem.2 fun error herror =>
    h error (error?_eq_some_iff_stopsEdit.1 herror)

/-- A file that does not stop an edit is edited as the function asks. -/
theorem slotEdited_edited (h : ∀ error, ¬StopsEdit slot target file error) :
    SlotEdited slot target file ((OptionRule.mk slot target).edited file) := by
  have hok := error?_eq_none_of_not_stopsEdit h
  refine ⟨fun value managed asks => ?_, fun managed asks => ?_, fun hkept => ?_, fun hread => ?_,
    (OptionRule.mk slot target).edited_frame file⟩
  · refine OptionRule.readSlot_edited hok ?_
    simp only [OptionRule.demand_of_managed managed, asks]
    rfl
  · refine OptionRule.readSlot_edited hok ?_
    simp only [OptionRule.demand_of_managed managed, asks]
    rfl
  · have hdemand : (OptionRule.mk slot target).demand file = .ok none := by
      unfold OptionRule.demand
      obtain hknown | asks := hkept
      · rw [if_pos hknown]
      · split
        · rfl
        · simp only [asks]
          rfl
    rw [OptionRule.edited, OptionRule.effect, hdemand]
    rfl
  · have hchanges : (OptionRule.mk slot target).changes file = false :=
      Bool.eq_false_iff.2 fun hchanges => OptionRule.readSlot_edited_ne_iff.2 hchanges hread
    exact (OptionRule.edited_of_not_changes hchanges).resolve_right fun hfails => hfails.1 hok

/-- Of a well-known file nothing is asked. -/
theorem editSlot_congr {other : File → Except EditError OptionEdit}
    (h : file.isWellKnown = false → other file = target file) (sweeper : Sweeper) :
    editSlot slot other (file, sweeper) = editSlot slot target (file, sweeper) := by
  simp only [editSlot]
  split
  · rfl
  · rename_i hknown
    rw [h (Bool.eq_false_iff.2 hknown)]

end OneFile

/-! ## All files -/

/-- What an edit of a slot makes of files none of which stops it, and of the sweeper: the new
touches are those of the files that read differently. -/
structure AllEdited (slot : Slot) (target : File → Except EditError OptionEdit)
    (before : List File) (sweeper : Sweeper) (after : List File) (left : Sweeper) : Prop where
  files : List.Forall₂ (SlotEdited slot target) before after
  touches : ∀ touch, touch ∈ left.touches ↔ touch ∈ sweeper.touches ∨
    ∃ pair ∈ before.zip after, pair.2.readSlot slot ≠ pair.1.readSlot slot ∧
      touch = ⟨pair.1.path, [8, slot.tag], .exact⟩

section AllFiles

variable {slot : Slot} {target : File → Except EditError OptionEdit} {files : List File}

/-- A rule that fails in no file edits all of them. -/
theorem allEdited_map (sweeper : Sweeper)
    (h : ∀ file ∈ files, ∀ error, ¬StopsEdit slot target file error) :
    AllEdited slot target files sweeper (files.map (OptionRule.mk slot target).edited)
      (sweeper.touchAll ((OptionRule.mk slot target).touches files)) where
  files := List.forall₂_map_right_iff.2 (List.forall₂_same.2 fun file hmem =>
    slotEdited_edited (h file hmem))
  touches := fun touch => by
    rw [Sweeper.mem_touches_touchAll, OptionRule.mem_touches, or_comm,
      ← List.map_prod_left_eq_zip]
    simp only [List.mem_map, exists_exists_and_eq_and]
    simp only [← OptionRule.readSlot_edited_ne_iff]
    rfl

/-- The number of changes is that of the files that read differently. -/
theorem count_changes (rule : OptionRule) (files : List File) :
    (files.map rule.changes).count true =
      (files.zip (files.map rule.edited)).countP fun pair =>
        decide (pair.2.readSlot rule.slot ≠ pair.1.readSlot rule.slot) := by
  rw [← List.map_prod_left_eq_zip, List.countP_map, List.count, List.countP_map]
  refine List.countP_congr fun file _ => ?_
  simp only [Function.comp_apply, beq_iff_eq, decide_eq_true_eq,
    OptionRule.readSlot_edited_ne_iff]

/-- Edits that agree on files go through them alike. -/
theorem editFiles_congr {σ α : Type} {edit other : Edit (File × σ) α}
    (h : ∀ file ∈ files, ∀ shared, edit (file, shared) = other (file, shared)) (shared : σ) :
    editFiles edit files shared = editFiles other files shared := by
  induction files generalizing shared with
  | nil => rfl
  | cons file rest ih =>
    have hrest := ih fun file hmem => h file (List.mem_cons_of_mem _ hmem)
    simp only [editFiles, h file List.mem_cons_self, hrest]

/-- An edit of a slot goes through the files up to the first that stops it. If none does, it tells
how many files read differently. Otherwise it fails with the error of that file, which is left with
at most an empty block of options that is new, and the files behind it are left as they are. Of
well-known files nothing is asked. -/
theorem modifyOption_up_to_first_stop (slot : Slot) (target : File → Except EditError OptionEdit)
    (workspace : Workspace) :
    ((∀ file ∈ workspace.image.files, ∀ error, ¬StopsEdit slot target file error) →
      ∃ files sweeper,
        modifyOption slot target workspace =
          .ok ((workspace.image.files.zip files).countP fun pair =>
              decide (pair.2.readSlot slot ≠ pair.1.readSlot slot))
            { workspace with image := ⟨files⟩, sweeper } ∧
        AllEdited slot target workspace.image.files workspace.sweeper files sweeper) ∧
    (∀ before file after error, workspace.image.files = before ++ file :: after →
      (∀ earlier ∈ before, ∀ error, ¬StopsEdit slot target earlier error) →
      StopsEdit slot target file error →
      ∃ edited kept sweeper,
        modifyOption slot target workspace =
          .error error { workspace with image := ⟨edited ++ kept :: after⟩, sweeper } ∧
        AllEdited slot target before workspace.sweeper edited sweeper ∧
        (kept = file ∨
          file.options = none ∧ kept = { file with options := some FileOptions.empty }) ∧
        ∀ other : Slot, kept.readSlot other = file.readSlot other) ∧
    ∀ other, (∀ file ∈ workspace.image.files, file.isWellKnown = false →
        other file = target file) →
      modifyOption slot other workspace = modifyOption slot target workspace := by
  let rule : OptionRule := ⟨slot, target⟩
  refine ⟨fun hnone => ?_, fun before file after error hfiles hbefore hstops => ?_,
    fun other hagree => ?_⟩
  · have hok : ∀ file ∈ workspace.image.files, rule.error? file = none :=
      fun file hmem => error?_eq_none_of_not_stopsEdit (hnone file hmem)
    refine ⟨_, _, ?_, allEdited_map workspace.sweeper hnone⟩
    have hrun := OptionRule.editFiles_of_ok workspace.sweeper hok
    simp only [modifyOption, Image.forEachFile]
    rw [hrun]
    simp only [count_changes]
    rfl
  · have hok : ∀ file ∈ before, rule.error? file = none :=
      fun file hmem => error?_eq_none_of_not_stopsEdit (hbefore file hmem)
    have herror : rule.error? file = some error := error?_eq_some_iff_stopsEdit.2 hstops
    have hkept := OptionRule.edited_of_error herror
    refine ⟨_, rule.edited file, _, ?_, allEdited_map workspace.sweeper hbefore, hkept, ?_⟩
    · have hrun : editFiles (editSlot slot target) (before ++ file :: after) workspace.sweeper =
          _ := OptionRule.editFiles_of_error workspace.sweeper hok herror
      simp only [modifyOption, Image.forEachFile, hfiles]
      rw [hrun]
    · intro other
      rw [File.readSlot_eq, File.readSlot_eq,
        OptionRule.optionsOrEmpty_edited_of_not_changes (OptionRule.changes_of_error herror)]
  · have hedit : ∀ file ∈ workspace.image.files, ∀ sweeper,
        editSlot slot other (file, sweeper) = editSlot slot target (file, sweeper) :=
      fun file hmem sweeper => editSlot_congr (hagree file hmem) sweeper
    simp only [modifyOption, Image.forEachFile, editFiles_congr hedit]

/-- A text with a NUL character is no fault in a file that holds it already, and stops the edit in
the next one. -/
theorem modifyOption_up_to_first_stop_held :
    let slot : Slot := .text .goPackage
    let target : File → Except EditError OptionEdit := fun _ => .ok (.set (.text "x\x00"))
    let holding : File := { name := some "a.proto", options := some { goPackage := some "x\x00" } }
    let lacking : File := { name := some "b.proto" }
    let last : File := { name := some "c.proto" }
    let error : EditError := .file "b.proto" (.slot (.containsNul slot))
    (∀ error, ¬StopsEdit slot target holding error) ∧ StopsEdit slot target lacking error ∧
      (∃ count files sweeper, modifyOption slot target { image := ⟨[holding]⟩ } =
        .ok count { image := ⟨files⟩, sweeper } ∧
        AllEdited slot target [holding] Sweeper.empty files sweeper) ∧
      ∃ edited kept sweeper, modifyOption slot target { image := ⟨[holding, lacking, last]⟩ } =
        .error error { image := ⟨edited ++ kept :: [last]⟩, sweeper } ∧
        kept.readSlot slot = none := by
  intro slot target holding lacking last error
  have hholding : ∀ error, ¬StopsEdit slot target holding error := by
    intro error hstops
    cases hstops with
    | unanswered _ fails => cases fails
    | wrongKind _ asks _ kind => cases asks; exact kind rfl
    | containsNul _ asks differs => cases asks; exact differs rfl
  have hlacking : StopsEdit slot target lacking error :=
    .containsNul rfl rfl nofun rfl (by decide)
  refine ⟨hholding, hlacking, ?_, ?_⟩
  · obtain ⟨files, sweeper, hrun, hedited⟩ :=
      (modifyOption_up_to_first_stop slot target { image := ⟨[holding]⟩ }).1
        (List.forall_mem_singleton.2 hholding)
    exact ⟨_, files, sweeper, hrun, hedited⟩
  · obtain ⟨edited, kept, sweeper, hrun, -, -, hread⟩ :=
      (modifyOption_up_to_first_stop slot target { image := ⟨[holding, lacking, last]⟩ }).2.1
        [holding] lacking [last] error rfl (List.forall_mem_singleton.2 hholding) hlacking
    exact ⟨edited, kept, sweeper, hrun, hread slot⟩

end AllFiles
end SchemaOptions
