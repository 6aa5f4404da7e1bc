import SchemaOptions.Proofs.Files

/-!
# Rules one after the other

Rules that manage different slots, and look at nothing but a file's path and package, do not notice
each other (`Independent`): whether a rule fails in a file, and whether it changes it, is the same
before and after the others were put into effect. So what a sequence of such rules comes to can be
read off the files that it starts with (`sequence_rules_eq_ok_iff`).

The laws of `Modifier.sequence` itself are about any modifiers: a sequence fails at the first
modifier that does, on the workspace that those before it made (`Modifier.sequence_eq_error_iff`).
-/

namespace SchemaOptions

namespace Modifier

theorem sequence_cons (modifier : Modifier) (rest : List Modifier) (workspace : Workspace) :
    sequence (modifier :: rest) workspace =
      match modifier workspace with
      | .ok _ workspace => sequence rest workspace
      | .error e workspace => .error e workspace := rfl

theorem sequence_append (first rest : List Modifier) (workspace : Workspace) :
    sequence (first ++ rest) workspace =
      match sequence first workspace with
      | .ok _ workspace => sequence rest workspace
      | .error e workspace => .error e workspace := by
  induction first generalizing workspace with
  | nil => rfl
  | cons modifier first ih =>
    rw [List.cons_append, sequence_cons, sequence_cons]
    cases modifier workspace with
    | ok _ workspace => exact ih workspace
    | error => rfl

/-- A sequence of modifiers succeeds if the first does and the others do on what it made. -/
theorem sequence_cons_eq_ok_iff {modifier : Modifier} {rest : List Modifier}
    {workspace done : Workspace} :
    sequence (modifier :: rest) workspace = .ok () done ↔
      ∃ next, modifier workspace = .ok () next ∧ sequence rest next = .ok () done := by
  rw [sequence_cons]
  cases modifier workspace with
  | ok _ next =>
    refine ⟨fun h => ⟨next, rfl, h⟩, ?_⟩
    rintro ⟨_, hnext, h⟩
    cases hnext
    exact h
  | error e left =>
    refine ⟨fun h => (by cases h), ?_⟩
    rintro ⟨_, hnext, -⟩
    cases hnext

/-- A sequence fails at its first modifier that fails. -/
theorem sequence_eq_error_iff {modifiers : List Modifier} {workspace left : Workspace}
    {error : EditError} :
    sequence modifiers workspace = .error error left ↔
      ∃ before modifier after middle, modifiers = before ++ modifier :: after ∧
        sequence before workspace = .ok () middle ∧ modifier middle = .error error left := by
  constructor
  · intro h
    induction modifiers generalizing workspace with
    | nil => cases h
    | cons modifier rest ih =>
      rw [sequence_cons] at h
      cases hmodifier : modifier workspace with
      | ok _ next =>
        rw [hmodifier] at h
        obtain ⟨before, failing, after, middle, rfl, hbefore, hfailing⟩ := ih h
        refine ⟨modifier :: before, failing, after, middle, rfl, ?_, hfailing⟩
        exact sequence_cons_eq_ok_iff.2 ⟨next, hmodifier, hbefore⟩
      | error error' left' =>
        rw [hmodifier] at h
        cases h
        exact ⟨[], modifier, rest, workspace, rfl, rfl, hmodifier⟩
  · rintro ⟨before, modifier, after, middle, rfl, hbefore, hmodifier⟩
    rw [sequence_append, hbefore]
    show sequence (modifier :: after) middle = _
    rw [sequence_cons, hmodifier]

end Modifier

/-! ## Independent rules -/

/-- Rules that manage different slots and look at nothing but the path and the package. -/
structure Independent (rules : List OptionRule) : Prop where
  slots : (rules.map OptionRule.slot).Nodup
  isLocal : ∀ rule ∈ rules, rule.Local

/-- The file after rules were put into effect in it, one after the other. -/
def editedAll (rules : List OptionRule) (file : File) : File :=
  rules.foldl (fun file rule => rule.edited file) file

/-- The touches that rules leave in files. -/
def touchesAll (rules : List OptionRule) (files : List File) : List Touch :=
  rules.flatMap (·.touches files)

theorem editedAll_cons (rule : OptionRule) (rules : List OptionRule) (file : File) :
    editedAll (rule :: rules) file = editedAll rules (rule.edited file) := rfl

/-- Rules leave alone what is not in one of their slots. -/
theorem editedAll_frame (rules : List OptionRule) (file : File) :
    SlotFrame (rules.map OptionRule.slot) file (editedAll rules file) := by
  induction rules generalizing file with
  | nil => exact .refl [] file
  | cons rule rules ih => exact (rule.edited_frame file).trans (ih (rule.edited file))

theorem mem_touchesAll {rules : List OptionRule} {files : List File} {touch : Touch} :
    touch ∈ touchesAll rules files ↔
      ∃ rule ∈ rules, ∃ file ∈ files, rule.changes file = true ∧
        touch = file.slotTouch rule.slot := by
  simp only [touchesAll, List.mem_flatMap, OptionRule.mem_touches]

namespace OptionRule

variable {rule : OptionRule} {slots : List Slot} {file after : File}

/-- Edits of other slots do not decide whether a rule fails. -/
theorem Local.error?_frame (hlocal : rule.Local) (frame : SlotFrame slots file after)
    (h : rule.slot ∉ slots) : rule.error? after = rule.error? file :=
  hlocal.error?_eq frame.path_eq frame.packageName_eq (frame.readSlot_eq h)

/-- Edits of other slots do not decide whether a rule changes a file. -/
theorem Local.changes_frame (hlocal : rule.Local) (frame : SlotFrame slots file after)
    (h : rule.slot ∉ slots) : rule.changes after = rule.changes file :=
  hlocal.changes_eq frame.path_eq frame.packageName_eq (frame.readSlot_eq h)

/-- Edits of other slots in all files do not decide which touches a rule leaves. -/
theorem Local.touches_map (hlocal : rule.Local) {edit : File → File}
    (frame : ∀ file, SlotFrame slots file (edit file)) (h : rule.slot ∉ slots)
    (files : List File) : rule.touches (files.map edit) = rule.touches files := by
  induction files with
  | nil => rfl
  | cons file rest ih =>
    have htouch : rule.touchOf (edit file) = rule.touchOf file := by
      rw [touchOf, touchOf, hlocal.changes_frame (frame file) h, File.slotTouch,
        (frame file).path_eq, File.slotTouch]
    rw [List.map_cons, touches_cons, touches_cons, htouch, ih]

end OptionRule

namespace Independent

variable {rule : OptionRule} {rules : List OptionRule} {file : File}

theorem tail (h : Independent (rule :: rules)) : Independent rules :=
  ⟨(List.nodup_cons.1 h.slots).2, fun rule hmem => h.isLocal rule (List.mem_cons_of_mem _ hmem)⟩

theorem slot_ne (h : Independent (rule :: rules)) {other : OptionRule} (hmem : other ∈ rules) :
    other.slot ∉ [rule.slot] := by
  intro hslot
  refine (List.nodup_cons.1 h.slots).1 (List.mem_map.2 ⟨other, hmem, ?_⟩)
  exact List.mem_singleton.1 hslot

/-- What a rule makes of its slot is there after all rules were put into effect. -/
theorem stored_editedAll (h : Independent rules) (hmem : rule ∈ rules) :
    rule.slot.stored (editedAll rules file).optionsOrEmpty =
      rule.slot.stored (rule.edited file).optionsOrEmpty := by
  induction rules generalizing file with
  | nil => cases hmem
  | cons first rest ih =>
    rw [editedAll_cons]
    rcases List.mem_cons.1 hmem with rfl | hrest
    · exact (editedAll_frame rest _).others _ (List.nodup_cons.1 h.slots).1
    · have frame := first.edited_frame file
      have hother := h.slot_ne hrest
      have hlocal := h.isLocal rule hmem
      rw [ih h.tail hrest]
      -- the first rule left the slot as it was, so the other finds there what it would have found
      have hchanges := hlocal.changes_frame frame hother
      cases hrule : rule.changes file with
      | false =>
        rw [hrule] at hchanges
        rw [OptionRule.optionsOrEmpty_edited_of_not_changes hchanges,
          OptionRule.optionsOrEmpty_edited_of_not_changes hrule, frame.others _ hother]
      | true =>
        rw [hrule] at hchanges
        obtain ⟨value, hdemand⟩ := OptionRule.demand_of_changes hrule
        have hdemand' := (hlocal.demand_eq frame.path_eq frame.packageName_eq).trans hdemand
        rw [OptionRule.stored_edited_of_changes hdemand' hchanges,
          OptionRule.stored_edited_of_changes hdemand hrule]

/-- After all rules were put into effect a slot reads as it does after its own rule alone. -/
theorem readSlot_editedAll (h : Independent rules) (hmem : rule ∈ rules) :
    (editedAll rules file).readSlot rule.slot = (rule.edited file).readSlot rule.slot :=
  File.readSlot_congr (h.stored_editedAll hmem)

/-- Rules that do not fail make a block of options only where one of them changes something. -/
theorem isSome_editedAll_iff (h : Independent rules)
    (hok : ∀ rule ∈ rules, rule.error? file = none) :
    (editedAll rules file).options.isSome = true ↔
      file.options.isSome = true ∨ ∃ rule ∈ rules, rule.changes file = true := by
  induction rules generalizing file with
  | nil =>
    simp only [editedAll, List.foldl_nil, List.not_mem_nil, false_and, exists_false, or_false]
  | cons first rest ih =>
    have frame := first.edited_frame file
    have hrest : ∀ rule ∈ rest, rule.error? (first.edited file) = none := fun rule hmem =>
      ((h.tail.isLocal rule hmem).error?_frame frame (h.slot_ne hmem)).trans
        (hok rule (List.mem_cons_of_mem _ hmem))
    have hchanges : (∃ rule ∈ rest, rule.changes (first.edited file) = true) ↔
        ∃ rule ∈ rest, rule.changes file = true := by
      refine exists_congr fun rule => and_congr_right fun hmem => ?_
      rw [(h.tail.isLocal rule hmem).changes_frame frame (h.slot_ne hmem)]
    rw [editedAll_cons, ih h.tail hrest, hchanges]
    simp only [List.mem_cons, exists_eq_or_imp]
    cases hfirst : first.changes file with
    | true =>
      have hblock := OptionRule.isSome_edited_of_changes hfirst
      exact iff_of_true (.inl hblock) (.inr (.inl rfl))
    | false =>
      obtain hsame | ⟨hfailed, -⟩ := OptionRule.edited_of_not_changes hfirst
      · rw [hsame, or_iff_right Bool.false_ne_true]
      · exact absurd (hok first List.mem_cons_self) hfailed

end Independent

/-- The workspace after rules were put into effect in every file. -/
def appliedAll (rules : List OptionRule) (workspace : Workspace) : Workspace :=
  { workspace with
    image := ⟨workspace.image.files.map (editedAll rules)⟩
    sweeper := workspace.sweeper.touchAll (touchesAll rules workspace.image.files) }

/-- Independent rules succeed together if each of them, on its own, fails in no file. -/
theorem sequence_rules_eq_ok_iff {rules : List OptionRule} (h : Independent rules)
    {workspace done : Workspace} :
    Modifier.sequence (rules.map OptionRule.modifier) workspace = .ok () done ↔
      (∀ rule ∈ rules, ∀ file ∈ workspace.image.files, rule.error? file = none) ∧
        done = appliedAll rules workspace := by
  induction rules generalizing workspace with
  | nil =>
    have hkeep : editedAll [] = id := rfl
    simp only [List.map_nil, Modifier.sequence, appliedAll, hkeep, List.map_id_fun, id, touchesAll,
      List.flatMap_nil, Sweeper.touchAll_nil, List.not_mem_nil, false_imp_iff, implies_true,
      true_and, EStateM.Result.ok.injEq]
    exact eq_comm
  | cons rule rules ih =>
    have hframe := rule.edited_frame
    have herror : ∀ other ∈ rules, ∀ file, other.error? (rule.edited file) = other.error? file :=
      fun other hmem file =>
        (h.tail.isLocal other hmem).error?_frame (hframe file) (h.slot_ne hmem)
    have happlied : appliedAll rules (rule.applied workspace) =
        appliedAll (rule :: rules) workspace := by
      have htouches : touchesAll rules (workspace.image.files.map rule.edited) =
          touchesAll rules workspace.image.files :=
        List.flatMap_congr fun other hmem =>
          (h.tail.isLocal other hmem).touches_map hframe (h.slot_ne hmem) _
      simp only [appliedAll, OptionRule.applied, List.map_map, htouches, ← Sweeper.touchAll_append]
      rfl
    have hfiles : (∀ other ∈ rules, ∀ file ∈ (rule.applied workspace).image.files,
        other.error? file = none) ↔
        ∀ other ∈ rules, ∀ file ∈ workspace.image.files, other.error? file = none := by
      refine forall_congr' fun other => imp_congr_right fun hmem => ?_
      simp only [OptionRule.applied, List.forall_mem_map, herror other hmem]
    rw [List.map_cons, Modifier.sequence_cons_eq_ok_iff, List.forall_mem_cons]
    constructor
    · rintro ⟨next, hrule, hrest⟩
      obtain ⟨hok, rfl⟩ := OptionRule.modifier_eq_ok_iff.1 hrule
      obtain ⟨hothers, rfl⟩ := (ih h.tail).1 hrest
      exact ⟨⟨hok, hfiles.1 hothers⟩, happlied⟩
    · rintro ⟨⟨hok, hothers⟩, rfl⟩
      refine ⟨rule.applied workspace, OptionRule.modifier_of_ok hok, ?_⟩
      exact (ih h.tail).2 ⟨hfiles.2 hothers, happlied.symm⟩

end SchemaOptions
