import SchemaOptions.Rule.Basic
import SchemaOptions.Proofs.Slot
import SchemaOptions.Proofs.Sweep

/-!
# The effect of an edit on one file

What an edit of a slot comes to depends on the file alone: nothing, another file, or an error and
the file that it leaves. The sweeper only notes the change. `updateOption_eq` and `editSlot_eq`
split the edits of `Edit.Basic` and `Edit.Modifier` into these two parts, and every later law is
about the effect.

Whatever the effect is, a file keeps everything but the slot at hand (`SlotFrame`). After an effect
that is no error the slot reads as it was asked to (`OptionRule.readSlot_edited`).
-/

namespace SchemaOptions

/-- What editing a slot of a file comes to. -/
inductive SlotEffect where
  | kept
  | changed (after : File)
  /-- The edit fails and leaves a file behind. -/
  | failed (error : EditError) (left : File)

namespace SlotEffect

/-- The file after the effect. -/
def file (before : File) : SlotEffect → File
  | .kept => before
  | .changed after => after
  | .failed _ left => left

/-- The error, if the effect is one. -/
def error? : SlotEffect → Option EditError
  | .failed error _ => some error
  | _ => none

/-- Whether the effect is a change that succeeded. -/
def isChange : SlotEffect → Bool
  | .changed _ => true
  | _ => false

/-- The result of an edit with the effect: a change leaves a touch. -/
def result (before : File) (touch : Touch) (sweeper : Sweeper) :
    SlotEffect → EStateM.Result EditError (File × Sweeper) Bool
  | .kept => .ok false (before, sweeper)
  | .changed after => .ok true (after, sweeper.touch touch)
  | .failed error left => .error error (left, sweeper)

end SlotEffect

/-! ## Reading -/

namespace File

/-- An absent block reads like an empty one. -/
theorem readSlot_eq (file : File) (slot : Slot) :
    file.readSlot slot = slot.read file.optionsOrEmpty := by
  unfold readSlot optionsOrEmpty
  cases file.options with
  | none => exact (slot.read_empty).symm
  | some options => rfl

/-- Files read alike in a slot that holds the same in both. -/
theorem readSlot_congr {file other : File} {slot : Slot}
    (h : slot.stored file.optionsOrEmpty = slot.stored other.optionsOrEmpty) :
    file.readSlot slot = other.readSlot slot := by
  rw [readSlot_eq, readSlot_eq, Slot.read_eq_stored, Slot.read_eq_stored, h]

/-- Making sure that a file has a block of options changes it only if it had none. -/
theorem optionsMade_cases (file : File) :
    file.options.isSome = true ∧ { file with options := some file.optionsOrEmpty } = file ∨
      file.options = none ∧ { file with options := some file.optionsOrEmpty } =
        { file with options := some FileOptions.empty } := by
  unfold optionsOrEmpty
  cases hoptions : file.options with
  | none => exact .inr ⟨rfl, rfl⟩
  | some options =>
    refine .inl ⟨rfl, ?_⟩
    rw [Option.getD_some, ← hoptions]

/-- Files with the same values have the same block, if both have one or neither does. -/
theorem options_eq {file other : File} (hvalues : file.optionsOrEmpty = other.optionsOrEmpty)
    (hblock : file.options.isSome = other.options.isSome) : file.options = other.options := by
  unfold optionsOrEmpty at hvalues
  cases hfile : file.options <;> cases hother : other.options <;>
    rw [hfile, hother] at hvalues hblock
  · cases hblock
  · cases hblock
  · exact congrArg some hvalues

end File

/-! ## Frames -/

/-- What edits of some slots do not change in a file, whether they succeed or fail. -/
structure SlotFrame (slots : List Slot) (before after : File) : Prop where
  declared : after = { before with options := after.options }
  unmanaged : after.optionsOrEmpty.unmanaged = before.optionsOrEmpty.unmanaged
  others : ∀ other ∉ slots,
    other.stored after.optionsOrEmpty = other.stored before.optionsOrEmpty
  block : before.options.isSome → after.options.isSome

namespace SlotFrame

variable {slots others : List Slot} {before after last : File}

theorem refl (slots : List Slot) (file : File) : SlotFrame slots file file :=
  ⟨rfl, rfl, fun _ _ => rfl, id⟩

theorem trans (first : SlotFrame slots before after) (second : SlotFrame others after last) :
    SlotFrame (slots ++ others) before last where
  declared := by
    rw [second.declared, first.declared]
  unmanaged := second.unmanaged.trans first.unmanaged
  others := fun other hother =>
    (second.others other fun h => hother (List.mem_append_right _ h)).trans
      (first.others other fun h => hother (List.mem_append_left _ h))
  block := second.block ∘ first.block

theorem path_eq (frame : SlotFrame slots before after) : after.path = before.path := by
  rw [frame.declared]
  rfl

theorem packageName_eq (frame : SlotFrame slots before after) :
    after.packageName = before.packageName := by
  rw [frame.declared]
  rfl

theorem sourceInfo_eq (frame : SlotFrame slots before after) :
    after.sourceInfo = before.sourceInfo := by
  rw [frame.declared]

theorem imports_eq (frame : SlotFrame slots before after) : after.imports = before.imports := by
  rw [frame.declared]

/-- Another slot reads as before. -/
theorem readSlot_eq (frame : SlotFrame slots before after) {other : Slot} (h : other ∉ slots) :
    after.readSlot other = before.readSlot other :=
  File.readSlot_congr (frame.others other h)

end SlotFrame

/-! ## Updating a slot -/

/-- What giving a slot of a file a value, or none, comes to. -/
def File.update (file : File) (slot : Slot) (value : Option OptionValue) : SlotEffect :=
  if file.readSlot slot = value then
    .kept
  else
    match slot.write value file.optionsOrEmpty with
    | .ok options => .changed { file with options := some options }
    | .error fault =>
      .failed (.file file.path (.slot fault)) { file with options := some file.optionsOrEmpty }

/-- An update is its effect on the file, and a touch for a change. -/
theorem updateOption_eq (slot : Slot) (value : Option OptionValue) (file : File)
    (sweeper : Sweeper) :
    updateOption slot value (file, sweeper) =
      (file.update slot value).result file (file.slotTouch slot) sweeper := by
  simp only [updateOption, File.update]
  split
  · rfl
  · cases value with
    | none => rfl
    | some value =>
      simp only [Slot.write]
      cases slot.store value file.optionsOrEmpty <;> rfl

namespace File

variable {file after : File} {slot : Slot} {value : Option OptionValue}

/-- Everything that a change by an update can be. -/
theorem update_eq_changed (h : file.update slot value = .changed after) :
    file.readSlot slot ≠ value ∧
      ∃ options, slot.write value file.optionsOrEmpty = .ok options ∧
        after = { file with options := some options } := by
  unfold update at h
  split at h
  · cases h
  · rename_i hread
    split at h
    · rename_i options hwrite
      cases h
      exact ⟨hread, options, hwrite, rfl⟩
    · cases h

/-- Everything that a failure of an update can be: at most an empty block is new. -/
theorem update_eq_failed {error : EditError} (h : file.update slot value = .failed error after) :
    file.readSlot slot ≠ value ∧
      ∃ fault, slot.refusal? value = some fault ∧ error = .file file.path (.slot fault) ∧
        after = { file with options := some file.optionsOrEmpty } := by
  unfold update at h
  split at h
  · cases h
  · rename_i hread
    rw [Slot.write_eq] at h
    cases hfault : slot.refusal? value with
    | none =>
      rw [hfault] at h
      cases h
    | some fault =>
      rw [hfault] at h
      cases h
      exact ⟨hread, fault, rfl, rfl, rfl⟩

theorem update_frame (file : File) (slot : Slot) (value : Option OptionValue) :
    SlotFrame [slot] file ((file.update slot value).file file) := by
  cases h : file.update slot value with
  | kept => exact .refl [slot] file
  | changed after =>
    obtain ⟨-, options, hwrite, rfl⟩ := update_eq_changed h
    exact ⟨rfl, Slot.unmanaged_write hwrite,
      fun other h => Slot.stored_write_of_ne (List.ne_of_not_mem_cons h) hwrite, fun _ => rfl⟩
  | failed error left =>
    obtain ⟨-, -, -, -, rfl⟩ := update_eq_failed h
    exact ⟨rfl, rfl, fun _ _ => rfl, fun _ => rfl⟩

/-- Whether an update fails, and with what, depends on the path, on what the slot reads as and on
the value. -/
theorem error?_update (file : File) (slot : Slot) (value : Option OptionValue) :
    (file.update slot value).error? =
      if file.readSlot slot = value then none
      else (slot.refusal? value).map fun fault => .file file.path (.slot fault) := by
  unfold update
  split
  · rfl
  · rw [Slot.write_eq]
    cases slot.refusal? value <;> rfl

/-- An update fails if the value is not there already and the slot refuses it. -/
theorem error?_update_eq_some_iff {error : EditError} :
    (file.update slot value).error? = some error ↔
      file.readSlot slot ≠ value ∧
        ∃ fault, slot.refusal? value = some fault ∧ error = .file file.path (.slot fault) := by
  rw [error?_update]
  split
  · rename_i hread
    exact iff_of_false nofun fun h => h.1 hread
  · rename_i hread
    rw [Option.map_eq_some_iff, and_iff_right hread]
    simp only [eq_comm]

/-- An update changes the file if it is asked for something else that the slot takes. -/
theorem isChange_update (file : File) (slot : Slot) (value : Option OptionValue) :
    (file.update slot value).isChange =
      (decide (file.readSlot slot ≠ value) && (slot.refusal? value).isNone) := by
  unfold update
  split
  · rename_i hread
    rw [decide_eq_false (not_not_intro hread)]
    rfl
  · rename_i hread
    rw [decide_eq_true hread, Slot.write_eq]
    cases slot.refusal? value <;> rfl

/-- After an update that does not fail the slot reads as it was asked to. -/
theorem readSlot_update (h : (file.update slot value).error? = none) :
    ((file.update slot value).file file).readSlot slot = value := by
  cases heffect : file.update slot value with
  | kept =>
    unfold update at heffect
    split at heffect
    · assumption
    · split at heffect <;> cases heffect
  | changed after =>
    obtain ⟨-, options, hwrite, rfl⟩ := update_eq_changed heffect
    rw [readSlot_eq]
    exact Slot.read_write hwrite
  | failed error left =>
    rw [heffect] at h
    cases h

end File

/-! ## Rules -/

/-- The value that an edit asks for, if it asks for one. -/
def OptionEdit.value? : OptionEdit → Option (Option OptionValue)
  | .keep => none
  | .set value => some (some value)
  | .clear => some none

namespace OptionRule

/-- The value that a rule asks for in a file, if it asks for one; it asks for none in a file that is
well known. -/
def demand (rule : OptionRule) (file : File) : Except EditError (Option (Option OptionValue)) :=
  if file.isWellKnown then .ok none else (rule.target file).map OptionEdit.value?

/-- What a rule comes to in a file. -/
def effect (rule : OptionRule) (file : File) : SlotEffect :=
  match rule.demand file with
  | .error error => .failed error file
  | .ok none => .kept
  | .ok (some value) => file.update rule.slot value

/-- The file after a rule was put into effect, or was tried to. -/
def edited (rule : OptionRule) (file : File) : File :=
  (rule.effect file).file file

/-- The error of a rule in a file, if it fails there. -/
def error? (rule : OptionRule) (file : File) : Option EditError :=
  (rule.effect file).error?

/-- Whether a rule changes a file. -/
def changes (rule : OptionRule) (file : File) : Bool :=
  (rule.effect file).isChange

/-- A file that is not well known is asked about. -/
theorem demand_of_managed {rule : OptionRule} {file : File} (managed : file.isWellKnown = false) :
    rule.demand file = (rule.target file).map OptionEdit.value? :=
  if_neg (Bool.eq_false_iff.1 managed)

/-- A rule fails where it cannot say what it asks for, or where the update that it asks for does. -/
theorem error?_eq (rule : OptionRule) (file : File) :
    rule.error? file =
      match rule.demand file with
      | .error error => some error
      | .ok none => none
      | .ok (some value) => (file.update rule.slot value).error? := by
  unfold error? effect
  cases rule.demand file with
  | error => rfl
  | ok value? => cases value? <;> rfl

/-- The edit by a rule is its effect on the file, and a touch for a change. -/
theorem editSlot_eq (rule : OptionRule) (file : File) (sweeper : Sweeper) :
    editSlot rule.slot rule.target (file, sweeper) =
      (rule.effect file).result file (file.slotTouch rule.slot) sweeper := by
  simp only [editSlot, effect, demand]
  split
  · rfl
  · cases rule.target file with
    | error error => rfl
    | ok edit => cases edit <;> first | rfl | exact updateOption_eq ..

theorem edited_frame (rule : OptionRule) (file : File) :
    SlotFrame [rule.slot] file (rule.edited file) := by
  unfold edited effect
  split
  · exact .refl [rule.slot] file
  · exact .refl [rule.slot] file
  · exact file.update_frame rule.slot _

/-- Once a rule was put into effect, the slot reads as the rule asks. -/
theorem readSlot_edited {rule : OptionRule} {file : File} {value : Option OptionValue}
    (hok : rule.error? file = none) (hdemand : rule.demand file = .ok (some value)) :
    (rule.edited file).readSlot rule.slot = value := by
  simp only [error?, edited, effect, hdemand] at hok ⊢
  exact File.readSlot_update hok

/-- Nothing stands against a text without a NUL character that a rule asks for. -/
theorem error?_ofText {slot : TextSlot} {text? : File → Option String} {file : File} {s : String}
    (managed : file.isWellKnown = false) (htext : text? file = some s)
    (hnul : '\x00' ∉ s.toList) :
    (ofText slot text?).error? file = none ∧
      (ofText slot text?).demand file = .ok (some (some (.text s))) := by
  have hdemand : (ofText slot text?).demand file = .ok (some (some (.text s))) := by
    rw [demand_of_managed managed]
    simp only [ofText, htext]
    rfl
  have hrefusal : (Slot.text slot).refusal? (some (.text s)) = none :=
    if_neg fun h => hnul (List.contains_iff_mem.1 h)
  refine ⟨?_, hdemand⟩
  rw [error?_eq, hdemand]
  show (file.update (.text slot) (some (.text s))).error? = none
  rw [File.error?_update, hrefusal, Option.map_none, ite_self]

/-- A rule that changes a file asks for a value in it. -/
theorem demand_of_changes {rule : OptionRule} {file : File} (h : rule.changes file = true) :
    ∃ value, rule.demand file = .ok (some value) := by
  unfold changes effect at h
  split at h
  · cases h
  · cases h
  · rename_i value hdemand
    exact ⟨value, hdemand⟩

/-- A rule that does not fail changes a file if it asks for something else than there is. -/
theorem changes_of_demand {rule : OptionRule} {file : File}
    {value? : Option (Option OptionValue)} (hok : rule.error? file = none)
    (hdemand : rule.demand file = .ok value?) :
    rule.changes file =
      (value?.filter fun value => decide (file.readSlot rule.slot ≠ value)).isSome := by
  simp only [error?, changes, effect, hdemand] at hok ⊢
  cases value? with
  | none => rfl
  | some value =>
    simp only [File.error?_update, File.isChange_update] at hok ⊢
    rw [Option.filter_some]
    by_cases hread : file.readSlot rule.slot = value
    · rw [decide_eq_false (not_not_intro hread)]
      rfl
    · rw [if_neg hread, Option.map_eq_none_iff] at hok
      rw [hok, decide_eq_true hread]
      rfl

/-- What a rule writes is what the field holds afterwards. -/
theorem stored_edited_of_changes {rule : OptionRule} {file : File} {value : Option OptionValue}
    (hdemand : rule.demand file = .ok (some value)) (h : rule.changes file = true) :
    rule.slot.stored (rule.edited file).optionsOrEmpty = value.map OptionValue.stored := by
  simp only [changes, edited, effect, hdemand] at h ⊢
  cases heffect : file.update rule.slot value with
  | kept => rw [heffect] at h; cases h
  | changed after =>
    obtain ⟨-, options, hwrite, rfl⟩ := File.update_eq_changed heffect
    exact Slot.stored_write hwrite
  | failed => rw [heffect] at h; cases h

/-- A file that was changed has a block of options. -/
theorem isSome_edited_of_changes {rule : OptionRule} {file : File} (h : rule.changes file = true) :
    (rule.edited file).options.isSome = true := by
  obtain ⟨value, hdemand⟩ := demand_of_changes h
  simp only [changes, edited, effect, hdemand] at h ⊢
  cases heffect : file.update rule.slot value with
  | kept => rw [heffect] at h; cases h
  | changed after =>
    obtain ⟨-, options, -, rfl⟩ := File.update_eq_changed heffect
    rfl
  | failed => rw [heffect] at h; cases h

/-- Where a rule changes nothing, there is at most an empty block of options that is new. -/
theorem edited_of_not_changes {rule : OptionRule} {file : File} (h : rule.changes file = false) :
    rule.edited file = file ∨ rule.error? file ≠ none ∧
      rule.edited file = { file with options := some file.optionsOrEmpty } := by
  unfold changes edited error? effect at *
  split at h
  · exact .inl rfl
  · exact .inl rfl
  · rename_i value _
    cases heffect : file.update rule.slot value with
    | kept => exact .inl rfl
    | changed => rw [heffect] at h; cases h
    | failed error left =>
      obtain ⟨-, -, -, -, rfl⟩ := File.update_eq_failed heffect
      exact .inr ⟨Option.some_ne_none error, rfl⟩

/-- Where a rule changes nothing, every option is as it was. -/
theorem optionsOrEmpty_edited_of_not_changes {rule : OptionRule} {file : File}
    (h : rule.changes file = false) :
    (rule.edited file).optionsOrEmpty = file.optionsOrEmpty := by
  obtain heq | ⟨-, heq⟩ := edited_of_not_changes h <;> rw [heq]
  rfl

/-- A rule that fails in a file does not change it. -/
theorem changes_of_error {rule : OptionRule} {file : File} {error : EditError}
    (h : rule.error? file = some error) : rule.changes file = false := by
  unfold error? changes at *
  cases heffect : rule.effect file with
  | kept => rfl
  | changed => rw [heffect] at h; cases h
  | failed => rfl

/-- Where a rule fails, at most an empty block of options is new. -/
theorem edited_of_error {rule : OptionRule} {file : File} {error : EditError}
    (h : rule.error? file = some error) :
    rule.edited file = file ∨
      file.options = none ∧ rule.edited file = { file with options := some FileOptions.empty } := by
  obtain heq | ⟨-, heq⟩ := edited_of_not_changes (changes_of_error h)
  · exact .inl heq
  · rw [heq]
    exact file.optionsMade_cases.imp_left And.right

/-- A change is a difference in what the slot reads as. -/
theorem readSlot_edited_ne_iff {rule : OptionRule} {file : File} :
    (rule.edited file).readSlot rule.slot ≠ file.readSlot rule.slot ↔
      rule.changes file = true := by
  cases h : rule.changes file with
  | false =>
    have hread : (rule.edited file).readSlot rule.slot = file.readSlot rule.slot := by
      rw [File.readSlot_eq, File.readSlot_eq, optionsOrEmpty_edited_of_not_changes h]
    exact iff_of_false (not_not_intro hread) Bool.false_ne_true
  | true =>
    refine iff_of_true ?_ rfl
    obtain ⟨value, hdemand⟩ := demand_of_changes h
    have hok : rule.error? file = none := by
      cases herror : rule.error? file with
      | none => rfl
      | some error => rw [changes_of_error herror] at h; cases h
    rw [readSlot_edited hok hdemand]
    simp only [changes, effect, hdemand, File.isChange_update, Bool.and_eq_true,
      decide_eq_true_eq] at h
    exact h.1.symm

/-! ## Rules that look at the path and the package -/

/-- Whether a rule looks at nothing of a file but its path and its package. -/
def Local (rule : OptionRule) : Prop :=
  ∀ file other : File, file.path = other.path → file.packageName = other.packageName →
    rule.target file = rule.target other

variable {rule : OptionRule} {file other : File}

theorem Local.demand_eq (hlocal : rule.Local) (hpath : file.path = other.path)
    (hpackage : file.packageName = other.packageName) : rule.demand file = rule.demand other := by
  have hknown : file.isWellKnown = other.isWellKnown := congrArg isWellKnownPath hpath
  rw [demand, demand, hknown, hlocal file other hpath hpackage]

/-- Two files with one path, one package and one reading of the slot are treated alike. -/
theorem Local.error?_eq (hlocal : rule.Local) (hpath : file.path = other.path)
    (hpackage : file.packageName = other.packageName)
    (hread : file.readSlot rule.slot = other.readSlot rule.slot) :
    rule.error? file = rule.error? other := by
  unfold error? effect
  rw [hlocal.demand_eq hpath hpackage]
  split
  · rfl
  · rfl
  · rw [File.error?_update, File.error?_update, hread, hpath]

theorem Local.changes_eq (hlocal : rule.Local) (hpath : file.path = other.path)
    (hpackage : file.packageName = other.packageName)
    (hread : file.readSlot rule.slot = other.readSlot rule.slot) :
    rule.changes file = rule.changes other := by
  unfold changes effect
  rw [hlocal.demand_eq hpath hpackage]
  split
  · rfl
  · rfl
  · rw [File.isChange_update, File.isChange_update, hread]

end OptionRule

end SchemaOptions
