import SchemaOptions.Proofs.Image
import SchemaOptions.Proofs.Target

/-!
# What a pass does to an image

A pass is a number of rules, one after the other over all files, and a sweep at the end. What it
comes to is nevertheless a function of the configuration and of one file (`Config.managed`): each
slot of the file for which the configuration asks something else than it reads as is written, and
the locations of these slots go. `Config.Manages` says this property by property and determines the
file (`Config.Manages.unique`).

A pass fails only because of a file that the configuration refuses (`Config.Refuses`), and then for
one of two reasons: the path of the file cannot be part of an import path, or a text that is to be
written holds a NUL character.
-/

namespace SchemaOptions

namespace Config

/-- What a configuration writes to a slot of a file: a value, or none; nothing if it leaves the slot
alone, because it asks for nothing or because the slot reads as it asks. -/
def change? (config : Config) (file : File) (slot : Slot) : Option (Option OptionValue) :=
  if file.isWellKnown then none
  else
    (config.target slot file.path file.packageName).value?.filter
      fun value => decide (file.readSlot slot ≠ value)

/-- Whether a location is that of a slot to which a configuration writes. -/
def outdates (config : Config) (file : File) (location : Location) : Bool :=
  Slot.all.any fun slot => (config.change? file slot).isSome && location.path == slot.path

/-- The file that a pass makes of a file. -/
def managed (config : Config) (file : File) : File :=
  { file with
    options :=
      if Slot.all.any fun slot => (config.change? file slot).isSome then
        some (file.optionsOrEmpty.rewrite (config.change? file) Slot.all)
      else file.options
    sourceInfo := file.sourceInfo.map (List.filter fun location => !config.outdates file location) }

/-- Whether a pass cannot go through because of a file that is not well known. -/
def Refuses (config : Config) (file : File) : Prop :=
  (config.enables (.text .goPackage) = true ∧ (pathFault? file.path).isSome) ∨
  ∃ slot s, config.enables slot = true ∧
    config.target slot file.path file.packageName = .set (.text s) ∧
    '\x00' ∈ s.toList ∧ file.readSlot slot ≠ some (.text s)

/-- What a pass makes of a file, property by property. -/
structure Manages (config : Config) (before after : File) : Prop where
  /-- Nothing changes but the options and the locations. -/
  declared : after =
    { before with options := after.options, sourceInfo := after.sourceInfo }
  /-- A slot to which the configuration writes holds what it asks for. -/
  changed : ∀ slot value, config.change? before slot = some value →
    slot.stored after.optionsOrEmpty = value.map OptionValue.stored
  /-- Any other slot holds what it held. -/
  kept : ∀ slot, config.change? before slot = none →
    slot.stored after.optionsOrEmpty = slot.stored before.optionsOrEmpty
  /-- So does every field that is not managed. -/
  unmanaged : after.optionsOrEmpty.unmanaged = before.optionsOrEmpty.unmanaged
  /-- A block of options is new only if something was written. -/
  block : after.options.isSome = true ↔
    before.options.isSome = true ∨ ∃ slot, (config.change? before slot).isSome = true
  /-- The locations stay in order, without those of the slots that were written. -/
  locations : after.sourceInfo =
    before.sourceInfo.map (List.filter fun location => !config.outdates before location)

variable {config : Config} {file before after other : File}

/-- The properties determine the file. -/
theorem Manages.unique (first : config.Manages before after)
    (second : config.Manages before other) : after = other := by
  have hslots (slot : Slot) :
      slot.stored after.optionsOrEmpty = slot.stored other.optionsOrEmpty := by
    cases hchange : config.change? before slot with
    | none => rw [first.kept slot hchange, second.kept slot hchange]
    | some value => rw [first.changed slot value hchange, second.changed slot value hchange]
  have hvalues : after.optionsOrEmpty = other.optionsOrEmpty :=
    FileOptions.eq_of_stored (first.unmanaged.trans second.unmanaged.symm) hslots
  have hblock : after.options.isSome = other.options.isSome :=
    Bool.eq_iff_iff.2 (first.block.trans second.block.symm)
  rw [first.declared, second.declared, File.options_eq hvalues hblock, first.locations,
    second.locations]

/-- Nothing is written to a well-known file. -/
theorem change?_of_isWellKnown (h : file.isWellKnown = true) (slot : Slot) :
    config.change? file slot = none :=
  if_pos h

theorem change?_eq_some {slot : Slot} {value : Option OptionValue}
    (h : config.change? file slot = some value) :
    file.isWellKnown = false ∧
      (config.target slot file.path file.packageName).value? = some value ∧
      file.readSlot slot ≠ value := by
  unfold change? at h
  split at h
  · cases h
  · rename_i hknown
    obtain ⟨htarget, hread⟩ := Option.filter_eq_some_iff.1 h
    exact ⟨Bool.eq_false_iff.2 hknown, htarget, of_decide_eq_true hread⟩

/-- A slot takes what is written to it, unless the configuration refuses the file. -/
theorem refusal?_of_change? (hok : ¬config.Refuses file) {slot : Slot} {value : Option OptionValue}
    (h : config.change? file slot = some value) : slot.refusal? value = none := by
  obtain ⟨-, htarget, hread⟩ := change?_eq_some h
  cases value with
  | none => cases slot <;> rfl
  | some value =>
    have hset : config.target slot file.path file.packageName = .set value := by
      cases hedit : config.target slot file.path file.packageName <;> rw [hedit] at htarget <;>
        cases htarget
      rfl
    refine Option.not_isSome_iff_eq_none.1 fun hrefused => hok (.inr ?_)
    obtain ⟨s, rfl, hnul⟩ := (Slot.refusal?_isSome_iff (kind_of_target hset)).1 hrefused
    refine ⟨slot, s, ?_, hset, hnul, hread⟩
    cases henables : config.enables slot with
    | true => rfl
    | false =>
      rw [target_of_not_enables henables] at hset
      cases hset

/-- The reference has the properties that it is to have. -/
theorem manages_managed (hok : file.isWellKnown = false → ¬config.Refuses file) :
    config.Manages file (config.managed file) := by
  have hvalues : (config.managed file).optionsOrEmpty =
      file.optionsOrEmpty.rewrite (config.change? file) Slot.all ∨
      (config.managed file).optionsOrEmpty = file.optionsOrEmpty ∧
        ∀ slot, config.change? file slot = none := by
    simp only [managed, File.optionsOrEmpty]
    split
    · exact .inl rfl
    · rename_i hnone
      refine .inr ⟨rfl, ?_⟩
      intro slot
      refine Option.not_isSome_iff_eq_none.1 fun hsome => hnone ?_
      exact List.any_eq_true.2 ⟨slot, slot.mem_all, hsome⟩
  refine ⟨rfl, fun slot value hchange => ?_, fun slot hchange => ?_, ?_, ?_, rfl⟩
  · have htakes := refusal?_of_change? (hok (change?_eq_some hchange).1) hchange
    obtain heq | ⟨-, hnone⟩ := hvalues
    · rw [heq]
      exact FileOptions.stored_rewrite_of_some Slot.nodup_all slot.mem_all hchange htakes _
    · rw [hnone slot] at hchange
      cases hchange
  · obtain heq | ⟨heq, -⟩ := hvalues
    · rw [heq, FileOptions.stored_rewrite_of_none hchange]
    · rw [heq]
  · obtain heq | ⟨heq, -⟩ := hvalues
    · rw [heq, FileOptions.unmanaged_rewrite]
    · rw [heq]
  · have hany : (Slot.all.any fun slot => (config.change? file slot).isSome) = true ↔
        ∃ slot, (config.change? file slot).isSome = true := by
      rw [List.any_eq_true]
      exact exists_congr fun slot => and_iff_right slot.mem_all
    rw [← hany]
    simp only [managed]
    split
    · rename_i hsome
      exact iff_of_true rfl (.inr hsome)
    · rename_i hnone
      exact (or_iff_left hnone).symm

/-- A pass does not change a well-known file. -/
theorem managed_of_isWellKnown (h : file.isWellKnown = true) : config.managed file = file := by
  have hnone (slot : Slot) : config.change? file slot = none := change?_of_isWellKnown h slot
  have hkeep : (List.filter fun location => !config.outdates file location) = id := by
    refine funext fun locations => List.filter_eq_self.2 fun location _ => ?_
    rw [Bool.not_eq_true', outdates, List.any_eq_false]
    intro slot _
    rw [hnone slot]
    exact Bool.false_ne_true
  simp only [managed, hkeep, Option.map_id_fun, id, hnone, Option.isSome_none]
  rfl

end Config

end SchemaOptions
