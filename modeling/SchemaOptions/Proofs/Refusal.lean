import SchemaOptions.Proofs.Effect

/-!
# What a refused update leaves

An update fails if the slot refuses the value, and then nothing is stored and nothing is touched.
But the block of options is made before the slot is asked. So a file that had no block has an empty
one afterwards, and a refused update leaves everything as it was exactly if the file had a block
(`updateOption_eq_self_iff`).
-/

namespace SchemaOptions

variable {slot : Slot} {value : Option OptionValue} {file after : File} {sweeper left : Sweeper}
  {error : EditError}

/-- Everything that a failure of an update can be: the slot refuses a value that it does not hold
already, the file has a block of options made for it, and the sweeper is not told. -/
theorem updateOption_eq_error_iff :
    updateOption slot value (file, sweeper) = .error error (after, left) ↔
      file.readSlot slot ≠ value ∧
        (∃ fault, slot.refusal? value = some fault ∧ error = .file file.path (.slot fault)) ∧
        after = { file with options := some file.optionsOrEmpty } ∧ left = sweeper := by
  rw [updateOption_eq]
  constructor
  · intro h
    cases heffect : file.update slot value with
    | kept =>
      rw [heffect] at h
      cases h
    | changed =>
      rw [heffect] at h
      cases h
    | failed fault kept =>
      rw [heffect] at h
      cases h
      obtain ⟨hread, fault, hfault, rfl, rfl⟩ := File.update_eq_failed heffect
      exact ⟨hread, ⟨fault, hfault, rfl⟩, rfl, rfl⟩
  · rintro ⟨hread, ⟨fault, hfault, rfl⟩, rfl, rfl⟩
    rw [File.update, if_neg hread, Slot.write_eq, hfault]
    rfl

/-- A refused update leaves the sweeper and all values as they were, and it leaves the file as it
was exactly if the file had a block of options; otherwise an empty block is new. -/
theorem updateOption_eq_self_iff
    (h : updateOption slot value (file, sweeper) = .error error (after, left)) :
    ((after, left) = (file, sweeper) ↔ file.options.isSome = true) ∧ left = sweeper ∧
      (∀ other, after.readSlot other = file.readSlot other) ∧
      (file.options = none → after = { file with options := some FileOptions.empty }) := by
  obtain ⟨-, -, rfl, rfl⟩ := updateOption_eq_error_iff.1 h
  obtain ⟨hblock, hsame⟩ | ⟨hnone, hempty⟩ := file.optionsMade_cases
  · rw [hsame]
    refine ⟨iff_of_true rfl hblock, rfl, fun _ => rfl, fun hnone => ?_⟩
    rw [hnone] at hblock
    cases hblock
  · refine ⟨iff_of_false (fun hsame => ?_) ?_, rfl, fun other => ?_, fun _ => hempty⟩
    · have hoptions := congrArg File.options (Prod.mk.inj hsame).1
      rw [hnone] at hoptions
      cases hoptions
    · rw [hnone]
      exact Bool.false_ne_true
    · rw [File.readSlot_eq, File.readSlot_eq]
      rfl

/-- A file whose block is empty but present is left as it was by a value of the wrong kind, and so
is a sweeper with a touch of the file. -/
theorem updateOption_eq_self_iff_wrongKind :
    let file : File := { name := some "a.proto", options := some {} }
    let touched := Sweeper.empty.touch (file.slotTouch (.flag .ccEnableArenas))
    ∃ error after left,
      updateOption (.text .goPackage) (some (.flag true)) (file, touched) =
        .error error (after, left) ∧ (after, left) = (file, touched) := by
  intro file touched
  have hupdate : updateOption (.text .goPackage) (some (.flag true)) (file, touched) =
      .error (.file "a.proto" (.slot (.wrongKind (.text .goPackage) (.flag true))))
        (file, touched) := rfl
  exact ⟨_, _, _, hupdate, (updateOption_eq_self_iff hupdate).1.2 rfl⟩

/-- A text with a NUL character is refused, and the file, which had no block of options, has an
empty one afterwards. -/
theorem not_updateOption_eq_self :
    let file : File := { name := some "a.proto" }
    let after : File := { file with options := some {} }
    updateOption (.text .javaPackage) (some (.text "com\x00")) (file, Sweeper.empty) =
      .error (.file "a.proto" (.slot (.containsNul (.text .javaPackage))))
        (after, Sweeper.empty) ∧
      file.options = none ∧ after.options = some {} ∧ after ≠ file := by
  intro file after
  refine ⟨rfl, rfl, rfl, fun hsame => ?_⟩
  cases congrArg File.options hsame

end SchemaOptions
