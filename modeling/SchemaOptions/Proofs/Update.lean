import SchemaOptions.Proofs.Files
import SchemaOptions.Proofs.Reencoding

/-!
# What an update stores

An update compares before it writes, and what it compares is what the slot reads as. A number that
is no mode's reads as the mode `speed`. So an update that asks for `speed` takes such a number for
what it asks for and leaves it (`File.Mistakes`). In every other case an update that succeeds stores
exactly what it was asked to (`File.stored_update_iff`), and as an image is decoded from its bytes,
this is what the bytes hold (`Image.stored_after_update_iff`).
-/

namespace SchemaOptions

/-! ## Numbers of no mode -/

/-- Whether a number is that of no mode. -/
def OptimizeMode.IsUnknown (n : Int32) : Prop :=
  ∀ mode : OptimizeMode, mode.number ≠ n

/-- A number of no mode reads as one nevertheless. -/
theorem OptimizeMode.ofNumber_of_isUnknown {n : Int32} (h : IsUnknown n) : ofNumber n = .speed := by
  rw [ofNumber, if_neg (h .codeSize).symm, if_neg (h .liteRuntime).symm]

/-- Whether a slot of a file reads as a value because it holds a number of no mode. -/
def File.Mistakes (file : File) (slot : Slot) (value : Option OptionValue) : Prop :=
  slot = .optimizeFor ∧ value = some (.mode .speed) ∧
    ∃ n, file.optionsOrEmpty.optimizeFor = some n ∧ OptimizeMode.IsUnknown n

namespace File

variable {file : File} {slot : Slot} {value : Option OptionValue}

theorem Mistakes.readSlot_eq (h : file.Mistakes slot value) : file.readSlot slot = value := by
  obtain ⟨rfl, rfl, n, hn, hunknown⟩ := h
  rw [File.readSlot_eq, Slot.read, hn, Option.map_some, OptimizeMode.ofNumber_of_isUnknown hunknown]

/-- A slot that reads as a value holds this value, unless the file mistakes a number for it. -/
theorem stored_iff_of_readSlot (h : file.readSlot slot = value) :
    slot.stored file.optionsOrEmpty = value.map OptionValue.stored ↔ ¬file.Mistakes slot value := by
  rw [readSlot_eq] at h
  subst h
  cases slot with
  | text slot =>
    refine iff_of_true ?_ fun hmistakes => by cases hmistakes.1
    simp only [Slot.stored, Slot.read, Option.map_map]
    rfl
  | flag slot =>
    refine iff_of_true ?_ fun hmistakes => by cases hmistakes.1
    simp only [Slot.stored, Slot.read, Option.map_map]
    rfl
  | optimizeFor =>
    simp only [Slot.stored, Slot.read, Mistakes]
    cases file.optionsOrEmpty.optimizeFor with
    | none => exact iff_of_true rfl fun hmistakes => by cases hmistakes.2.1
    | some n =>
      simp only [Option.map_some, OptionValue.stored, Option.some.injEq, StoredValue.number.injEq]
      constructor
      · rintro hnumber ⟨-, -, _, rfl, hunknown⟩
        exact hunknown _ hnumber.symm
      · intro hknown
        by_contra hnumber
        -- a number of a mode would read as that mode, so this one is of none
        have hunknown : OptimizeMode.IsUnknown n := by
          rintro mode rfl
          exact hnumber (congrArg OptimizeMode.number (OptimizeMode.ofNumber_number mode)).symm
        refine hknown ⟨trivial, ?_, n, rfl, hunknown⟩
        rw [OptimizeMode.ofNumber_of_isUnknown hunknown]

/-- After an update that does not fail the slot holds what was asked for, unless the file mistook
a number for it. -/
theorem stored_update_iff (h : (file.update slot value).error? = none) :
    slot.stored ((file.update slot value).file file).optionsOrEmpty =
      value.map OptionValue.stored ↔ ¬file.Mistakes slot value := by
  cases heffect : file.update slot value with
  | kept =>
    have hread := readSlot_update h
    rw [heffect] at hread
    exact stored_iff_of_readSlot hread
  | changed after =>
    obtain ⟨hread, options, hwrite, rfl⟩ := update_eq_changed heffect
    exact iff_of_true (Slot.stored_write hwrite) fun hmistakes => hread hmistakes.readSlot_eq
  | failed error left =>
    rw [heffect] at h
    cases h

/-- An update leaves alone what it mistakes for the value. -/
theorem update_of_mistakes (h : file.Mistakes slot value) : file.update slot value = .kept :=
  if_pos h.readSlot_eq

end File

/-! ## Updates that succeed -/

/-- A successful update is an effect without an error. -/
theorem updateOption_eq_ok {slot : Slot} {value : Option OptionValue} {file after : File}
    {sweeper left : Sweeper} {changed : Bool}
    (h : updateOption slot value (file, sweeper) = .ok changed (after, left)) :
    (file.update slot value).error? = none ∧ after = (file.update slot value).file file ∧
      (file.update slot value = .kept → changed = false ∧ left = sweeper) := by
  rw [updateOption_eq] at h
  cases heffect : file.update slot value with
  | kept =>
    rw [heffect] at h
    cases h
    exact ⟨rfl, rfl, fun _ => ⟨rfl, rfl⟩⟩
  | changed =>
    rw [heffect] at h
    cases h
    exact ⟨rfl, rfl, fun hkept => by cases hkept⟩
  | failed =>
    rw [heffect] at h
    cases h

/-- A successful update of a file of an image puts the effect in its place. -/
theorem Modifier.update_eq_ok {index : Nat} {slot : Slot} {value : Option OptionValue}
    {workspace done : Workspace} {file : File} (hfile : workspace.image.files[index]? = some file)
    (h : Modifier.update index slot value workspace = .ok () done) :
    (file.update slot value).error? = none ∧
      done.image.files[index]? = some ((file.update slot value).file file) := by
  obtain ⟨hindex, -⟩ := List.getElem?_eq_some_iff.1 hfile
  simp only [Modifier.update, hfile] at h
  cases hupdate : updateOption slot value (file, workspace.sweeper) with
  | error e left =>
    rw [hupdate] at h
    cases h
  | ok changed state =>
    rw [hupdate] at h
    cases h
    obtain ⟨hok, hafter, -⟩ := updateOption_eq_ok hupdate
    exact ⟨hok, (List.getElem?_set_self hindex).trans (congrArg some hafter)⟩

/-- The rule of a mode asks for it in every file that is not well known. -/
theorem optimizeForRule_demand {file : File} (h : file.isWellKnown = false) (mode : OptimizeMode) :
    (optimizeForRule mode).demand file = .ok (some (some (.mode mode))) := by
  rw [OptionRule.demand, h]
  rfl

/-- After a rule that does not fail the slot holds what the rule asks for, unless the file mistook a
number for it. -/
theorem OptionRule.stored_edited_iff {rule : OptionRule} {file : File} {value : Option OptionValue}
    (hok : rule.error? file = none) (hdemand : rule.demand file = .ok (some value)) :
    rule.slot.stored (rule.edited file).optionsOrEmpty = value.map OptionValue.stored ↔
      ¬file.Mistakes rule.slot value := by
  simp only [error?, edited, effect, hdemand] at hok ⊢
  exact File.stored_update_iff hok

/-! ## The bytes of the image -/

/-- What a piece of work made of an image that was decoded is decoded from its bytes. -/
theorem Work.decode_encode_of_run {bytes : List UInt8} {image : Image}
    (himage : Image.decode bytes = .ok image) {sweeper : Sweeper} (work : Work) {done : Workspace}
    (hrun : work.run { image, sweeper } = .ok () done)
    (hsize : done.image.encode.length < 2 ^ 64) :
    Image.decode done.image.encode = .ok done.image := by
  obtain ⟨hfiles, hstorable⟩ := Image.storable_of_decode himage
  have hacts := leftBy_run work { image, sweeper }
  rw [hrun] at hacts
  have hdone : done = Act.replay (work.acts { image, sweeper }) { image, sweeper } := hacts
  refine Image.decode_encode ?_ ?_ hsize
  · rw [hdone]
    exact Act.ofFiles_replay hfiles _ sweeper
  · rw [hdone]
    exact Act.storable_replay hstorable _

namespace Image

/-- An update that succeeds stores exactly what it was asked to, unless it mistook a number of no
mode for the mode `speed`, in which case it does nothing. What is stored in a file of an image is
stored in the bytes of the image. So once a rule for the mode has gone through all files, the number
of the mode is in each of them that is not well known and did not hold a number of no mode. -/
theorem stored_after_update_iff {bytes : List UInt8} {image : Image}
    (himage : decode bytes = .ok image) (sweeper : Sweeper) :
    (∀ file after left slot value changed,
      updateOption slot value (file, sweeper) = .ok changed (after, left) →
      (slot.stored after.optionsOrEmpty = value.map OptionValue.stored ↔
        ¬file.Mistakes slot value) ∧
      (file.Mistakes slot value → changed = false ∧ after = file ∧ left = sweeper)) ∧
    (∀ index file slot value done, image.files[index]? = some file →
      Modifier.update index slot value { image, sweeper } = .ok () done →
      done.image.encode.length < 2 ^ 64 →
      ∃ reached after, decode done.image.encode = .ok reached ∧
        reached.files[index]? = some after ∧
        (slot.stored after.optionsOrEmpty = value.map OptionValue.stored ↔
          ¬file.Mistakes slot value)) ∧
    ∀ mode done, (optimizeForRule mode).modifier { image, sweeper } = .ok () done →
      done.image.encode.length < 2 ^ 64 →
      ∃ reached, decode done.image.encode = .ok reached ∧
        List.Forall₂ (fun file after => file.isWellKnown = false →
          (after.optionsOrEmpty.optimizeFor = some mode.number ↔
            ¬file.Mistakes .optimizeFor (some (.mode mode)))) image.files reached.files := by
  refine ⟨fun file after left slot value changed hupdate => ?_, ?_, ?_⟩
  · obtain ⟨hok, rfl, hkept⟩ := updateOption_eq_ok hupdate
    refine ⟨File.stored_update_iff hok, fun hmistakes => ?_⟩
    have heffect := File.update_of_mistakes hmistakes
    obtain ⟨hchanged, hleft⟩ := hkept heffect
    exact ⟨hchanged, by rw [heffect]; rfl, hleft⟩
  · intro index file slot value done hfile hrun hsize
    have hdecode := Work.decode_encode_of_run himage
      (.single (.make (.update index slot value))) hrun hsize
    obtain ⟨hok, hafter⟩ := Modifier.update_eq_ok hfile hrun
    exact ⟨done.image, _, hdecode, hafter, File.stored_update_iff hok⟩
  · intro mode done hrun hsize
    have hdecode := Work.decode_encode_of_run himage (.modify (optimizeForRule mode)) hrun hsize
    obtain ⟨hok, rfl⟩ := OptionRule.modifier_eq_ok_iff.1 hrun
    refine ⟨_, hdecode, List.forall₂_map_right_iff.2 (List.forall₂_same.2 ?_)⟩
    intro file hmem hknown
    have hstored :=
      OptionRule.stored_edited_iff (hok file hmem) (optimizeForRule_demand hknown mode)
    refine Iff.trans ⟨fun h => ?_, fun h => ?_⟩ hstored
    · exact congrArg (Option.map StoredValue.number) h
    · exact Option.map_injective (fun _ _ => StoredValue.number.inj) h

/-- A number of no mode makes way for `codeSize`, in the bytes too. -/
theorem stored_after_update_iff_codeSize :
    let bytes : List UInt8 := [10, 7, 10, 1, 97, 66, 2, 72, 99]
    let image : Image := ⟨[{ name := some "a", options := some { optimizeFor := some 99 } }]⟩
    decode bytes = .ok image ∧
    ∃ done, Modifier.update 0 .optimizeFor (some (.mode .codeSize)) { image } = .ok () done ∧
      ∃ reached after, decode done.image.encode = .ok reached ∧ reached.files[0]? = some after ∧
        after.optionsOrEmpty.optimizeFor = some 2 := by
  intro bytes image
  have himage : decode bytes = .ok image := by with_unfolding_all rfl
  obtain ⟨done, hrun, hdone⟩ : ∃ done : Workspace,
      Modifier.update 0 .optimizeFor (some (.mode .codeSize)) { image } = .ok () done ∧
        done.image = ⟨[{ name := some "a", options := some { optimizeFor := some 2 } }]⟩ :=
    ⟨_, rfl, rfl⟩
  have hsize : done.image.encode.length < 2 ^ 64 := by
    rw [hdone]
    decide +kernel
  obtain ⟨reached, after, hdecode, hafter, hstored⟩ :=
    (stored_after_update_iff himage Sweeper.empty).2.1 0 _ _ _ done rfl hrun hsize
  refine ⟨himage, done, hrun, reached, after, hdecode, hafter, ?_⟩
  have hnumber := hstored.2 fun hmistakes => by cases hmistakes.2.1
  exact Option.map_injective (fun _ _ => StoredValue.number.inj) hnumber

/-- The number 99 is taken for `speed`: neither an update nor a rule for this mode changes it, and
both succeed. -/
theorem not_stored_after_update :
    let file : File := { name := some "a.proto", options := some { optimizeFor := some 99 } }
    file.isWellKnown = false ∧
    updateOption .optimizeFor (some (.mode .speed)) (file, Sweeper.empty) =
      .ok false (file, Sweeper.empty) ∧
    (optimizeForRule .speed).modifier { image := ⟨[file]⟩ } = .ok () { image := ⟨[file]⟩ } ∧
    file.optionsOrEmpty.optimizeFor ≠ some OptimizeMode.speed.number := by
  refine ⟨rfl, rfl, rfl, ?_⟩
  decide

end Image

end SchemaOptions
