import Mathlib.Data.List.Dedup
import Mathlib.Data.List.Sort
import SchemaOptions.Proofs.Checks
import SchemaOptions.Proofs.Work

/-!
# The number of touched files

A request prints how many files have other options than before. The sweeper knows the files in which
an option was changed. These are two ways to detect a change: the one compares whole blocks as
values, the other compares what a slot reads as with what it is to be. A block that holds a double
that is no number differs from itself, so the printed number counts the file of such a block in any
case. Apart from that the two agree (`Directory.touched_eq_iff`).
-/

namespace SchemaOptions

open SchemaOptions.Wire

/-! ## Records that differ from themselves -/

namespace Wire

mutual

/-- Whether a value holds, at any depth, a double that is not a number. -/
def Value.holdsNaN : Value → Bool
  | .double bits => isNotANumber bits
  | .record fields => Record.holdsNaN fields
  | _ => false

/-- Whether a record holds, at any depth, a double that is not a number. -/
def Record.holdsNaN : List (Nat × Value) → Bool
  | [] => false
  | (_, value) :: rest => value.holdsNaN || Record.holdsNaN rest

end

mutual

/-- A value agrees with itself unless it holds something that is not a number. -/
theorem Value.agrees_self (value : Value) : value.agrees value = !value.holdsNaN := by
  cases value with
  | double bits =>
    simp only [Value.agrees, doublesAgree, Value.holdsNaN, beq_self_eq_true, Bool.true_or,
      Bool.and_true, Bool.and_self]
  | record fields =>
    simp only [Value.agrees, Value.holdsNaN]
    exact Record.agrees_self fields
  | int32 | packed | bool | word | text | octets =>
    simp only [Value.agrees, Value.holdsNaN, beq_self_eq_true, Bool.not_false]

/-- A record agrees with itself unless it holds something that is not a number. -/
theorem Record.agrees_self (record : List (Nat × Value)) :
    Record.agrees record record = !Record.holdsNaN record := by
  cases record with
  | nil => rfl
  | cons field rest =>
    obtain ⟨tag, value⟩ := field
    simp only [Record.agrees, Record.holdsNaN, beq_self_eq_true, Bool.true_and, Bool.not_or]
    rw [Value.agrees_self value, Record.agrees_self rest]

end

/-- Values that agree are equal, or they are two doubles or two records. -/
theorem Value.cases_of_agrees {value other : Value} (h : value.agrees other = true) :
    value = other ∨ (∃ a b, value = .double a ∧ other = .double b) ∨
      ∃ fields fields', value = .record fields ∧ other = .record fields' := by
  cases value with
  | double a =>
    cases other with
    | double b => exact .inr (.inl ⟨a, b, rfl, rfl⟩)
    | _ => cases h
  | record fields =>
    cases other with
    | record fields' => exact .inr (.inr ⟨fields, fields', rfl, rfl⟩)
    | _ => cases h
  | _ =>
    cases other <;> first | cases h | skip
    simp only [Value.agrees, beq_iff_eq] at h
    exact .inl (congrArg _ h)

namespace Record

variable {record other : Record}

/-- In records that agree, the first values with a tag agree. -/
theorem lookup_of_agrees (h : Record.agrees record other = true) (tag : Nat) :
    (record.lookup tag = none ∧ other.lookup tag = none) ∨
      ∃ value value', record.lookup tag = some value ∧ other.lookup tag = some value' ∧
        value.agrees value' = true := by
  induction record generalizing other with
  | nil =>
    cases other with
    | nil => exact .inl ⟨rfl, rfl⟩
    | cons => cases h
  | cons field rest ih =>
    cases other with
    | nil => cases h
    | cons field' rest' =>
      obtain ⟨first, value⟩ := field
      obtain ⟨first', value'⟩ := field'
      simp only [Record.agrees, Bool.and_eq_true, beq_iff_eq] at h
      obtain ⟨⟨rfl, hvalues⟩, hrest⟩ := h
      simp only [List.lookup_cons]
      cases tag == first with
      | true => exact .inr ⟨value, value', rfl, rfl, hvalues⟩
      | false => exact ih hrest

theorem text?_of_agrees (h : Record.agrees record other = true) (tag : Nat) :
    record.text? tag = other.text? tag := by
  unfold text?
  obtain ⟨hnone, hnone'⟩ | ⟨value, value', hsome, hsome', hagree⟩ := lookup_of_agrees h tag
  · rw [hnone, hnone']
  · rw [hsome, hsome']
    obtain rfl | ⟨_, _, rfl, rfl⟩ | ⟨_, _, rfl, rfl⟩ := Value.cases_of_agrees hagree <;> rfl

theorem bool?_of_agrees (h : Record.agrees record other = true) (tag : Nat) :
    record.bool? tag = other.bool? tag := by
  unfold bool?
  obtain ⟨hnone, hnone'⟩ | ⟨value, value', hsome, hsome', hagree⟩ := lookup_of_agrees h tag
  · rw [hnone, hnone']
  · rw [hsome, hsome']
    obtain rfl | ⟨_, _, rfl, rfl⟩ | ⟨_, _, rfl, rfl⟩ := Value.cases_of_agrees hagree <;> rfl

theorem int32?_of_agrees (h : Record.agrees record other = true) (tag : Nat) :
    record.int32? tag = other.int32? tag := by
  unfold int32?
  obtain ⟨hnone, hnone'⟩ | ⟨value, value', hsome, hsome', hagree⟩ := lookup_of_agrees h tag
  · rw [hnone, hnone']
  · rw [hsome, hsome']
    obtain rfl | ⟨_, _, rfl, rfl⟩ | ⟨_, _, rfl, rfl⟩ := Value.cases_of_agrees hagree <;> rfl

end Record

end Wire

/-! ## Blocks and files -/

/-- Blocks that agree hold the same in every slot. -/
theorem FileOptions.stored_of_agrees {options others : FileOptions}
    (h : options.agrees others = true) (slot : Slot) :
    slot.stored options = slot.stored others := by
  have hrecords : ∀ record other : Record, Record.agrees record other = true →
      slot.stored (ofRecord record) = slot.stored (ofRecord other) := by
    intro record other hagree
    cases slot with
    | text field =>
      refine congrArg (Option.map StoredValue.text) ?_
      cases field <;> exact Record.text?_of_agrees hagree _
    | flag field =>
      refine congrArg (Option.map StoredValue.flag) ?_
      cases field <;> exact Record.bool?_of_agrees hagree _
    | optimizeFor =>
      exact congrArg (Option.map StoredValue.number) (Record.int32?_of_agrees hagree 9)
  have hslot := hrecords options.toRecord others.toRecord h
  rwa [ofRecord_toRecord, ofRecord_toRecord] at hslot

/-- Whether the options of a file hold a double that is not a number. -/
def File.holdsNaN (file : File) : Bool :=
  file.options.any fun options => Record.holdsNaN options.toRecord

/-- A file has the options that it has unless they hold something that is not a number. -/
theorem File.sameOptions_self (file : File) : file.sameOptions file = !file.holdsNaN := by
  unfold sameOptions holdsNaN
  cases file.options with
  | none => rfl
  | some options =>
    rw [Option.any_some, ← Record.agrees_self]
    rfl

/-- Files with the same options hold the same in every slot. -/
theorem File.stored_of_sameOptions {file other : File} (h : file.sameOptions other = true)
    (slot : Slot) : slot.stored file.optionsOrEmpty = slot.stored other.optionsOrEmpty := by
  unfold sameOptions at h
  unfold optionsOrEmpty
  cases hfile : file.options with
  | none =>
    cases hother : other.options with
    | none => rfl
    | some others =>
      rw [hfile, hother] at h
      cases h
  | some options =>
    cases hother : other.options with
    | none =>
      rw [hfile, hother] at h
      cases h
    | some others =>
      rw [hfile, hother] at h
      have hagree : options.agrees others = true := h
      exact FileOptions.stored_of_agrees hagree slot

namespace Config

variable {config : Config} {file after : File}

/-- Whether a configuration writes to some slot of a file. -/
def writes (config : Config) (file : File) : Bool :=
  Slot.all.any fun slot => (config.change? file slot).isSome

theorem writes_iff :
    config.writes file = true ↔ ∃ slot, (config.change? file slot).isSome = true := by
  rw [writes, List.any_eq_true]
  exact exists_congr fun slot => and_iff_right slot.mem_all

theorem change?_of_not_writes (h : config.writes file = false) (slot : Slot) :
    config.change? file slot = none := by
  refine Option.not_isSome_iff_eq_none.1 fun hsome => ?_
  rw [writes_iff.2 ⟨slot, hsome⟩] at h
  cases h

/-- A file to which nothing is written is left as it is. -/
theorem managed_of_not_writes (h : config.writes file = false) : config.managed file = file := by
  have hkeep : (List.filter fun location => !config.outdates file location) = id := by
    refine funext fun locations => List.filter_eq_self.2 fun location _ => ?_
    rw [Bool.not_eq_true', outdates, List.any_eq_false]
    intro slot _
    rw [change?_of_not_writes h slot]
    exact Bool.false_ne_true
  have hnone : (Slot.all.any fun slot => (config.change? file slot).isSome) = false := h
  simp only [managed, hkeep, Option.map_id_fun, id, hnone, Bool.false_eq_true, if_false]

/-- What is written to a slot is not what the slot held. -/
theorem Manages.stored_ne (h : config.Manages file after) {slot : Slot}
    (hwrites : (config.change? file slot).isSome = true) :
    slot.stored after.optionsOrEmpty ≠ slot.stored file.optionsOrEmpty := by
  obtain ⟨value, hchange⟩ := Option.isSome_iff_exists.1 hwrites
  obtain ⟨-, -, hread⟩ := change?_eq_some hchange
  intro hsame
  refine hread ?_
  rw [File.readSlot_eq, Slot.read_eq_stored, ← hsame, h.changed slot value hchange, Option.map_map]
  cases value with
  | none => rfl
  | some value => exact congrArg some value.reading_stored

/-- A file has other options after a pass exactly if something was written to it or if it differs
from itself. -/
theorem not_sameOptions_managed (hok : file.isWellKnown = false → ¬config.Refuses file) :
    (!file.sameOptions (config.managed file)) = (config.writes file || file.holdsNaN) := by
  cases hwrites : config.writes file with
  | false =>
    rw [managed_of_not_writes hwrites, File.sameOptions_self, Bool.not_not, Bool.false_or]
  | true =>
    obtain ⟨slot, hsome⟩ := writes_iff.1 hwrites
    have hmanages := manages_managed hok
    cases hsame : file.sameOptions (config.managed file) with
    | false => rfl
    | true =>
      exact absurd (File.stored_of_sameOptions hsame slot).symm (hmanages.stored_ne hsome)

end Config

/-! ## The files that the sweeper knows -/

theorem nodup_eraseDups (names : List String) : names.eraseDups.Nodup := by
  cases names with
  | nil => exact List.nodup_nil
  | cons first rest =>
    rw [List.eraseDups_cons, List.nodup_cons]
    refine ⟨?_, nodup_eraseDups (rest.filter fun name => !name == first)⟩
    rw [List.mem_eraseDups, List.mem_filter]
    rintro ⟨-, hne⟩
    rw [beq_self_eq_true] at hne
    cases hne
termination_by names.length
decreasing_by exact Nat.lt_succ_of_le (List.length_filter_le ..)

namespace Sweeper

theorem mem_touchedFiles {sweeper : Sweeper} {path : String} :
    path ∈ sweeper.touchedFiles ↔ ∃ touch ∈ sweeper.touches, touch.file = path := by
  rw [touchedFiles, List.mem_mergeSort, List.mem_eraseDups, List.mem_map]

theorem nodup_touchedFiles (sweeper : Sweeper) : sweeper.touchedFiles.Nodup :=
  (List.mergeSort_perm ..).nodup_iff.2 (nodup_eraseDups _)

end Sweeper

namespace Config

variable {config : Config} {rules : List OptionRule} {files : List File}

/-- The rules of a configuration change a file exactly if the configuration writes to it. -/
theorem exists_changes_iff {file : File} (hrules : config.rules = .ok rules)
    (hok : ∀ rule ∈ rules, rule.error? file = none) :
    (∃ rule ∈ rules, rule.changes file = true) ↔ config.writes file = true := by
  rw [writes_iff]
  constructor
  · rintro ⟨rule, hmem, hchanges⟩
    exact ⟨rule.slot, (changes_of_ok hrules hmem (hok rule hmem)).symm.trans hchanges⟩
  · rintro ⟨slot, hsome⟩
    obtain ⟨value, hchange⟩ := Option.isSome_iff_exists.1 hsome
    obtain ⟨-, htarget, -⟩ := change?_eq_some hchange
    have henables : config.enables slot = true := by
      by_contra hnot
      rw [target_of_not_enables (Bool.eq_false_iff.2 hnot)] at htarget
      cases htarget
    obtain ⟨rule, hmem, rfl⟩ := (exists_rule_iff hrules).2 henables
    exact ⟨rule, hmem, (changes_of_ok hrules hmem (hok rule hmem)).trans hsome⟩

/-- Before the sweep of a pass, the touched files are those to which the configuration writes. -/
theorem perm_touchedFiles (hrules : config.rules = .ok rules)
    (hpaths : (files.map File.path).Nodup)
    (hok : ∀ file ∈ files, ∀ rule ∈ rules, rule.error? file = none) :
    (noted rules files).touchedFiles.Perm ((files.filter config.writes).map File.path) := by
  have hkept : ((files.filter config.writes).map File.path).Nodup :=
    hpaths.sublist (List.filter_sublist.map _)
  refine (List.perm_ext_iff_of_nodup (noted rules files).nodup_touchedFiles hkept).2 fun path => ?_
  simp only [Sweeper.mem_touchedFiles, noted, Sweeper.mem_touches_touchAll, mem_touchesAll,
    Sweeper.touches_empty, List.not_mem_nil, or_false, List.mem_map, List.mem_filter]
  constructor
  · rintro ⟨_, ⟨rule, hrule, file, hfile, hchanges, rfl⟩, rfl⟩
    exact ⟨file, ⟨hfile, (exists_changes_iff hrules (hok file hfile)).1 ⟨rule, hrule, hchanges⟩⟩,
      rfl⟩
  · rintro ⟨file, ⟨hfile, hwrites⟩, rfl⟩
    obtain ⟨rule, hrule, hchanges⟩ := (exists_changes_iff hrules (hok file hfile)).2 hwrites
    exact ⟨_, ⟨rule, hrule, file, hfile, hchanges, rfl⟩, rfl⟩

end Config

/-! ## The count -/

/-- What has one of two properties is counted by the first, and by the second where the first does
not hold. -/
theorem countP_or {α : Type} (p q : α → Bool) (entries : List α) :
    (entries.countP fun entry => p entry || q entry) =
      entries.countP p + entries.countP fun entry => q entry && !p entry := by
  induction entries with
  | nil => rfl
  | cons entry rest ih =>
    simp only [List.countP_cons, ih]
    cases p entry <;> cases q entry <;> simp <;> omega

/-- The number of touched files is that of the files that have other options. -/
theorem Image.touched_map (image : Image) (edit : File → File) :
    image.touched ⟨image.files.map edit⟩ =
      image.files.countP fun file => !file.sameOptions (edit file) := by
  have hpairs : image.files.zip (image.files.map edit) =
      image.files.map fun file => (file, edit file) := List.map_prod_left_eq_zip.symm
  rw [touched, hpairs, List.countP_map]
  rfl

namespace Config

variable {config : Config} {rules : List OptionRule} {files : List File} {file : File}

/-- A file of the image is touched exactly if the configuration writes to it. -/
theorem mem_touchedFiles_noted (hrules : config.rules = .ok rules)
    (hpaths : (files.map File.path).Nodup)
    (hok : ∀ file ∈ files, ∀ rule ∈ rules, rule.error? file = none) (hmem : file ∈ files) :
    file.path ∈ (noted rules files).touchedFiles ↔ config.writes file = true := by
  rw [(perm_touchedFiles hrules hpaths hok).mem_iff, List.mem_map]
  constructor
  · rintro ⟨other, hother, hpath⟩
    obtain ⟨hfile, hwrites⟩ := List.mem_filter.1 hother
    rwa [Image.eq_of_path_eq hpaths hfile hmem hpath] at hwrites
  · intro hwrites
    exact ⟨file, List.mem_filter.2 ⟨hmem, hwrites⟩, rfl⟩

/-- The files that have other options after a pass are the touched ones and, besides, those that
differ from themselves. -/
theorem touched_managed (hrules : config.rules = .ok rules)
    (hpaths : (files.map File.path).Nodup)
    (hok : ∀ file ∈ files, ∀ rule ∈ rules, rule.error? file = none) :
    (⟨files⟩ : Image).touched ⟨files.map config.managed⟩ =
      (noted rules files).touchedFiles.length + files.countP fun file =>
        file.holdsNaN && !(noted rules files).touchedFiles.contains file.path := by
  have hpass : ∀ file ∈ files, (!file.sameOptions (config.managed file)) =
      (config.writes file || file.holdsNaN) := fun file hmem =>
    not_sameOptions_managed ((forall_error?_eq_none_iff hrules file).1 (hok file hmem))
  have htouched : ∀ file ∈ files, (noted rules files).touchedFiles.contains file.path =
      config.writes file := by
    intro file hmem
    rw [Bool.eq_iff_iff, List.contains_iff_mem]
    exact mem_touchedFiles_noted hrules hpaths hok hmem
  have hcount : (files.countP fun file => !file.sameOptions (config.managed file)) =
      files.countP fun file => config.writes file || file.holdsNaN :=
    List.countP_congr fun file hmem => by rw [hpass file hmem]
  have hothers : (files.countP fun file =>
      file.holdsNaN && !(noted rules files).touchedFiles.contains file.path) =
      files.countP fun file => file.holdsNaN && !config.writes file :=
    List.countP_congr fun file hmem => by rw [htouched file hmem]
  rw [Image.touched_map, hcount, hothers, countP_or, List.countP_eq_length_filter,
    (perm_touchedFiles hrules hpaths hok).length_eq, List.length_map]

/-- The two numbers are equal exactly if every file that differs from itself is touched. -/
theorem touched_eq_length_iff (hrules : config.rules = .ok rules)
    (hpaths : (files.map File.path).Nodup)
    (hok : ∀ file ∈ files, ∀ rule ∈ rules, rule.error? file = none) :
    (⟨files⟩ : Image).touched ⟨files.map config.managed⟩ =
        (noted rules files).touchedFiles.length ↔
      ∀ file ∈ files, file.holdsNaN = true → file.path ∈ (noted rules files).touchedFiles := by
  rw [touched_managed hrules hpaths hok, Nat.add_eq_left, List.countP_eq_zero]
  refine forall₂_congr fun file _ => ?_
  rw [Bool.and_eq_true, Bool.not_eq_true', not_and, Bool.not_eq_false, List.contains_iff_mem]

/-- No file is touched exactly if the pass leaves all of them as they are. -/
theorem touchedFiles_eq_nil_iff (hrules : config.rules = .ok rules)
    (hpaths : (files.map File.path).Nodup)
    (hok : ∀ file ∈ files, ∀ rule ∈ rules, rule.error? file = none) :
    (noted rules files).touchedFiles = [] ↔ files.map config.managed = files := by
  constructor
  · intro hnone
    refine (List.map_congr_left fun file hmem => ?_).trans (List.map_id files)
    refine managed_of_not_writes (Bool.eq_false_iff.2 fun hwrites => ?_)
    have htouched := (mem_touchedFiles_noted hrules hpaths hok hmem).2 hwrites
    rw [hnone] at htouched
    cases htouched
  · intro hsame
    refine List.eq_nil_iff_forall_not_mem.2 fun path htouched => ?_
    obtain ⟨file, hfile, rfl⟩ :=
      List.mem_map.1 ((perm_touchedFiles hrules hpaths hok).mem_iff.1 htouched)
    obtain ⟨hmem, hwrites⟩ := List.mem_filter.1 hfile
    obtain ⟨slot, hsome⟩ := writes_iff.1 hwrites
    have hmanages := manages_managed ((forall_error?_eq_none_iff hrules file).1 (hok file hmem))
    have hkept : config.managed file = file :=
      List.map_inj_left.1 (hsame.trans (List.map_id files).symm) file hmem
    exact hmanages.stored_ne hsome (by rw [hkept])

end Config

/-! ## The calls before the sweep -/

/-- A rule makes no sweep. -/
theorem OptionRule.sweep_not_mem_calls (rule : OptionRule) (index : Nat) (files : List File) :
    Call.sweep ∉ rule.calls index files := by
  induction files generalizing index with
  | nil => exact List.not_mem_nil
  | cons file rest ih =>
    rw [calls]
    cases rule.demand file with
    | error e => exact List.not_mem_nil
    | ok value? =>
      cases value? with
      | none => exact ih (index + 1)
      | some value =>
        intro hmem
        rcases List.mem_cons.1 hmem with heq | hrest
        · cases heq
        · split at hrest
          · cases hrest
          · exact ih (index + 1) hrest

namespace Operation

/-- The rules of a pass make no sweep. -/
theorem sweep_not_mem_callsAll (rules : List OptionRule) (workspace : Workspace) :
    Call.sweep ∉ callsAll (rules.map .modify) workspace := by
  induction rules generalizing workspace with
  | nil => exact List.not_mem_nil
  | cons rule rest ih =>
    rw [List.map_cons, callsAll]
    intro hmem
    rcases List.mem_append.1 hmem with hfirst | hrest
    · exact rule.sweep_not_mem_calls 0 _ hfirst
    · split at hrest
      · exact ih _ hrest
      · cases hrest

/-- The rules of a pass leave what their calls leave. -/
theorem leftBy_rules (rules : List OptionRule) (workspace : Workspace) :
    leftBy (Modifier.sequence (rules.map OptionRule.modifier) workspace) =
      Call.replay (callsAll (rules.map .modify) workspace) workspace := by
  have hrunners : runners (rules.map .modify) = (rules.map OptionRule.modifier).map .step := by
    induction rules with
    | nil => rfl
    | cons rule rest ih => exact congrArg _ ih
  rw [← leftBy_runAll, hrunners, Runner.runAll_map_step]

end Operation

/-- Among events without a sweep all are since the last sweep. -/
theorem Event.sinceSweep_of_not_mem {events : List Event} (h : Event.swept ∉ events) :
    Event.sinceSweep events = events := by
  refine List.rtakeWhile_eq_self_iff.2 fun event hmem => decide_eq_true ?_
  rintro rfl
  exact h hmem

/-- Calls without a sweep have no event that is one. -/
theorem Call.swept_not_mem_events {calls : List Call} (h : Call.sweep ∉ calls)
    (workspace : Workspace) : Event.swept ∉ Call.events calls workspace := by
  induction calls generalizing workspace with
  | nil => exact List.not_mem_nil
  | cons call rest ih =>
    intro hmem
    rcases List.mem_cons.1 hmem with hfirst | hrest
    · exact h (Call.event_eq_swept_iff.1 hfirst.symm ▸ List.mem_cons_self)
    · exact ih (fun hmem => h (List.mem_cons_of_mem _ hmem)) _ hrest

/-- Rules of a pass that go through touch the files in which one of their updates is a change. -/
theorem Config.mem_touchedFiles_iff {rules : List OptionRule} {before : Image} {ready : Workspace}
    (h : Modifier.sequence (rules.map OptionRule.modifier) { image := before } = .ok () ready)
    (path : String) :
    path ∈ ready.sweeper.touchedFiles ↔ ∃ slot, Event.changed path slot ∈
      Call.events (Operation.callsAll (rules.map .modify) { image := before })
        { image := before } := by
  let calls := Operation.callsAll (rules.map .modify) { image := before }
  have hready : ready = Call.replay calls { image := before } := by
    rw [← Operation.leftBy_rules, h]
    rfl
  have hsince : Event.sinceSweep (Call.events calls { image := before }) = _ :=
    Event.sinceSweep_of_not_mem
      (Call.swept_not_mem_events (Operation.sweep_not_mem_callsAll rules _) _)
  have htouches (touch : Touch) : touch ∈ ready.sweeper.touches ↔ ∃ path slot,
      .changed path slot ∈ Call.events calls { image := before } ∧
        touch = ⟨path, slot.path, .exact⟩ := by
    rw [hready, Call.mem_touches_replay_iff rfl, hsince]
  rw [Sweeper.mem_touchedFiles]
  constructor
  · rintro ⟨touch, hmem, rfl⟩
    obtain ⟨path, slot, hchanged, rfl⟩ := (htouches touch).1 hmem
    exact ⟨slot, hchanged⟩
  · rintro ⟨slot, hchanged⟩
    exact ⟨_, (htouches _).2 ⟨path, slot, hchanged, rfl⟩, rfl⟩

/-! ## What a request prints -/

/-- The number that a request prints is that of the files that the sweeper knows before it sweeps,
which are those that an update changed; and besides, that of the files that differ from themselves
and are not touched. So the two numbers are equal exactly if every file that differs from itself is
touched. No file is touched exactly if the pass leaves the image as it is. -/
theorem Directory.touched_eq_iff {around : Surroundings} {directory after : Directory around}
    {request : Modification} {text : String}
    (h : directory.run (.modify request) = (.success text, after)) :
    ∃ config rules before ready done, request.Succeeds directory config before done after ∧
      config.rules = .ok rules ∧
      Modifier.sequence (rules.map OptionRule.modifier) { image := before } = .ok () ready ∧
      Modifier.sweep ready = .ok () done ∧
      text = s!"Files: {done.image.size}\nTouched: {before.touched done.image}\n" ∧
      before.touched done.image = ready.sweeper.touchedFiles.length +
        (before.files.countP fun file =>
          file.holdsNaN && !ready.sweeper.touchedFiles.contains file.path) ∧
      (before.touched done.image = ready.sweeper.touchedFiles.length ↔
        ∀ file ∈ before.files, file.holdsNaN = true →
          file.path ∈ ready.sweeper.touchedFiles) ∧
      ready.sweeper.touchedFiles.Nodup ∧
      (∀ path, path ∈ ready.sweeper.touchedFiles ↔ ∃ slot, Event.changed path slot ∈
        Call.events (Operation.callsAll (rules.map .modify) { image := before })
          { image := before }) ∧
      (ready.sweeper.touchedFiles = [] ↔ done.image = before) := by
  obtain ⟨config, before, done, last, hsucceeds, hrun⟩ | ⟨check, error, -, hrun⟩ :=
    run_modify_cases directory request
  · rw [h] at hrun
    cases hrun
    obtain ⟨content, -, hdecode⟩ := hsucceeds.image
    obtain ⟨modifiers, hbuild, hpass⟩ := hsucceeds.pass
    obtain ⟨rules, hrules, rfl⟩ := Config.build_eq_ok_iff.1 hbuild
    obtain ⟨files⟩ := before
    obtain ⟨-, -, hpaths, -⟩ := Image.ofFiles_eq_ok_iff.1 (Image.storable_of_decode hdecode).1
    obtain ⟨hok, hdone⟩ := (Config.sequence_build_eq_ok_iff hrules files done).1 hpass
    have hready : Modifier.sequence (rules.map OptionRule.modifier) { image := ⟨files⟩ } =
        .ok () (appliedAll rules { image := ⟨files⟩ }) :=
      (sequence_rules_eq_ok_iff (Config.independent_rules hrules)).2
        ⟨fun rule hrule file hmem => hok file hmem rule hrule, rfl⟩
    have hsweep : Modifier.sweep (appliedAll rules { image := ⟨files⟩ }) = .ok () done := by
      rw [hdone]
      simp only [Modifier.sweep, appliedAll, Sweeper.sweepImage, List.map_map]
      rfl
    have himage : done.image = ⟨files.map config.managed⟩ :=
      congrArg Image.mk ((Config.pass_spec (Image.storable_of_decode hdecode).1 hbuild).2 done
        hpass).1
    refine ⟨config, rules, ⟨files⟩, _, done, hsucceeds, hrules, hready, hsweep, rfl, ?_, ?_,
      Sweeper.nodup_touchedFiles _, Config.mem_touchedFiles_iff hready, ?_⟩
    · rw [himage]
      exact Config.touched_managed hrules hpaths hok
    · rw [himage]
      exact Config.touched_eq_length_iff hrules hpaths hok
    · rw [himage, Image.mk.injEq]
      exact Config.touchedFiles_eq_nil_iff hrules hpaths hok
  · rw [h] at hrun
    cases hrun

/-- A file with a Go package and a custom option that is not a number. -/
def fileWithNaN (goPackage : String) : File where
  name := some "a"
  options := some { goPackage := some goPackage, custom := [[(6, .double 0x7FF8000000000000)]] }

/-- The file is to get another Go package. So it is touched, and counted once. -/
theorem Directory.touched_eq_iff_goPackage :
    let bytes : List UInt8 := [10, 20, 10, 1, 97, 66, 15, 90, 1, 120, 186, 62, 9, 49, 0, 0, 0, 0, 0,
      0, 248, 127]
    let directory : Directory .bare := ⟨[("in", bytes)], ()⟩
    let request : Modification := { image := "in", output := "out", importPrefix? := some "y" }
    ∃ after text, directory.run (.modify request) = (.success text, after) ∧
      ∃ (config : Config) (before : Image) (ready done : Workspace),
        request.Succeeds directory config before done after ∧
        (∀ file ∈ before.files, file.holdsNaN = true) ∧ ready.sweeper.touchedFiles.length = 1 ∧
        before.touched done.image = 1 := by
  intro bytes directory request
  have hbytes : (directory.entryAt request.image).bytes? = some bytes := by decide
  have hdecode : Image.decode bytes = .ok ⟨[fileWithNaN "x"]⟩ := by with_unfolding_all rfl
  have happly : (request.adjust Config.default).apply ⟨[fileWithNaN "x"]⟩ =
      .ok ⟨[fileWithNaN "y"]⟩ := by rfl
  obtain ⟨modifiers, done, hbuild, hpass, himage⟩ := Config.apply_eq_ok_iff.1 happly
  have hlength : done.image.encode.length ≤ maxContent := by
    rw [himage]
    decide +kernel
  have hname : Surroundings.bare.destination request.output = .name "out" := by decide
  obtain ⟨after, hwrite⟩ : ∃ after,
      directory.write? request.output done.image.encode = some after :=
    ⟨_, write?_of_name hname hlength⟩
  have hsucceeds : request.Succeeds directory _ ⟨[fileWithNaN "x"]⟩ done after :=
    ⟨⟨Config.default, rfl, rfl⟩, by rfl, by rfl, ⟨bytes, hbytes, hdecode⟩, ⟨_, hbuild, hpass⟩,
      hwrite⟩
  have hrun := run_modify_of_succeeds hsucceeds
  obtain ⟨config, rules, before, ready, done', hparts, -, -, -, -, hcount, -, -, -, hnone⟩ :=
    touched_eq_iff hrun
  obtain ⟨rfl, rfl, -⟩ := hsucceeds.unique hparts
  have hone : Image.touched ⟨[fileWithNaN "x"]⟩ done.image = 1 := by
    rw [himage]
    rfl
  have htouched : ready.sweeper.touchedFiles ≠ [] := by
    rw [Ne, hnone, himage]
    intro hsame
    have hpackage : [some "y"] = [some "x"] :=
      congrArg (fun image => image.files.map fun file => file.optionsOrEmpty.goPackage) hsame
    exact absurd hpackage (by decide)
  have hlong : 0 < ready.sweeper.touchedFiles.length := List.length_pos_iff.2 htouched
  refine ⟨after, _, hrun, config, _, ready, done, hparts, ?_, by omega, hone⟩
  intro file hmem
  cases List.mem_singleton.1 hmem
  rfl

/-- The file has the Go package that it is to have: nothing is touched and nothing changes, but one
file is counted. -/
theorem Directory.not_touched_eq :
    let bytes : List UInt8 := [10, 20, 10, 1, 97, 66, 15, 90, 1, 120, 186, 62, 9, 49, 0, 0, 0, 0, 0,
      0, 248, 127]
    let directory : Directory .bare := ⟨[("in", bytes)], ()⟩
    let request : Modification := { image := "in", output := "out", importPrefix? := some "x" }
    let after : Directory .bare := ⟨[("out", bytes), ("in", bytes)], ()⟩
    ∃ (config : Config) (before : Image) (rules : List OptionRule) (ready done : Workspace),
      request.Succeeds directory config before done after ∧ config.rules = .ok rules ∧
      Modifier.sequence (rules.map OptionRule.modifier) { image := before } = .ok () ready ∧
      ready.sweeper.touchedFiles = [] ∧ done.image = before ∧
      directory.run (.modify request) = (.success s!"Files: {1}\nTouched: {1}\n", after) := by
  intro bytes directory request after
  have hbytes : (directory.entryAt request.image).bytes? = some bytes := by decide
  have hdecode : Image.decode bytes = .ok ⟨[fileWithNaN "x"]⟩ := by with_unfolding_all rfl
  have happly : (request.adjust Config.default).apply ⟨[fileWithNaN "x"]⟩ =
      .ok ⟨[fileWithNaN "x"]⟩ := by rfl
  obtain ⟨modifiers, done, hbuild, hpass, himage⟩ := Config.apply_eq_ok_iff.1 happly
  obtain ⟨rules, hrules, rfl⟩ := Config.build_eq_ok_iff.1 hbuild
  obtain ⟨hok, -⟩ := (Config.sequence_build_eq_ok_iff hrules [fileWithNaN "x"] done).1 hpass
  have hencode : done.image.encode = bytes := by
    rw [himage]
    decide +kernel
  have hwrite : directory.write? request.output done.image.encode = some after := by
    rw [hencode]
    exact write?_of_name (by decide) (by decide)
  have hsucceeds : request.Succeeds directory _ ⟨[fileWithNaN "x"]⟩ done after :=
    ⟨⟨Config.default, rfl, rfl⟩, by rfl, by rfl, ⟨bytes, hbytes, hdecode⟩, ⟨_, hbuild, hpass⟩,
      hwrite⟩
  have hready : Modifier.sequence (rules.map OptionRule.modifier)
      { image := ⟨[fileWithNaN "x"]⟩ } = .ok () (appliedAll rules
        { image := ⟨[fileWithNaN "x"]⟩ }) :=
    (sequence_rules_eq_ok_iff (Config.independent_rules hrules)).2
      ⟨fun rule hrule other hmem => hok other hmem rule hrule, rfl⟩
  have hmanaged : [fileWithNaN "x"].map (request.adjust Config.default).managed =
      [fileWithNaN "x"] := by
    have hspec := Config.pass_spec (Image.storable_of_decode hdecode).1 hbuild
    rw [← (hspec.2 done hpass).1, himage]
  refine ⟨_, _, rules, _, done, hsucceeds, hrules, hready, ?_, himage, ?_⟩
  · have hpaths : ([fileWithNaN "x"].map File.path).Nodup := List.nodup_singleton _
    exact (Config.touchedFiles_eq_nil_iff hrules hpaths hok).2 hmanaged
  · rw [run_modify_of_succeeds hsucceeds, himage]
    rfl

end SchemaOptions
