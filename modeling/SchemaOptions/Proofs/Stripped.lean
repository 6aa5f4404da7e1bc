import SchemaOptions.Proofs.Frame
import SchemaOptions.Proofs.Pass
import SchemaOptions.Proofs.RuleOrder

/-!
# Work without source code information

Nothing that is done to an image depends on its source code information, unless a rule or a check
from outside asks for it (`Work.Blind`); the rules of the library do not
(`OptionRule.Standard.blind`). So dropping the information first and working then is the same as
working first and dropping it then: an update (`updateOption_stripped`), a rule over all files
(`OptionRule.Blind.modifier`), a sweep, a pass and whatever is nested of them
(`Work.run_stripped`), each with the same errors and the same sweeper. `Work.reports_stripped` tells
this of work in turn.
-/

namespace SchemaOptions

/-- A result with what it leaves turned into something else. -/
def withLeft {σ τ α : Type} (turn : σ → τ) :
    EStateM.Result EditError σ α → EStateM.Result EditError τ α
  | .ok a left => .ok a (turn left)
  | .error e left => .error e (turn left)

theorem leftBy_withLeft {σ τ α : Type} (turn : σ → τ) (result : EStateM.Result EditError σ α) :
    leftBy (withLeft turn result) = turn (leftBy result) := by
  cases result <;> rfl

/-- The workspace whose image has lost its source code information. -/
def Workspace.stripped (workspace : Workspace) : Workspace :=
  { workspace with image := workspace.image.stripSourceInfo }

/-- Whether a modifier does the same without source code information: it fails or not, with the
same error, and what it leaves differs in nothing but that information. -/
def Modifier.Blind (modifier : Modifier) : Prop :=
  ∀ workspace, modifier workspace.stripped = withLeft Workspace.stripped (modifier workspace)

/-- Whether a rule does not look at source code information. -/
def OptionRule.Blind (rule : OptionRule) : Prop :=
  ∀ file : File, rule.target file.stripSourceInfo = rule.target file

/-- No rule of the library looks at source code information. -/
theorem OptionRule.Standard.blind {rule : OptionRule} (h : rule.Standard) : rule.Blind :=
  fun file => h.isLocal file.stripSourceInfo file rfl rfl

/-! ## One file -/

/-- A file and the sweeper, the file without its source code information. -/
def strippedFile : File × Sweeper → File × Sweeper :=
  fun (file, sweeper) => (file.stripSourceInfo, sweeper)

/-- An update of a file does not ask for source code information. -/
theorem updateOption_stripped (slot : Slot) (value : Option OptionValue) (file : File)
    (sweeper : Sweeper) :
    updateOption slot value (file.stripSourceInfo, sweeper) =
      withLeft strippedFile (updateOption slot value (file, sweeper)) := by
  have hread : file.stripSourceInfo.readSlot slot = file.readSlot slot := rfl
  have hoptions : file.stripSourceInfo.optionsOrEmpty = file.optionsOrEmpty := rfl
  rw [updateOption_eq, updateOption_eq, File.update, File.update, hread, hoptions]
  split
  · rfl
  · cases slot.write value file.optionsOrEmpty <;> rfl

/-- An edit by a rule does not ask for source code information either. -/
theorem OptionRule.Blind.editSlot {rule : OptionRule} (h : rule.Blind) (file : File)
    (sweeper : Sweeper) :
    editSlot rule.slot rule.target (file.stripSourceInfo, sweeper) =
      withLeft strippedFile (SchemaOptions.editSlot rule.slot rule.target (file, sweeper)) := by
  have hknown : file.stripSourceInfo.isWellKnown = file.isWellKnown := rfl
  simp only [SchemaOptions.editSlot, hknown, h file]
  split
  · rfl
  · cases rule.target file with
    | error e => rfl
    | ok edit =>
      cases edit with
      | keep => rfl
      | set value => exact updateOption_stripped ..
      | clear => exact updateOption_stripped ..

/-! ## All files -/

/-- What is true of the edit of one file is true of the edit of all. -/
theorem editFiles_stripped {α : Type} {edit : Edit (File × Sweeper) α}
    (h : ∀ file sweeper, edit (file.stripSourceInfo, sweeper) =
      withLeft strippedFile (edit (file, sweeper)))
    (files : List File) (sweeper : Sweeper) :
    editFiles edit (files.map File.stripSourceInfo) sweeper =
      withLeft (fun (files, sweeper) => (files.map File.stripSourceInfo, sweeper))
        (editFiles edit files sweeper) := by
  induction files generalizing sweeper with
  | nil => rfl
  | cons file rest ih =>
    rw [List.map_cons, editFiles, editFiles, h]
    cases edit (file, sweeper) with
    | error e left => rfl
    | ok a left =>
      obtain ⟨edited, shared⟩ := left
      simp only [withLeft, strippedFile, ih]
      cases editFiles edit rest shared <;> rfl

theorem OptionRule.Blind.modifier {rule : OptionRule} (h : rule.Blind) :
    Modifier.Blind rule.modifier := by
  intro workspace
  have hfiles := editFiles_stripped h.editSlot workspace.image.files workspace.sweeper
  have himage : workspace.stripped.image.files = workspace.image.files.map File.stripSourceInfo :=
    rfl
  have hsweeper : workspace.stripped.sweeper = workspace.sweeper := rfl
  simp only [OptionRule.modifier, modifyOption, Image.forEachFile, himage, hsweeper, hfiles]
  cases editFiles (SchemaOptions.editSlot rule.slot rule.target) workspace.image.files
    workspace.sweeper <;> rfl

/-! ## Acts -/

theorem Modifier.update_blind (index : Nat) (slot : Slot) (value : Option OptionValue) :
    Modifier.Blind (Modifier.update index slot value) := by
  intro workspace
  have himage : workspace.stripped.image.files = workspace.image.files.map File.stripSourceInfo :=
    rfl
  have hsweeper : workspace.stripped.sweeper = workspace.sweeper := rfl
  simp only [Modifier.update, himage, hsweeper, List.getElem?_map]
  cases workspace.image.files[index]? with
  | none => rfl
  | some file =>
    simp only [Option.map_some, updateOption_stripped]
    have hset (new : File) : (workspace.image.files.map File.stripSourceInfo).set index
        new.stripSourceInfo = (workspace.image.files.set index new).map File.stripSourceInfo :=
      List.map_set.symm
    cases updateOption slot value (file, workspace.sweeper) with
    | ok changed left => simp only [withLeft, strippedFile, hset]; rfl
    | error e left => simp only [withLeft, strippedFile, hset]; rfl

/-- A sweep has nothing to remove where there is no source code information. -/
theorem Modifier.sweep_blind : Modifier.Blind Modifier.sweep := by
  intro workspace
  have hsweep : workspace.sweeper.sweepImage workspace.image.stripSourceInfo =
      (workspace.sweeper.sweepImage workspace.image).stripSourceInfo := by
    simp only [Sweeper.sweepImage, Image.stripSourceInfo, List.map_map]
    rfl
  show EStateM.Result.ok () _ = EStateM.Result.ok () _
  simp only [Workspace.stripped, hsweep]

/-- No act looks at source code information, not even one that drops it. -/
theorem Act.blind (act : Act) : Modifier.Blind act.modifier := by
  cases act with
  | make call =>
    cases call with
    | update index slot value => exact Modifier.update_blind index slot value
    | sweep => exact Modifier.sweep_blind
  | note touch => exact fun _ => rfl
  | take sweeper => exact fun _ => rfl
  | strip => exact fun _ => rfl
  | stripFile path =>
    intro workspace
    have hstrip : workspace.image.stripSourceInfo.stripFile path =
        (workspace.image.stripFile path).stripSourceInfo := by
      simp only [Image.stripFile, Image.stripSourceInfo, List.map_map]
      refine congrArg Image.mk (List.map_congr_left fun file _ => ?_)
      show (if file.path = path then _ else _) =
        File.stripSourceInfo (if file.path = path then _ else _)
      split <;> rfl
    show EStateM.Result.ok () _ = EStateM.Result.ok () _
    simp only [Workspace.stripped, hstrip]

/-! ## Passes and runners -/

/-- Blind modifiers are blind one after the other. -/
theorem Modifier.sequence_blind {modifiers : List Modifier}
    (h : ∀ modifier ∈ modifiers, Modifier.Blind modifier) :
    Modifier.Blind (Modifier.sequence modifiers) := by
  induction modifiers with
  | nil => exact fun _ => rfl
  | cons modifier rest ih =>
    obtain ⟨hfirst, hrest⟩ := List.forall_mem_cons.1 h
    intro workspace
    rw [Modifier.sequence_cons, Modifier.sequence_cons, hfirst workspace]
    cases modifier workspace with
    | ok _ next => exact ih hrest next
    | error e left => rfl

/-- The pass of a configuration is blind, whether or not it can be put into effect. -/
theorem Config.pass_blind (config : Config) : Modifier.Blind config.pass := by
  intro workspace
  unfold Config.pass
  cases hbuild : config.build with
  | error e => rfl
  | ok modifiers =>
    obtain ⟨rules, hrules, rfl⟩ := Config.build_eq_ok_iff.1 hbuild
    refine Modifier.sequence_blind (fun modifier hmem => ?_) workspace
    rcases List.mem_append.1 hmem with hfirst | hsweep
    · obtain ⟨rule, hrule, rfl⟩ := List.mem_map.1 hfirst
      exact (Config.standard_rules hrules rule hrule).blind.modifier
    · rw [List.mem_singleton.1 hsweep]
      exact Modifier.sweep_blind

namespace Work

mutual

/-- Whether no rule and no check within a piece of work looks at source code information. -/
def Blind : Work → Prop
  | .single _ => True
  | .modify rule => rule.Blind
  | .pass _ => True
  | .check fault? => ∀ workspace : Workspace, fault? workspace.stripped = fault? workspace
  | .nested works => AllBlind works

/-- Whether none of some pieces of work looks at source code information. -/
def AllBlind : List Work → Prop
  | [] => True
  | work :: rest => work.Blind ∧ AllBlind rest

end

mutual

/-- A blind piece of work does the same without source code information. -/
theorem run_stripped (work : Work) (h : work.Blind) : Modifier.Blind work.run := by
  cases work with
  | single act => exact act.blind
  | modify rule => exact OptionRule.Blind.modifier h
  | pass config => exact config.pass_blind
  | check fault? =>
    intro workspace
    show Modifier.check fault? workspace.stripped = _
    rw [Modifier.check, show fault? workspace.stripped = fault? workspace from h workspace]
    show _ = withLeft Workspace.stripped (Modifier.check fault? workspace)
    unfold Modifier.check
    cases fault? workspace <;> rfl
  | nested works => exact runAll_stripped works h

/-- Blind pieces of work, up to the first that fails, do the same without source code
information. -/
theorem runAll_stripped (works : List Work) (h : AllBlind works) :
    Modifier.Blind (Runner.runAll (runners works)) := by
  cases works with
  | nil => exact fun _ => rfl
  | cons work rest =>
    intro workspace
    have hfirst : work.runner.run workspace.stripped = _ := run_stripped work h.1 workspace
    simp only [runners, Runner.runAll, hfirst]
    show _ = withLeft Workspace.stripped (match work.runner.run workspace with
      | .ok _ next => Runner.runAll (runners rest) next
      | .error e left => .error e left)
    unfold run
    cases work.runner.run workspace with
    | ok _ next => exact runAll_stripped rest h.2 next
    | error e left => rfl

end

/-! ## Work in turn -/

/-- What a piece of work tells about the update or the sweep that it is; nothing if it is
neither. -/
def event? : Work → Workspace → Option Event
  | .single (.make call), workspace => some (call.event workspace)
  | _, _ => none

/-- What pieces of work in turn tell and come to, each of them run whether those before it failed or
not. -/
def reports : List Work → Workspace →
    List (Option Event × EStateM.Result EditError Workspace Unit)
  | [], _ => []
  | work :: rest, workspace =>
    (work.event? workspace, work.run workspace) ::
      reports rest (leftBy (work.run workspace))

/-- An update says the same without source code information. -/
theorem event?_stripped (work : Work) (workspace : Workspace) :
    work.event? workspace.stripped = work.event? workspace := by
  cases work with
  | single act =>
    cases act with
    | make call =>
      cases call with
      | sweep => rfl
      | update index slot value =>
        refine congrArg some ?_
        have himage : workspace.stripped.image.files =
            workspace.image.files.map File.stripSourceInfo := rfl
        have hsweeper : workspace.stripped.sweeper = workspace.sweeper := rfl
        simp only [Call.event, himage, hsweeper, List.getElem?_map]
        cases workspace.image.files[index]? with
        | none => rfl
        | some file =>
          simp only [Option.map_some, updateOption_stripped]
          cases updateOption slot value (file, workspace.sweeper) with
          | ok changed left => cases changed <;> rfl
          | error e left => rfl
    | note | take | strip | stripFile => rfl
  | modify | pass | check | nested => rfl

/-- The rules of the library do not look at source code information. Whatever work is done that does
not look at it either, in turn and whether it fails or not, it can be done without: every piece of
work then tells the same, fails just as before and with the same error, and leaves the same sweeper
and the same image without source code information. So dropping this information first and last
comes to the same. -/
theorem reports_stripped :
    (∀ rule : OptionRule, rule.Standard → rule.Blind) ∧
    ∀ works : List Work, AllBlind works → ∀ workspace : Workspace,
      reports works workspace.stripped =
        (reports works workspace).map (Prod.map id (withLeft Workspace.stripped)) ∧
      perform works workspace.stripped = (perform works workspace).stripped := by
  refine ⟨fun _ => OptionRule.Standard.blind, fun works hblind workspace => ?_⟩
  induction works generalizing workspace with
  | nil => exact ⟨rfl, rfl⟩
  | cons work rest ih =>
    have hrun := run_stripped work hblind.1 workspace
    obtain ⟨hreports, hperform⟩ := ih hblind.2 (leftBy (work.run workspace))
    constructor
    · rw [reports, reports, hrun, event?_stripped, leftBy_withLeft, hreports]
      rfl
    · show perform rest (leftBy (work.run workspace.stripped)) = _
      rw [hrun, leftBy_withLeft]
      exact hperform

/-- An update and then a runner that sweeps before its second rule fails: without source code
information the update says the same, the runner fails with the same error, and what is left is what
is left of the run with that information, once it is dropped. -/
theorem reports_stripped_failing :
    let file : File := {
      name := some "a.proto"
      package := some "acme\x00"
      sourceInfo := some [{ path := [8] }, { path := [8, 11] }] }
    let works : List Work := [
      .single (.make (.update 0 (.text .goPackage) (some (.text "x")))),
      .nested [.modify (javaMultipleFilesRule true), .single (.make .sweep),
        .modify (JavaPackage.rule { packagePrefix := "com" })]]
    let start : Workspace := { image := ⟨[file]⟩ }
    let edited : File := {
      name := some "a.proto"
      package := some "acme\x00"
      options := some { goPackage := some "x", javaMultipleFiles := some true }
      sourceInfo := some [{ path := [8] }] }
    let error : EditError := .file "a.proto" (.slot (.containsNul (.text .javaPackage)))
    (perform works start).image.files = [edited] ∧
      (perform works start.stripped).image.files = [edited.stripSourceInfo] ∧
      ∃ left, reports works start.stripped = [
        (some (.changed "a.proto" (.text .goPackage)),
          .ok () (perform (works.take 1) start).stripped),
        (none, .error error left)] := by
  intro file works start edited error
  have hblind : AllBlind works :=
    ⟨trivial, ⟨(OptionRule.Standard.javaMultipleFiles true).blind, trivial,
      (OptionRule.Standard.javaPackage _).blind, trivial⟩, trivial⟩
  obtain ⟨hreports, hperform⟩ := reports_stripped.2 works hblind start
  have hfiles : (perform works start).image.files = [edited] := by
    simp only [works, start, edited, file]
    rfl
  obtain ⟨left, hleft⟩ : ∃ left, reports works start = [
      (some (.changed "a.proto" (.text .goPackage)), .ok () (perform (works.take 1) start)),
      (none, .error error left)] := by
    simp only [works, start, error, file]
    exact ⟨_, rfl⟩
  refine ⟨hfiles, ?_, left.stripped, ?_⟩
  · rw [hperform]
    exact congrArg (List.map File.stripSourceInfo) hfiles
  · rw [hreports, hleft]
    rfl

end Work

end SchemaOptions
