import SchemaOptions.Proofs.Rules

/-!
# Trees of modifiers and their leaves

A run of a tree of modifiers is a run of its leaves from left to right (`Runner.run_eq_sequence`),
whatever the leaves do and wherever runners without any are. Not only is the result the same: so are
the stages, that is the modifiers that are run and the workspaces that they find. These are the
leaves up to the first that fails, each of them once and on what the one before it left
(`Runner.run_flattened`).
-/

namespace SchemaOptions

/-! ## Stages -/

/-- A modifier that is run, and the workspace that it finds. -/
structure Stage where
  modifier : Modifier
  found : Workspace

/-- What the modifier comes to. -/
def Stage.result (stage : Stage) : EStateM.Result EditError Workspace Unit :=
  stage.modifier stage.found

/-- The stages of modifiers in order, up to the first that fails. -/
def Modifier.stages : List Modifier → Workspace → List Stage
  | [], _ => []
  | modifier :: rest, workspace =>
    ⟨modifier, workspace⟩ ::
      match modifier workspace with
      | .ok _ workspace => stages rest workspace
      | .error _ _ => []

namespace Runner

mutual

/-- The stages of a tree, up to the first modifier that fails. -/
def stages : Runner → Workspace → List Stage
  | .step modifier, workspace => [⟨modifier, workspace⟩]
  | .nested runners, workspace => stagesAll runners workspace

/-- The stages of trees in order, up to the first that fails. -/
def stagesAll : List Runner → Workspace → List Stage
  | [], _ => []
  | runner :: rest, workspace =>
    runner.stages workspace ++
      match runner.run workspace with
      | .ok _ workspace => stagesAll rest workspace
      | .error _ _ => []

end

end Runner

/-- Whether stages lead from a workspace to a result: the first finds the workspace, each of the
others what the one before it left, and the result is that of the last, which alone may fail. -/
inductive Leads : Workspace → List Stage → EStateM.Result EditError Workspace Unit → Prop where
  | nil (workspace : Workspace) : Leads workspace [] (.ok () workspace)
  | failed {stage : Stage} {error : EditError} {left : Workspace}
      (fails : stage.result = .error error left) : Leads stage.found [stage] (.error error left)
  | next {stage : Stage} {stages : List Stage} {middle : Workspace}
      {result : EStateM.Result EditError Workspace Unit} (succeeds : stage.result = .ok () middle)
      (rest : Leads middle stages result) : Leads stage.found (stage :: stages) result

/-! ## Modifiers in order -/

namespace Modifier

variable {modifiers : List Modifier} {workspace done : Workspace}

theorem stages_append (first rest : List Modifier) (workspace : Workspace) :
    stages (first ++ rest) workspace = stages first workspace ++
      match sequence first workspace with
      | .ok _ workspace => stages rest workspace
      | .error _ _ => [] := by
  induction first generalizing workspace with
  | nil => rfl
  | cons modifier first ih =>
    rw [List.cons_append, stages, stages, sequence_cons, List.cons_append]
    cases modifier workspace with
    | ok _ next => exact congrArg _ (ih next)
    | error => rfl

theorem leads_stages (modifiers : List Modifier) (workspace : Workspace) :
    Leads workspace (stages modifiers workspace) (sequence modifiers workspace) := by
  induction modifiers generalizing workspace with
  | nil => exact .nil workspace
  | cons modifier rest ih =>
    rw [stages, sequence_cons]
    cases hmodifier : modifier workspace with
    | ok _ next =>
      have hsucceeds : (Stage.mk modifier workspace).result = .ok () next := hmodifier
      exact .next hsucceeds (ih next)
    | error error left =>
      have hfails : (Stage.mk modifier workspace).result = .error error left := hmodifier
      exact .failed hfails

/-- Modifiers that succeed together are all run. -/
theorem map_modifier_stages_of_ok (h : sequence modifiers workspace = .ok () done) :
    (stages modifiers workspace).map Stage.modifier = modifiers := by
  induction modifiers generalizing workspace with
  | nil => rfl
  | cons modifier rest ih =>
    obtain ⟨next, hmodifier, hrest⟩ := sequence_cons_eq_ok_iff.1 h
    rw [stages, hmodifier, List.map_cons]
    exact congrArg _ (ih hrest)

/-- Behind modifiers that succeed, one that fails is the last to be run. -/
theorem map_modifier_stages_of_error {before after : List Modifier} {failing : Modifier}
    {middle left : Workspace} {error : EditError}
    (hbefore : sequence before workspace = .ok () middle)
    (hfailing : failing middle = .error error left) :
    (stages (before ++ failing :: after) workspace).map Stage.modifier = before ++ [failing] := by
  rw [stages_append, hbefore, List.map_append, map_modifier_stages_of_ok hbefore]
  show before ++ (stages (failing :: after) middle).map Stage.modifier = _
  rw [stages, hfailing]
  rfl

end Modifier

/-! ## Trees -/

namespace Runner

mutual

/-- A tree runs as its leaves do in order. -/
theorem run_eq_sequence (runner : Runner) (workspace : Workspace) :
    runner.run workspace = Modifier.sequence runner.leaves workspace := by
  cases runner with
  | step modifier =>
    rw [leaves, Modifier.sequence_cons, run]
    cases modifier workspace <;> rfl
  | nested runners => exact runAll_eq_sequence runners workspace

/-- Trees in order run as their leaves do in order. -/
theorem runAll_eq_sequence (runners : List Runner) (workspace : Workspace) :
    runAll runners workspace = Modifier.sequence (leavesAll runners) workspace := by
  cases runners with
  | nil => rfl
  | cons runner rest =>
    have hfirst := run_eq_sequence runner workspace
    rw [leavesAll, Modifier.sequence_append, ← hfirst]
    unfold runAll
    cases runner.run workspace with
    | ok _ next => exact runAll_eq_sequence rest next
    | error => rfl

end

mutual

/-- The stages of a tree are those of its leaves in order. -/
theorem stages_eq (runner : Runner) (workspace : Workspace) :
    runner.stages workspace = Modifier.stages runner.leaves workspace := by
  cases runner with
  | step modifier =>
    rw [leaves, Modifier.stages, stages]
    cases modifier workspace <;> rfl
  | nested runners => exact stagesAll_eq runners workspace

theorem stagesAll_eq (runners : List Runner) (workspace : Workspace) :
    stagesAll runners workspace = Modifier.stages (leavesAll runners) workspace := by
  cases runners with
  | nil => rfl
  | cons runner rest =>
    rw [stagesAll, leavesAll, Modifier.stages_append, stages_eq runner workspace,
      run_eq_sequence runner workspace]
    cases Modifier.sequence runner.leaves workspace with
    | ok _ next => exact congrArg _ (stagesAll_eq rest next)
    | error => rfl

end

theorem leavesAll_map_step (modifiers : List Modifier) :
    leavesAll (modifiers.map .step) = modifiers := by
  induction modifiers with
  | nil => rfl
  | cons modifier rest ih =>
    rw [List.map_cons, leavesAll, ih, leaves]
    rfl

/-- A runner of single modifiers is their sequence. -/
theorem runAll_map_step (modifiers : List Modifier) :
    runAll (modifiers.map .step) = Modifier.sequence modifiers := by
  funext workspace
  rw [runAll_eq_sequence, leavesAll_map_step]

/-- A tree comes to the same as the one runner of its leaves, and in the same stages. These lead to
the result, and what is run in them is all leaves if none fails, and otherwise the leaves up to the
first that does. -/
theorem run_flattened (runner : Runner) (workspace : Workspace) :
    let flat := nested (runner.leaves.map .step)
    let stages := runner.stages workspace
    runner.run workspace = flat.run workspace ∧ stages = flat.stages workspace ∧
      Leads workspace stages (runner.run workspace) ∧
      ((∃ done, runner.run workspace = .ok () done ∧
          stages.map Stage.modifier = runner.leaves) ∨
        ∃ before failing after middle error left,
          runner.leaves = before ++ failing :: after ∧
          Modifier.sequence before workspace = .ok () middle ∧
          failing middle = .error error left ∧
          runner.run workspace = .error error left ∧
          stages.map Stage.modifier = before ++ [failing]) := by
  intro flat stages
  -- The flat runner has the same leaves, so whatever is told of the leaves is told of both.
  have hflat : flat.leaves = runner.leaves := leavesAll_map_step runner.leaves
  have hstages : stages = Modifier.stages runner.leaves workspace := runner.stages_eq workspace
  refine ⟨?_, ?_, ?_, ?_⟩
  · rw [run_eq_sequence, run_eq_sequence flat, hflat]
  · rw [hstages, stages_eq, hflat]
  · rw [hstages, run_eq_sequence]
    exact Modifier.leads_stages runner.leaves workspace
  · rw [hstages, run_eq_sequence]
    cases hrun : Modifier.sequence runner.leaves workspace with
    | ok _ done => exact .inl ⟨done, rfl, Modifier.map_modifier_stages_of_ok hrun⟩
    | error error left =>
      obtain ⟨before, failing, after, middle, hleaves, hbefore, hfailing⟩ :=
        Modifier.sequence_eq_error_iff.1 hrun
      refine .inr ⟨before, failing, after, middle, error, left, hleaves, hbefore, hfailing, rfl, ?_⟩
      rw [hleaves]
      exact Modifier.map_modifier_stages_of_error hbefore hfailing

end Runner

end SchemaOptions
