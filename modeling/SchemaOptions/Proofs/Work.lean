import SchemaOptions.Config.Pass
import SchemaOptions.Proofs.Flattening
import SchemaOptions.Proofs.Operations

/-!
# Work on an image

Work is whatever a caller can have done to an image: updates of single files, edits of one slot in
all files, sweeps, whole passes, touches noted by hand, source code information dropped, a change of
the sweeper at hand, checks that may fail, and any of these nested in runners (`Work`). Work comes
down to a row of acts, those that were carried out until it was done or failed, and leaves what they
leave (`Work.perform_eq`). So what every act preserves is preserved by all work, whether it succeeds
or fails.
-/

namespace SchemaOptions

/-! ## Acts -/

/-- The image in which the file with a path has no source code information. -/
def Image.stripFile (path : String) (image : Image) : Image :=
  ⟨image.files.map fun file => if file.path = path then file.stripSourceInfo else file⟩

/-- The smallest things that are done to an image and the sweeper at hand. None of them fails but an
update. -/
inductive Act where
  /-- An update of a slot of one file, or a sweep. -/
  | make (call : Call)
  | note (touch : Touch)
  /-- Takes another sweeper, new or not, in place of the one at hand. -/
  | take (sweeper : Sweeper)
  /-- Drops the source code information of all files. -/
  | strip
  /-- Drops the source code information of the file with a path. -/
  | stripFile (path : String)

namespace Act

/-- The modifier that carries out an act. -/
def modifier : Act → Modifier
  | .make call => call.modifier
  | .note touch => fun workspace =>
    .ok () { workspace with sweeper := workspace.sweeper.touch touch }
  | .take sweeper => fun workspace => .ok () { workspace with sweeper }
  | .strip => fun workspace => .ok () { workspace with image := workspace.image.stripSourceInfo }
  | .stripFile path => fun workspace =>
    .ok () { workspace with image := workspace.image.stripFile path }

/-- The workspace after an act, whether it failed or not. -/
def run (act : Act) (workspace : Workspace) : Workspace :=
  leftBy (act.modifier workspace)

/-- The workspace after acts, one after the other. -/
def replay (acts : List Act) (workspace : Workspace) : Workspace :=
  acts.foldl (fun workspace act => act.run workspace) workspace

theorem replay_append (acts others : List Act) (workspace : Workspace) :
    replay (acts ++ others) workspace = replay others (replay acts workspace) :=
  List.foldl_append

theorem replay_map_make (calls : List Call) (workspace : Workspace) :
    replay (calls.map .make) workspace = Call.replay calls workspace :=
  List.foldl_map

end Act

/-! ## Work -/

/-- Looks at a workspace and fails if it finds a fault, without changing anything. -/
def Modifier.check (fault? : Workspace → Option EditError) : Modifier := fun workspace =>
  match fault? workspace with
  | some error => .error error workspace
  | none => .ok () workspace

/-- The pass of a configuration with the sweeper at hand; nothing runs if it cannot be put into
effect. -/
def Config.pass (config : Config) : Modifier := fun workspace =>
  match config.build with
  | .ok modifiers => Modifier.sequence modifiers workspace
  | .error error => .error error workspace

/-- What a caller can have done to an image. -/
inductive Work where
  | single (act : Act)
  /-- An edit of one slot in all files, as a function of each file asks. -/
  | modify (rule : OptionRule)
  | pass (config : Config)
  | check (fault? : Workspace → Option EditError)
  /-- One after the other, up to the first that fails. -/
  | nested (works : List Work)

namespace Work

mutual

/-- The tree of modifiers of a piece of work. -/
def runner : Work → Runner
  | .single act => .step act.modifier
  | .modify rule => .step rule.modifier
  | .pass config => .step config.pass
  | .check fault? => .step (Modifier.check fault?)
  | .nested works => .nested (runners works)

/-- The trees of modifiers of some work. -/
def runners : List Work → List Runner
  | [] => []
  | work :: rest => work.runner :: runners rest

end

/-- Carries out a piece of work. -/
def run (work : Work) : Modifier :=
  work.runner.run

end Work

/-- The operations of a pass: its rules and the sweep. -/
def Config.operations (config : Config) : List Operation :=
  match config.rules with
  | .ok rules => rules.map .modify ++ [.sweep]
  | .error _ => []

namespace Work

mutual

/-- The acts of a piece of work until it is done or fails. -/
def acts : Work → Workspace → List Act
  | .single act, _ => [act]
  | .modify rule, workspace => (rule.calls 0 workspace.image.files).map .make
  | .pass config, workspace => (Operation.callsAll config.operations workspace).map .make
  | .check _, _ => []
  | .nested works, workspace => actsAll works workspace

/-- The acts of nested work, up to the first piece that fails. -/
def actsAll : List Work → Workspace → List Act
  | [], _ => []
  | work :: rest, workspace =>
    work.acts workspace ++
      match work.run workspace with
      | .ok _ workspace => actsAll rest workspace
      | .error _ _ => []

end

/-- The workspace after pieces of work in turn, each of them whether those before it failed or
not. -/
def perform (works : List Work) (workspace : Workspace) : Workspace :=
  works.foldl (fun workspace work => leftBy (work.run workspace)) workspace

/-- The acts of pieces of work in turn. -/
def actsInTurn : List Work → Workspace → List Act
  | [], _ => []
  | work :: rest, workspace =>
    work.acts workspace ++ actsInTurn rest (leftBy (work.run workspace))

end Work

/-! ## Work comes down to acts -/

/-- The trees of the operations of a pass are its modifiers. -/
theorem Operation.runners_pass (rules : List OptionRule) :
    Operation.runners (rules.map .modify ++ [.sweep]) =
      (rules.map OptionRule.modifier ++ [Modifier.sweep]).map .step := by
  induction rules with
  | nil => rfl
  | cons rule rest ih =>
    simp only [List.map_cons, List.cons_append, Operation.runners, Operation.runner, ih]

/-- A pass leaves what the calls of its operations leave. -/
theorem Config.leftBy_pass (config : Config) (workspace : Workspace) :
    leftBy (config.pass workspace) =
      Call.replay (Operation.callsAll config.operations workspace) workspace := by
  unfold pass build operations
  cases config.rules with
  | error error => rfl
  | ok rules =>
    rw [← Operation.leftBy_runAll, Operation.runners_pass, Runner.runAll_map_step]
    rfl

namespace Work

mutual

/-- A piece of work leaves what its acts leave. -/
theorem leftBy_run (work : Work) (workspace : Workspace) :
    leftBy (work.run workspace) = Act.replay (work.acts workspace) workspace := by
  cases work with
  | single act => rfl
  | modify rule =>
    rw [acts, Act.replay_map_make, ← OptionRule.leftBy_modifier]
    rfl
  | pass config =>
    rw [acts, Act.replay_map_make, ← Config.leftBy_pass]
    rfl
  | check fault? =>
    show leftBy (Modifier.check fault? workspace) = workspace
    unfold Modifier.check
    cases fault? workspace <;> rfl
  | nested works => exact leftBy_runAll works workspace

/-- Nested work leaves what its acts leave. -/
theorem leftBy_runAll (works : List Work) (workspace : Workspace) :
    leftBy (Runner.runAll (runners works) workspace) =
      Act.replay (actsAll works workspace) workspace := by
  cases works with
  | nil => rfl
  | cons work rest =>
    have hfirst := leftBy_run work workspace
    rw [actsAll, Act.replay_append, ← hfirst, runners, Runner.runAll]
    unfold run
    cases hrun : work.runner.run workspace with
    | ok _ next =>
      simp only [hrun]
      exact leftBy_runAll rest next
    | error e left =>
      simp only [hrun]
      rfl

end

/-- Work in turn leaves what its acts leave. -/
theorem perform_eq (works : List Work) (workspace : Workspace) :
    perform works workspace = Act.replay (actsInTurn works workspace) workspace := by
  induction works generalizing workspace with
  | nil => rfl
  | cons work rest ih =>
    rw [actsInTurn, Act.replay_append, ← leftBy_run]
    exact ih _

end Work

end SchemaOptions
