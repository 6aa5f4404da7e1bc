import SchemaOptions.Proofs.Calls
import SchemaOptions.Proofs.Files

/-!
# Operations

An operation is what can be run on a workspace: an update of one file, an edit of one slot in all
files, whatever function it asks, a sweep, and any number of these nested in each other. Its calls
are the updates and sweeps that it makes until it is done or fails (`Operation.calls`), and they
leave the same workspace (`Operation.leftBy_run`). So the account of calls holds at every point of
every run of operations, between them and within them, whether they fail or not
(`Operation.perform_accounted`).
-/

namespace SchemaOptions

/-- What can be run on a workspace. -/
inductive Operation where
  /-- An update of one slot of the file at an index. -/
  | update (index : Nat) (slot : Slot) (value : Option OptionValue)
  /-- An edit of one slot in all files. -/
  | modify (rule : OptionRule)
  | sweep
  | nested (operations : List Operation)

namespace Operation

mutual

/-- The tree of modifiers of an operation. -/
def runner : Operation → Runner
  | .update index slot value => .step (Modifier.update index slot value)
  | .modify rule => .step rule.modifier
  | .sweep => .step Modifier.sweep
  | .nested operations => .nested (runners operations)

/-- The trees of modifiers of operations. -/
def runners : List Operation → List Runner
  | [] => []
  | operation :: rest => operation.runner :: runners rest

end

/-- Runs an operation. -/
def run (operation : Operation) : Modifier :=
  operation.runner.run

end Operation

/-- The calls that a rule makes in files, the first of which has an index: an update for each file
in which it asks for a value, up to the first file in which it fails. -/
def OptionRule.calls (rule : OptionRule) : Nat → List File → List Call
  | _, [] => []
  | index, file :: rest =>
    match rule.demand file with
    | .error _ => []
    | .ok none => rule.calls (index + 1) rest
    | .ok (some value) =>
      .update index rule.slot value ::
        if (rule.error? file).isSome then [] else rule.calls (index + 1) rest

namespace Operation

mutual

/-- The calls that an operation makes until it is done or fails. -/
def calls : Operation → Workspace → List Call
  | .update index slot value, _ => [.update index slot value]
  | .modify rule, workspace => rule.calls 0 workspace.image.files
  | .sweep, _ => [.sweep]
  | .nested operations, workspace => callsAll operations workspace

/-- The calls that nested operations make, up to the first that fails. -/
def callsAll : List Operation → Workspace → List Call
  | [], _ => []
  | operation :: rest, workspace =>
    operation.calls workspace ++
      match operation.run workspace with
      | .ok _ workspace => callsAll rest workspace
      | .error _ _ => []

end

/-- The workspace after operations in turn, each of them whether those before it failed or not. -/
def perform (operations : List Operation) (workspace : Workspace) : Workspace :=
  operations.foldl (fun workspace operation => leftBy (operation.run workspace)) workspace

/-- The calls that operations in turn make. -/
def callsInTurn : List Operation → Workspace → List Call
  | [], _ => []
  | operation :: rest, workspace =>
    operation.calls workspace ++ callsInTurn rest (leftBy (operation.run workspace))

end Operation

/-! ## Operations make these calls -/

/-- An edit of files that goes on after the first. -/
theorem leftBy_editFiles_of_ok {σ α : Type} {edit : Edit (File × σ) α} {file new : File}
    {shared after : σ} {a : α} (rest : List File) (h : edit (file, shared) = .ok a (new, after)) :
    leftBy (editFiles edit (file :: rest) shared) =
      (new :: (leftBy (editFiles edit rest after)).1, (leftBy (editFiles edit rest after)).2) := by
  rw [editFiles, h]
  cases hrest : editFiles edit rest after with
  | ok as left => simp only [hrest, leftBy]
  | error e left => simp only [hrest, leftBy]

/-- An edit of files that fails in the first. -/
theorem leftBy_editFiles_of_error {σ α : Type} {edit : Edit (File × σ) α} {file new : File}
    {shared after : σ} {e : EditError} (rest : List File)
    (h : edit (file, shared) = .error e (new, after)) :
    leftBy (editFiles edit (file :: rest) shared) = (new :: rest, after) := by
  rw [editFiles, h]
  rfl

namespace OptionRule

/-- The update that a rule asks for does what the rule does. -/
theorem run_update {rule : OptionRule} {workspace : Workspace} {index : Nat} {file : File}
    {value : Option OptionValue} (hfile : workspace.image.files[index]? = some file)
    (hdemand : rule.demand file = .ok (some value)) :
    (Call.update index rule.slot value).run workspace = { workspace with
      image := ⟨workspace.image.files.set index (rule.edited file)⟩
      sweeper := workspace.sweeper.touchAll (rule.touchOf file) } := by
  rw [(Call.update_eq rule.slot value hfile).2]
  simp only [edited, touchOf, changes, effect, hdemand]
  cases (file.update rule.slot value).isChange <;> rfl

/-- What an edit of files leaves is what the calls of its rule leave. -/
theorem replay_calls (rule : OptionRule) (before files : List File) (workspace : Workspace)
    (h : workspace.image.files = before ++ files) :
    Call.replay (rule.calls before.length files) workspace =
      let left := leftBy (editFiles (editSlot rule.slot rule.target) files workspace.sweeper)
      { workspace with image := ⟨before ++ left.1⟩, sweeper := left.2 } := by
  induction files generalizing before workspace with
  | nil =>
    show workspace = { workspace with image := ⟨before ++ []⟩ }
    rw [← h]
  | cons file rest ih =>
    have hfile : workspace.image.files[before.length]? = some file := by
      rw [h, List.getElem?_append_right (Nat.le_refl _), Nat.sub_self, List.getElem?_cons_zero]
    have hset (new : File) :
        workspace.image.files.set before.length new = before ++ new :: rest := by
      rw [h, List.set_append_right _ _ (Nat.le_refl _), Nat.sub_self, List.set_cons_zero]
    have hnext (new : File) (sweeper : Sweeper) :=
      ih (before ++ [new]) { workspace with image := ⟨before ++ new :: rest⟩, sweeper }
        (List.append_cons before new rest)
    simp only [List.length_append, List.length_singleton, List.append_assoc,
      List.singleton_append] at hnext
    rw [OptionRule.calls]
    cases herror : rule.error? file with
    | some error =>
      rw [leftBy_editFiles_of_error rest (editSlot_of_error workspace.sweeper herror)]
      cases hdemand : rule.demand file with
      | error e =>
        have hkept : rule.edited file = file := by
          simp only [edited, effect, hdemand, SlotEffect.file]
        rw [hkept]
        show workspace = { workspace with image := ⟨before ++ file :: rest⟩ }
        rw [← h]
      | ok value? =>
        cases value? with
        | none =>
          simp only [error?, effect, hdemand] at herror
          cases herror
        | some value =>
          show (Call.update before.length rule.slot value).run workspace = _
          rw [run_update hfile hdemand, hset, touchOf, changes_of_error herror]
          rfl
    | none =>
      rw [leftBy_editFiles_of_ok rest (editSlot_of_ok workspace.sweeper herror)]
      cases hdemand : rule.demand file with
      | error e =>
        simp only [error?, effect, hdemand] at herror
        cases herror
      | ok value? =>
        cases value? with
        | none =>
          have hkept : rule.edited file = file := by
            simp only [edited, effect, hdemand, SlotEffect.file]
          have htouch : rule.touchOf file = [] := by
            simp only [touchOf, changes, effect, hdemand, SlotEffect.isChange]
            rfl
          have hsame := hnext file workspace.sweeper
          rw [← h] at hsame
          rw [hkept, htouch]
          exact hsame
        | some value =>
          show Call.replay (rule.calls (before.length + 1) rest)
            ((Call.update before.length rule.slot value).run workspace) = _
          rw [run_update hfile hdemand, hset]
          exact hnext _ _

/-- The modifier of a rule leaves what its calls leave. -/
theorem leftBy_modifier (rule : OptionRule) (workspace : Workspace) :
    leftBy (rule.modifier workspace) =
      Call.replay (rule.calls 0 workspace.image.files) workspace := by
  have hcalls := rule.replay_calls [] workspace.image.files workspace rfl
  rw [List.length_nil] at hcalls
  rw [hcalls]
  simp only [modifier, modifyOption, Image.forEachFile]
  cases editFiles (editSlot rule.slot rule.target) workspace.image.files workspace.sweeper <;> rfl

end OptionRule

namespace Operation

mutual

/-- An operation leaves what its calls leave. -/
theorem leftBy_run (operation : Operation) (workspace : Workspace) :
    leftBy (operation.run workspace) = Call.replay (operation.calls workspace) workspace := by
  cases operation with
  | update index slot value => rfl
  | modify rule => exact rule.leftBy_modifier workspace
  | sweep => rfl
  | nested operations => exact leftBy_runAll operations workspace

/-- Nested operations leave what their calls leave. -/
theorem leftBy_runAll (operations : List Operation) (workspace : Workspace) :
    leftBy (Runner.runAll (runners operations) workspace) =
      Call.replay (callsAll operations workspace) workspace := by
  cases operations with
  | nil => rfl
  | cons operation rest =>
    have hfirst := leftBy_run operation workspace
    rw [callsAll, Call.replay_append, ← hfirst, runners, Runner.runAll]
    unfold run
    cases hrun : operation.runner.run workspace with
    | ok _ next =>
      simp only [hrun]
      exact leftBy_runAll rest next
    | error e left =>
      simp only [hrun]
      rfl

end

/-- Operations in turn leave what their calls leave. -/
theorem perform_eq (operations : List Operation) (workspace : Workspace) :
    perform operations workspace = Call.replay (callsInTurn operations workspace) workspace := by
  induction operations generalizing workspace with
  | nil => rfl
  | cons operation rest ih =>
    rw [callsInTurn, Call.replay_append, ← leftBy_run]
    exact ih _

/-- Whatever runs on an image with a new sweeper comes down to a row of calls, and after each of
these the account is right. -/
theorem perform_accounted (image : Image) (operations : List Operation) :
    perform operations { image } =
        Call.replay (callsInTurn operations { image }) { image } ∧
      ∀ n, Accounted image ((callsInTurn operations { image }).take n) :=
  ⟨perform_eq operations { image }, fun _ => Call.accounted image _⟩

end Operation

end SchemaOptions
