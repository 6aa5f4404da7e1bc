import SchemaOptions.Proofs.Pass

/-!
# A pass over what a pass made

Once a rule was put into effect in a file, the slot reads as the rule asks. What it asks depends on
the path and the package, which no rule changes, and no other rule changes the slot. So to a second
pass the file is settled (`Settled`): no rule fails in it and no rule changes it, nothing is noted,
and the sweep has nothing to remove.
-/

namespace SchemaOptions

/-- Whether rules find nothing to do in a file. -/
def Settled (rules : List OptionRule) (file : File) : Prop :=
  ∀ rule ∈ rules, rule.effect file = .kept

namespace Settled

variable {rules : List OptionRule} {rule : OptionRule} {file : File} {files : List File}

theorem error?_eq_none (h : Settled rules file) (hmem : rule ∈ rules) :
    rule.error? file = none := by
  rw [OptionRule.error?, h rule hmem]
  rfl

theorem changes_eq_false (h : Settled rules file) (hmem : rule ∈ rules) :
    rule.changes file = false := by
  rw [OptionRule.changes, h rule hmem]
  rfl

/-- The modifier of a rule does nothing where all files are settled. -/
theorem modifier_eq_ok (h : ∀ file ∈ files, Settled rules file) (hmem : rule ∈ rules) :
    rule.modifier { image := ⟨files⟩ } = .ok () { image := ⟨files⟩ } := by
  have hedited : files.map rule.edited = files := by
    refine (List.map_congr_left fun file hfile => ?_).trans (List.map_id files)
    rw [OptionRule.edited, h file hfile rule hmem]
    rfl
  have htouches : rule.touches files = [] := by
    rw [List.eq_nil_iff_forall_not_mem]
    intro touch htouch
    obtain ⟨file, hfile, hchanges, -⟩ := OptionRule.mem_touches.1 htouch
    rw [(h file hfile).changes_eq_false hmem] at hchanges
    cases hchanges
  refine OptionRule.modifier_eq_ok_iff.2
    ⟨fun file hfile => (h file hfile).error?_eq_none hmem, ?_⟩
  rw [OptionRule.applied, hedited, htouches, Sweeper.touchAll_nil]

end Settled

/-- A file with the path, the package and the readings of one in which rules were put into effect is
settled. -/
theorem Independent.settled {rules : List OptionRule} (h : Independent rules) {file after : File}
    (hok : ∀ rule ∈ rules, rule.error? file = none) (hpath : after.path = file.path)
    (hpackage : after.packageName = file.packageName)
    (hread : ∀ slot, after.readSlot slot = (editedAll rules file).readSlot slot) :
    Settled rules after := by
  intro rule hmem
  have hdemand := (h.isLocal rule hmem).demand_eq hpath hpackage
  unfold OptionRule.effect
  cases hfile : rule.demand file with
  | error error =>
    have hfailed := hok rule hmem
    simp only [OptionRule.error?, OptionRule.effect, hfile] at hfailed
    cases hfailed
  | ok value? =>
    rw [hdemand, hfile]
    cases value? with
    | none => rfl
    | some value =>
      have hvalue : after.readSlot rule.slot = value := by
        rw [hread, h.readSlot_editedAll hmem]
        exact OptionRule.readSlot_edited (hok rule hmem) hfile
      exact if_pos hvalue

/-- Modifiers that do nothing to a workspace do nothing to it one after the other. -/
theorem Modifier.sequence_of_forall {modifiers : List Modifier} {workspace : Workspace}
    (h : ∀ modifier ∈ modifiers, modifier workspace = .ok () workspace) :
    Modifier.sequence modifiers workspace = .ok () workspace := by
  induction modifiers with
  | nil => rfl
  | cons modifier rest ih =>
    rw [Modifier.sequence_cons, h modifier List.mem_cons_self]
    exact ih fun other hmem => h other (List.mem_cons_of_mem _ hmem)

namespace Config

variable {config : Config} {rules : List OptionRule}

/-- What a pass made is settled. -/
theorem settled_of_pass (hrules : config.rules = .ok rules) {image : Image} {done : Workspace}
    (hrun : Modifier.sequence (rules.map OptionRule.modifier ++ [Modifier.sweep]) { image } =
      .ok () done) :
    ∀ file ∈ done.image.files, Settled rules file := by
  obtain ⟨hok, rfl⟩ := (sequence_build_eq_ok_iff hrules image.files done).1 hrun
  intro after hmem
  obtain ⟨file, hfile, rfl⟩ := List.mem_map.1 hmem
  have frame := editedAll_frame rules file
  refine (independent_rules hrules).settled (hok file hfile) ?_ ?_ fun slot => ?_
  · exact frame.path_eq
  · exact frame.packageName_eq
  · rfl

/-- Each modifier of a pass does nothing to what the pass made. -/
theorem modifier_again {image : Image} {modifiers : List Modifier} {done : Workspace}
    (hbuild : config.build = .ok modifiers)
    (hrun : Modifier.sequence modifiers { image } = .ok () done) :
    ∀ modifier ∈ modifiers,
      modifier { image := done.image } = .ok () { image := done.image } := by
  obtain ⟨rules, hrules, rfl⟩ := build_eq_ok_iff.1 hbuild
  have hsettled := settled_of_pass hrules hrun
  intro modifier hmem
  obtain hfirst | hsweep := List.mem_append.1 hmem
  · obtain ⟨rule, hrule, rfl⟩ := List.mem_map.1 hfirst
    exact Settled.modifier_eq_ok hsettled hrule
  · obtain rfl := List.mem_singleton.1 hsweep
    show EStateM.Result.ok () ({ image := Sweeper.empty.sweepImage done.image } : Workspace) = _
    rw [Sweeper.sweepImage_empty]

/-- At each point of a second pass nothing is noted and the image is what the first pass made of
it. -/
theorem sequence_again {image : Image} {modifiers : List Modifier} {done : Workspace}
    (hbuild : config.build = .ok modifiers)
    (hrun : Modifier.sequence modifiers { image } = .ok () done) (steps : Nat) :
    Modifier.sequence (modifiers.take steps) { image := done.image } =
      .ok () { image := done.image } :=
  Modifier.sequence_of_forall fun modifier hmem =>
    modifier_again hbuild hrun modifier (List.mem_of_mem_take hmem)

end Config

end SchemaOptions
