import Mathlib.Data.Fin.VecNotation
import Mathlib.Data.List.FinRange
import Mathlib.Data.List.OfFn
import SchemaOptions.Proofs.Failure

/-!
# Files in another order

Edits of one file read no other file, and what they share is a set of touches. So a rule does in
each file what it does there in any order of the files, and the touches that it notes are the same.
Where rules fail, the rule at which they stop is the first one that fails in some file, whichever
that is (`Independent.stopsAt_iff`); the order of the files decides only which of these files is met
first. `Config.sequence_build_comp_perm` tells this of a pass.
-/

namespace SchemaOptions

/-- The touches that rules leave in files do not depend on the order of the files. -/
theorem mem_touchesAll_perm {files others : List File} (hperm : files.Perm others)
    (rules : List OptionRule) (touch : Touch) :
    touch ∈ touchesAll rules files ↔ touch ∈ touchesAll rules others := by
  simp only [mem_touchesAll, hperm.mem_iff]

/-! ## The rule at which a run stops -/

/-- Whether some rules get through a workspace and one after them fails with an error. -/
def StopsAt (earlier : List OptionRule) (rule : OptionRule) (workspace : Workspace)
    (error : EditError) (left : Workspace) : Prop :=
  ∃ middle, Modifier.sequence (earlier.map OptionRule.modifier) workspace = .ok () middle ∧
    rule.modifier middle = .error error left

namespace Independent

variable {earlier later : List OptionRule} {rule : OptionRule} {workspace left : Workspace}
  {error : EditError}

/-- The rules before one do not decide whether it fails in a file. -/
theorem error?_editedAll (h : Independent (earlier ++ rule :: later)) (file : File) :
    rule.error? (editedAll earlier file) = rule.error? file :=
  (h.isLocal rule (List.mem_append_right _ List.mem_cons_self)).error?_frame
    (editedAll_frame earlier file) h.slot_not_mem

/-- The error at which a run stops is that of the rule in some file as it was. -/
theorem error?_of_stopsAt (h : Independent (earlier ++ rule :: later))
    (hstops : StopsAt earlier rule workspace error left) :
    ∃ file ∈ workspace.image.files, rule.error? file = some error := by
  obtain ⟨middle, hearlier, hrule⟩ := hstops
  obtain ⟨-, rfl⟩ := (sequence_rules_eq_ok_iff h.initial).1 hearlier
  obtain ⟨_, hmem, herror⟩ := OptionRule.exists_error?_of_modifier hrule
  obtain ⟨file, hfile, rfl⟩ := List.mem_map.1 hmem
  exact ⟨file, hfile, (h.error?_editedAll file).symm.trans herror⟩

/-- A run stops at the first rule that fails in some file. -/
theorem stopsAt_iff (h : Independent (earlier ++ rule :: later)) :
    (∃ error left, StopsAt earlier rule workspace error left) ↔
      (∀ other ∈ earlier, ∀ file ∈ workspace.image.files, other.error? file = none) ∧
      ∃ file ∈ workspace.image.files, ∃ error, rule.error? file = some error := by
  constructor
  · rintro ⟨error, left, hstops⟩
    obtain ⟨file, hmem, herror⟩ := h.error?_of_stopsAt hstops
    obtain ⟨middle, hearlier, -⟩ := hstops
    exact ⟨((sequence_rules_eq_ok_iff h.initial).1 hearlier).1, file, hmem, error, herror⟩
  · rintro ⟨hok, file, hmem, error, herror⟩
    have hearlier := (sequence_rules_eq_ok_iff h.initial).2 ⟨hok, rfl⟩
    have hfails : ∃ error left, rule.modifier (appliedAll earlier workspace) =
        .error error left := by
      refine OptionRule.modifier_fails_iff.2 ⟨editedAll earlier file, ?_, error, ?_⟩
      · exact List.mem_map_of_mem hmem
      · exact (h.error?_editedAll file).trans herror
    obtain ⟨error, left, hrule⟩ := hfails
    exact ⟨error, left, _, hearlier, hrule⟩

/-- In whichever order the files are, a run stops at the same rule. -/
theorem stopsAt_perm (h : Independent (earlier ++ rule :: later)) {files others : List File}
    (hperm : files.Perm others) (hstops : StopsAt earlier rule { image := ⟨files⟩ } error left) :
    ∃ error left, StopsAt earlier rule { image := ⟨others⟩ } error left := by
  have hfirst := h.stopsAt_iff.1 ⟨error, left, hstops⟩
  simp only [hperm.mem_iff] at hfirst
  exact h.stopsAt_iff.2 hfirst

end Independent

/-- A run of a pass that stops at a rule fails there. -/
theorem StopsAt.sequence {earlier later : List OptionRule} {rule : OptionRule}
    {workspace left : Workspace} {error : EditError}
    (h : StopsAt earlier rule workspace error left) :
    Modifier.sequence ((earlier ++ rule :: later).map OptionRule.modifier ++ [Modifier.sweep])
      workspace = .error error left := by
  obtain ⟨middle, hearlier, hrule⟩ := h
  refine Modifier.sequence_eq_error_iff.2 ⟨earlier.map OptionRule.modifier, rule.modifier,
    later.map OptionRule.modifier ++ [Modifier.sweep], middle, ?_, hearlier, hrule⟩
  rw [List.map_append, List.map_cons, List.append_assoc, List.cons_append]

/-- A rule that fails in a file fails with the same error if there is no other file. -/
theorem OptionRule.modifier_singleton_of_error {rule : OptionRule} {file : File}
    {error : EditError} (h : rule.error? file = some error) :
    ∃ left, rule.modifier { image := ⟨[file]⟩ } = .error error left := by
  have hfiles : ({ image := ⟨[file]⟩ } : Workspace).image.files = [] ++ file :: [] := rfl
  exact ⟨_, modifier_of_error hfiles (List.forall_mem_nil _) h⟩

/-! ## Passes -/

namespace Config

variable {config : Config} {rules : List OptionRule} {files others : List File}

/-- Rules note the same touches in any order of the files. -/
theorem mem_noted_perm (hperm : files.Perm others) (touch : Touch) :
    touch ∈ (noted rules files).touches ↔ touch ∈ (noted rules others).touches := by
  simp only [noted, Sweeper.mem_touches_touchAll, mem_touchesAll_perm hperm]

/-- The rules of a pass that goes through leave the touches that they noted. -/
theorem sequence_rules_noted (hrules : config.rules = .ok rules)
    (hok : ∀ file ∈ files, ∀ rule ∈ rules, rule.error? file = none) :
    Modifier.sequence (rules.map OptionRule.modifier) { image := ⟨files⟩ } =
      .ok () { image := ⟨files.map (editedAll rules)⟩, sweeper := noted rules files } :=
  (sequence_rules_eq_ok_iff (independent_rules hrules)).2
    ⟨fun rule hrule file hmem => hok file hmem rule hrule, rfl⟩

/-- A pass does with the files in another order what it does with them as they were: it goes through
in every order or in none; if it does, the files that it makes are in that order too, and the
touches before the sweep are the same. If it fails, it stops in every order at the same rule, and
with an error that the rule has for some file by itself. -/
theorem sequence_build_comp_perm {n : ℕ} {files : Fin n → File} {image : Image}
    {modifiers : List Modifier} (himage : Image.ofFiles (List.ofFn files) = .ok image)
    (hbuild : config.build = .ok modifiers) :
    ∃ rules, config.rules = .ok rules ∧
      modifiers = rules.map OptionRule.modifier ++ [Modifier.sweep] ∧
      (∀ σ : Equiv.Perm (Fin n),
        let other : Image := ⟨List.ofFn (files ∘ σ)⟩
        Image.ofFiles other.files = .ok other ∧
        ((∃ done, Modifier.sequence modifiers { image } = .ok () done) ↔
          ∃ done, Modifier.sequence modifiers { image := other } = .ok () done) ∧
        ∀ done last, Modifier.sequence modifiers { image } = .ok () done →
          Modifier.sequence modifiers { image := other } = .ok () last →
          (∃ made : Fin n → File, done.image.files = List.ofFn made ∧
            last.image.files = List.ofFn (made ∘ σ)) ∧
          ∃ noted reordered,
            Modifier.sequence (rules.map OptionRule.modifier) { image } = .ok () noted ∧
            Modifier.sequence (rules.map OptionRule.modifier) { image := other } =
              .ok () reordered ∧
            ∀ touch, touch ∈ noted.sweeper.touches ↔ touch ∈ reordered.sweeper.touches) ∧
      ∀ error left, Modifier.sequence modifiers { image } = .error error left →
        ∃ earlier rule later, rules = earlier ++ rule :: later ∧
          StopsAt earlier rule { image } error left ∧
          ∀ σ : Equiv.Perm (Fin n), ∃ error left,
            Modifier.sequence modifiers { image := ⟨List.ofFn (files ∘ σ)⟩ } = .error error left ∧
            StopsAt earlier rule { image := ⟨List.ofFn (files ∘ σ)⟩ } error left ∧
            ∃ file ∈ image.files, ∃ alone,
              rule.modifier { image := ⟨[file]⟩ } = .error error alone := by
  obtain ⟨rules, hrules, rfl⟩ := build_eq_ok_iff.1 hbuild
  obtain ⟨rfl, -⟩ := Image.ofFiles_eq_ok_iff.1 himage
  have hindependent := independent_rules hrules
  have hruns := sequence_build_eq_ok_iff hrules
  refine ⟨rules, hrules, rfl, fun σ => ?_, fun error left hrun => ?_⟩
  · have hperm : (List.ofFn files).Perm (List.ofFn (files ∘ σ)) := (σ.ofFn_comp_perm files).symm
    refine ⟨Image.ofFiles_perm hperm himage, ?_, fun done last hdone hlast => ?_⟩
    · simp only [hruns, exists_and_left, exists_eq, and_true, hperm.mem_iff]
    · obtain ⟨hok, rfl⟩ := (hruns _ _).1 hdone
      obtain ⟨hother, rfl⟩ := (hruns _ _).1 hlast
      have hnoted : ∀ touch, touch ∈ (noted rules _).touches ↔ _ := mem_noted_perm hperm
      refine ⟨⟨fun i => (noted rules (List.ofFn files)).sweepFile (editedAll rules (files i)),
        List.map_ofFn, ?_⟩, _, _, sequence_rules_noted hrules hok,
        sequence_rules_noted hrules hother, hnoted⟩
      simp only [← Sweeper.sweepFile_congr hnoted]
      exact List.map_ofFn
  · obtain ⟨earlier, rule, later, middle, rfl, hearlier, hrule⟩ := sequence_build_eq_error hrun
    have hstops : StopsAt earlier rule { image := ⟨List.ofFn files⟩ } error left :=
      ⟨middle, hearlier, hrule⟩
    refine ⟨earlier, rule, later, rfl, hstops, fun σ => ?_⟩
    have hperm : (List.ofFn files).Perm (List.ofFn (files ∘ σ)) := (σ.ofFn_comp_perm files).symm
    obtain ⟨error, left, hother⟩ := hindependent.stopsAt_perm hperm hstops
    obtain ⟨file, hmem, herror⟩ := hindependent.error?_of_stopsAt hother
    exact ⟨error, left, hother.sequence, hother, file, hperm.mem_iff.2 hmem,
      OptionRule.modifier_singleton_of_error herror⟩

/-- Two files that a rule refuses: in either order the pass stops at this rule, each time with the
error of the file that it meets first. -/
theorem sequence_build_comp_perm_nul :
    let config : Config := { javaPackage := some { packagePrefix := "com" } }
    let rule := JavaPackage.rule { packagePrefix := "com" }
    let first : File := { name := some "a.proto", package := some "a\x00" }
    let second : File := { name := some "b.proto", package := some "b\x00" }
    let files : Fin 2 → File := ![first, second]
    let fault : FileFault := .slot (.containsNul (.text .javaPackage))
    let swapped : Workspace := { image := ⟨List.ofFn (files ∘ Equiv.swap 0 1)⟩ }
    config.build = .ok [rule.modifier, Modifier.sweep] ∧
    Modifier.sequence [rule.modifier, Modifier.sweep] { image := ⟨List.ofFn files⟩ } =
      .error (.file "a.proto" fault) { image := ⟨[{ first with options := some {} }, second]⟩ } ∧
    StopsAt [] rule swapped (.file "b.proto" fault)
      { image := ⟨[{ second with options := some {} }, first]⟩ } := by
  intro config rule first second files fault swapped
  have himage : Image.ofFiles (List.ofFn files) = .ok ⟨List.ofFn files⟩ := by rfl
  have hbuild : config.build = .ok [rule.modifier, Modifier.sweep] := rfl
  have hrun : Modifier.sequence [rule.modifier, Modifier.sweep] { image := ⟨List.ofFn files⟩ } =
      .error (.file "a.proto" fault)
        { image := ⟨[{ first with options := some {} }, second]⟩ } := by
    simp only [rule, first, second, files, fault]
    rfl
  have hswapped : Modifier.sequence [rule.modifier, Modifier.sweep] swapped =
      .error (.file "b.proto" fault)
        { image := ⟨[{ second with options := some {} }, first]⟩ } := by
    simp only [rule, first, second, files, fault, swapped]
    rfl
  obtain ⟨rules, hrules, -, -, hfails⟩ := sequence_build_comp_perm himage hbuild
  obtain ⟨earlier, other, later, rfl, -, hstops⟩ := hfails _ _ hrun
  obtain ⟨error, left, hother, hstops, -⟩ := hstops (Equiv.swap 0 1)
  have hsingle : config.rules = .ok [rule] := rfl
  rw [hsingle] at hrules
  obtain ⟨rfl, rfl⟩ : earlier = [] ∧ rule = other := by
    cases earlier with
    | nil =>
      cases hrules
      exact ⟨rfl, rfl⟩
    | cons first rest => cases rest <;> cases hrules
  cases hswapped.symm.trans hother
  exact ⟨hbuild, hrun, hstops⟩

end Config

end SchemaOptions
