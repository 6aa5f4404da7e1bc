import SchemaOptions.Proofs.Again

/-!
# What a request checks

A request to modify an image goes through seven checks (`Check`). What each of them finds can be
told without the others, as far as there is something to look at (`Modification.Fails`). A request
that gets through all of them writes its output and nothing else (`Modification.Succeeds`). Any
other fails with what its first failing check finds, and leaves the directory and what is around it
as they were (`Directory.runArguments_modify`).
-/

namespace SchemaOptions

/-- The checks of a request to modify an image. -/
inductive Check where
  /-- The configuration, if one is named, can be loaded. -/
  | configuration
  /-- The configuration with what the request says instead has no fault. -/
  | validity
  /-- It enables something. -/
  | emptiness
  /-- The image can be read and decoded. -/
  | image
  /-- The configuration can be put into effect. -/
  | build
  /-- The pass goes through. -/
  | pass
  /-- The image that the pass made can be written. -/
  | output

/-- How many checks are made before one. -/
def Check.rank : Check → Nat
  | .configuration => 0
  | .validity => 1
  | .emptiness => 2
  | .image => 3
  | .build => 4
  | .pass => 5
  | .output => 6

theorem Check.rank_injective {check other : Check} (h : check.rank = other.rank) :
    check = other := by
  cases check <;> cases other <;> first | rfl | cases h

namespace Modification

variable {around : Surroundings}

/-- Whether a check fails, and with which error. -/
inductive Fails (request : Modification) (directory : Directory around) :
    Check → CommandError → Prop where
  | configuration {path : String} {error : LoadError} (hpath : request.config? = some path)
      (hload : Config.loadEntry (directory.entryAt path) = .error error) :
      Fails request directory .configuration (.config path error)
  | validity {loaded : Config} {fault : ConfigurationFault}
      (hload : request.loadConfig directory.entryAt = .ok loaded)
      (hfault : (request.adjust loaded).fault? = some fault) :
      Fails request directory .validity (.edit (.configuration fault))
  | emptiness {loaded : Config} (hload : request.loadConfig directory.entryAt = .ok loaded)
      (hempty : (request.adjust loaded).isEmpty = true) :
      Fails request directory .emptiness .nothingManaged
  | unreadable (hentry : (directory.entryAt request.image).bytes? = none) :
      Fails request directory .image (.imageUnreadable request.image)
  | undecodable {content : List UInt8} {error : ImageError}
      (hentry : (directory.entryAt request.image).bytes? = some content)
      (hdecode : Image.decode content = .error error) :
      Fails request directory .image (.image request.image error)
  | build {loaded : Config} {error : EditError}
      (hload : request.loadConfig directory.entryAt = .ok loaded)
      (hbuild : (request.adjust loaded).build = .error error) :
      Fails request directory .build (.edit error)
  | pass {loaded : Config} {content : List UInt8} {image : Image} {modifiers : List Modifier}
      {error : EditError} {left : Workspace}
      (hload : request.loadConfig directory.entryAt = .ok loaded)
      (hentry : (directory.entryAt request.image).bytes? = some content)
      (hdecode : Image.decode content = .ok image)
      (hbuild : (request.adjust loaded).build = .ok modifiers)
      (hpass : Modifier.sequence modifiers { image } = .error error left) :
      Fails request directory .pass (.edit error)
  | output {loaded : Config} {content : List UInt8} {image : Image} {modifiers : List Modifier}
      {done : Workspace} (hload : request.loadConfig directory.entryAt = .ok loaded)
      (hentry : (directory.entryAt request.image).bytes? = some content)
      (hdecode : Image.decode content = .ok image)
      (hbuild : (request.adjust loaded).build = .ok modifiers)
      (hpass : Modifier.sequence modifiers { image } = .ok () done)
      (hwrite : directory.write? request.output done.image.encode = none) :
      Fails request directory .output (.imageUnwritable request.output)

/-- Whether a request gets through all checks: what it reads, what the pass makes of it, and the
directory after that was written. -/
structure Succeeds (request : Modification) (directory : Directory around) (config : Config)
    (before : Image) (done : Workspace) (after : Directory around) : Prop where
  configuration : ∃ loaded, request.loadConfig directory.entryAt = .ok loaded ∧
    config = request.adjust loaded
  validity : config.fault? = none
  emptiness : config.isEmpty = false
  image : ∃ content, (directory.entryAt request.image).bytes? = some content ∧
    Image.decode content = .ok before
  pass : ∃ modifiers, config.build = .ok modifiers ∧
    Modifier.sequence modifiers { image := before } = .ok () done
  output : directory.write? request.output done.image.encode = some after

/-- Whether some of the checks, those made first, do not fail. -/
def Clears (request : Modification) (directory : Directory around) (count : Nat) : Prop :=
  ∀ check error, check.rank < count → ¬request.Fails directory check error

/-- Whether a check fails and none before it does. -/
def FirstFails (request : Modification) (directory : Directory around) (check : Check)
    (error : CommandError) : Prop :=
  request.Fails directory check error ∧ request.Clears directory check.rank

variable {request : Modification} {directory : Directory around} {loaded : Config}

theorem Clears.zero : request.Clears directory 0 :=
  fun _ _ hrank => absurd hrank (Nat.not_lt_zero _)

/-- One more check that does not fail. -/
theorem Clears.next (check : Check) (h : request.Clears directory check.rank)
    (hcheck : ∀ error, ¬request.Fails directory check error) :
    request.Clears directory (check.rank + 1) := by
  intro other error hrank hfails
  obtain hlt | heq := Nat.lt_or_eq_of_le (Nat.le_of_lt_succ hrank)
  · exact h other error hlt hfails
  · rw [Check.rank_injective heq] at hfails
    exact hcheck error hfails

/-! ## The checks one by one -/

theorem loadConfig_eq_error {entryAt : String → Entry} {error : CommandError}
    (h : request.loadConfig entryAt = .error error) :
    ∃ path fault, request.config? = some path ∧ Config.loadEntry (entryAt path) = .error fault ∧
      error = .config path fault := by
  unfold loadConfig at h
  cases hpath : request.config? with
  | none =>
    rw [hpath] at h
    cases h
  | some path =>
    simp only [hpath] at h
    cases hload : Config.loadEntry (entryAt path) with
    | ok config =>
      rw [hload] at h
      cases h
    | error fault =>
      rw [hload] at h
      cases h
      exact ⟨path, fault, rfl, hload, rfl⟩

theorem not_fails_configuration (hload : request.loadConfig directory.entryAt = .ok loaded)
    (error : CommandError) : ¬request.Fails directory .configuration error := by
  intro hfails
  cases hfails with
  | configuration hpath hfails =>
    simp only [loadConfig, hpath, hfails] at hload
    cases hload

theorem not_fails_validity (hload : request.loadConfig directory.entryAt = .ok loaded)
    (hfault : (request.adjust loaded).fault? = none) (error : CommandError) :
    ¬request.Fails directory .validity error := by
  intro hfails
  cases hfails with
  | validity hother hfails =>
    cases hload.symm.trans hother
    cases hfault.symm.trans hfails

theorem not_fails_emptiness (hload : request.loadConfig directory.entryAt = .ok loaded)
    (hempty : (request.adjust loaded).isEmpty = false) (error : CommandError) :
    ¬request.Fails directory .emptiness error := by
  intro hfails
  cases hfails with
  | emptiness hother hfails =>
    cases hload.symm.trans hother
    cases hempty.symm.trans hfails

theorem not_fails_image {content : List UInt8} {image : Image}
    (hentry : (directory.entryAt request.image).bytes? = some content)
    (hdecode : Image.decode content = .ok image) (error : CommandError) :
    ¬request.Fails directory .image error := by
  intro hfails
  cases hfails with
  | unreadable hother => cases hentry.symm.trans hother
  | undecodable hother hfails =>
    cases hentry.symm.trans hother
    cases hdecode.symm.trans hfails

theorem not_fails_build {modifiers : List Modifier}
    (hload : request.loadConfig directory.entryAt = .ok loaded)
    (hbuild : (request.adjust loaded).build = .ok modifiers) (error : CommandError) :
    ¬request.Fails directory .build error := by
  intro hfails
  cases hfails with
  | build hother hfails =>
    cases hload.symm.trans hother
    cases hbuild.symm.trans hfails

theorem not_fails_pass {content : List UInt8} {image : Image} {modifiers : List Modifier}
    {done : Workspace} (hload : request.loadConfig directory.entryAt = .ok loaded)
    (hentry : (directory.entryAt request.image).bytes? = some content)
    (hdecode : Image.decode content = .ok image)
    (hbuild : (request.adjust loaded).build = .ok modifiers)
    (hpass : Modifier.sequence modifiers { image } = .ok () done) (error : CommandError) :
    ¬request.Fails directory .pass error := by
  intro hfails
  cases hfails with
  | pass hload' hentry' hdecode' hbuild' hfails =>
    cases hload.symm.trans hload'
    cases hentry.symm.trans hentry'
    cases hdecode.symm.trans hdecode'
    cases hbuild.symm.trans hbuild'
    cases hpass.symm.trans hfails

/-! ## The order of the checks -/

/-- A check fails with one error only. -/
theorem Fails.unique {check : Check} {error other : CommandError}
    (h : request.Fails directory check error) (hother : request.Fails directory check other) :
    error = other := by
  cases h with
  | configuration hpath hload =>
    cases hother with
    | configuration hpath' hload' =>
      cases hpath.symm.trans hpath'
      cases hload.symm.trans hload'
      rfl
  | validity hload hfault =>
    cases hother with
    | validity hload' hfault' =>
      cases hload.symm.trans hload'
      cases hfault.symm.trans hfault'
      rfl
  | emptiness => cases hother with | emptiness => rfl
  | unreadable hentry =>
    cases hother with
    | unreadable => rfl
    | undecodable hentry' => cases hentry.symm.trans hentry'
  | undecodable hentry hdecode =>
    cases hother with
    | unreadable hentry' => cases hentry.symm.trans hentry'
    | undecodable hentry' hdecode' =>
      cases hentry.symm.trans hentry'
      cases hdecode.symm.trans hdecode'
      rfl
  | build hload hbuild =>
    cases hother with
    | build hload' hbuild' =>
      cases hload.symm.trans hload'
      cases hbuild.symm.trans hbuild'
      rfl
  | pass hload hentry hdecode hbuild hpass =>
    cases hother with
    | pass hload' hentry' hdecode' hbuild' hpass' =>
      cases hload.symm.trans hload'
      cases hentry.symm.trans hentry'
      cases hdecode.symm.trans hdecode'
      cases hbuild.symm.trans hbuild'
      cases hpass.symm.trans hpass'
      rfl
  | output => cases hother with | output => rfl

/-- Only one check is the first to fail, and with one error. -/
theorem FirstFails.unique {check other : Check} {error fault : CommandError}
    (h : request.FirstFails directory check error)
    (hother : request.FirstFails directory other fault) : error = fault := by
  obtain hlt | heq | hgt := Nat.lt_trichotomy check.rank other.rank
  · exact absurd h.1 (hother.2 check error hlt)
  · cases Check.rank_injective heq
    exact h.1.unique hother.1
  · exact absurd hother.1 (h.2 other fault hgt)

/-- A request that gets through all checks fails none. -/
theorem Succeeds.not_fails {config : Config} {before : Image} {done : Workspace}
    {after : Directory around} (h : request.Succeeds directory config before done after)
    (check : Check) (error : CommandError) : ¬request.Fails directory check error := by
  obtain ⟨⟨loaded, hload, rfl⟩, hfault, hempty, ⟨content, hentry, hdecode⟩,
    ⟨modifiers, hbuild, hpass⟩, hwrite⟩ := h
  cases check with
  | configuration => exact not_fails_configuration hload error
  | validity => exact not_fails_validity hload hfault error
  | emptiness => exact not_fails_emptiness hload hempty error
  | image => exact not_fails_image hentry hdecode error
  | build => exact not_fails_build hload hbuild error
  | pass => exact not_fails_pass hload hentry hdecode hbuild hpass error
  | output =>
    intro hfails
    cases hfails with
    | output hload' hentry' hdecode' hbuild' hpass' hfails =>
      cases hload.symm.trans hload'
      cases hentry.symm.trans hentry'
      cases hdecode.symm.trans hdecode'
      cases hbuild.symm.trans hbuild'
      cases hpass.symm.trans hpass'
      cases hwrite.symm.trans hfails

/-- What a request that succeeds reads and makes is determined. -/
theorem Succeeds.unique {config config' : Config} {before before' : Image}
    {done done' : Workspace} {after after' : Directory around}
    (h : request.Succeeds directory config before done after)
    (hother : request.Succeeds directory config' before' done' after') :
    before = before' ∧ done = done' ∧ after = after' := by
  obtain ⟨⟨loaded, hload, rfl⟩, -, -, ⟨content, hentry, hdecode⟩, ⟨modifiers, hbuild, hpass⟩,
    hwrite⟩ := h
  obtain ⟨⟨loaded', hload', rfl⟩, -, -, ⟨content', hentry', hdecode'⟩,
    ⟨modifiers', hbuild', hpass'⟩, hwrite'⟩ := hother
  cases hload.symm.trans hload'
  cases hentry.symm.trans hentry'
  cases hdecode.symm.trans hdecode'
  cases hbuild.symm.trans hbuild'
  cases hpass.symm.trans hpass'
  cases hwrite.symm.trans hwrite'
  exact ⟨rfl, rfl, rfl⟩

/-- The configuration of a request clears the first three checks, or one of them fails. -/
theorem config_cases (request : Modification) (directory : Directory around) :
    (∃ loaded, request.loadConfig directory.entryAt = .ok loaded ∧
      (request.adjust loaded).fault? = none ∧ (request.adjust loaded).isEmpty = false ∧
      request.Clears directory 3 ∧
      request.config directory.entryAt = .ok (request.adjust loaded)) ∨
    ∃ check error, request.FirstFails directory check error ∧
      request.config directory.entryAt = .error error := by
  unfold config
  cases hload : request.loadConfig directory.entryAt with
  | error error =>
    obtain ⟨path, fault, hpath, hfails, rfl⟩ := loadConfig_eq_error hload
    exact .inr ⟨.configuration, _, ⟨.configuration hpath hfails, Clears.zero⟩, rfl⟩
  | ok loaded =>
    have hfirst : request.Clears directory 1 :=
      Clears.next .configuration Clears.zero (not_fails_configuration hload)
    cases hfault : (request.adjust loaded).fault? with
    | some fault =>
      refine .inr ⟨.validity, _, ⟨.validity hload hfault, hfirst⟩, ?_⟩
      simp only [bind, Except.bind, hfault]
    | none =>
      have hsecond : request.Clears directory 2 :=
        Clears.next .validity hfirst (not_fails_validity hload hfault)
      cases hempty : (request.adjust loaded).isEmpty with
      | true =>
        refine .inr ⟨.emptiness, _, ⟨.emptiness hload hempty, hsecond⟩, ?_⟩
        simp only [bind, Except.bind, hfault, hempty, if_true]
      | false =>
        refine .inl ⟨loaded, rfl, hfault, hempty, ?_, ?_⟩
        · exact Clears.next .emptiness hsecond (not_fails_emptiness hload hempty)
        · simp only [bind, Except.bind, hfault, hempty, Bool.false_eq_true, if_false]

/-- The image at the path of a request is there, or the check of the image fails. -/
theorem load_cases (request : Modification) (directory : Directory around) :
    (∃ content before, (directory.entryAt request.image).bytes? = some content ∧
      Image.decode content = .ok before ∧
      Image.load directory.entryAt request.image = .ok before) ∨
    ∃ error, request.Fails directory .image error ∧
      Image.load directory.entryAt request.image = .error error := by
  unfold Image.load
  cases hentry : (directory.entryAt request.image).bytes? with
  | none => exact .inr ⟨_, .unreadable hentry, rfl⟩
  | some content =>
    cases hdecode : Image.decode content with
    | error error =>
      refine .inr ⟨_, .undecodable hentry hdecode, ?_⟩
      simp only [hdecode, Except.mapError]
    | ok before =>
      refine .inl ⟨content, before, rfl, hdecode, ?_⟩
      simp only [hdecode, Except.mapError]

/-- The pass of a configuration that clears the first checks goes through, or the first thing to
fail is to put it into effect or the pass. -/
theorem apply_cases {content : List UInt8} {before : Image}
    (hload : request.loadConfig directory.entryAt = .ok loaded)
    (hentry : (directory.entryAt request.image).bytes? = some content)
    (hdecode : Image.decode content = .ok before) (hclears : request.Clears directory 4) :
    (∃ modifiers done, (request.adjust loaded).build = .ok modifiers ∧
      Modifier.sequence modifiers { image := before } = .ok () done ∧
      request.Clears directory 6 ∧ (request.adjust loaded).apply before = .ok done.image) ∨
    ∃ check error, request.FirstFails directory check (.edit error) ∧
      (request.adjust loaded).apply before = .error error := by
  unfold Config.apply
  cases hbuild : (request.adjust loaded).build with
  | error error => exact .inr ⟨.build, error, ⟨.build hload hbuild, hclears⟩, rfl⟩
  | ok modifiers =>
    have hbuilds : request.Clears directory 5 :=
      Clears.next .build hclears (not_fails_build hload hbuild)
    cases hpass : Modifier.sequence modifiers { image := before } with
    | error error left =>
      refine .inr ⟨.pass, error, ⟨.pass hload hentry hdecode hbuild hpass, hbuilds⟩, ?_⟩
      simp only [bind, Except.bind, hpass]
    | ok _ done =>
      refine .inl ⟨modifiers, done, rfl, hpass, ?_, ?_⟩
      · exact Clears.next .pass hbuilds
          (not_fails_pass hload hentry hdecode hbuild hpass)
      · simp only [bind, Except.bind, hpass]

end Modification

/-! ## Running a request -/

namespace Directory

variable {around : Surroundings} {request : Modification} {directory after : Directory around}

/-- A request gets through all checks, or one of them is the first to fail. -/
theorem run_modify_cases (directory : Directory around) (request : Modification) :
    (∃ config before done after, request.Succeeds directory config before done after ∧
      directory.run (.modify request) = (.success
        s!"Files: {done.image.size}\nTouched: {before.touched done.image}\n", after)) ∨
    ∃ check error, request.FirstFails directory check error ∧
      directory.run (.modify request) = (.failure error, directory) := by
  obtain ⟨loaded, hload, hfault, hempty, hthree, hconfig⟩ | ⟨check, error, hfails, hconfig⟩ :=
    Modification.config_cases request directory
  · obtain ⟨content, before, hentry, hdecode, hbefore⟩ | ⟨error, hfails, hbefore⟩ :=
      Modification.load_cases request directory
    · have hfour : request.Clears directory 4 :=
        Modification.Clears.next .image hthree
          (Modification.not_fails_image hentry hdecode)
      obtain ⟨modifiers, done, hbuild, hpass, hsix, happly⟩ | ⟨check, error, hfails, happly⟩ :=
        Modification.apply_cases hload hentry hdecode hfour
      · have houtcome : request.outcome directory.entryAt = .ok {
            file? := some (request.output, done.image.encode)
            text := s!"Files: {done.image.size}\nTouched: {before.touched done.image}\n" } := by
          simp only [Modification.outcome, bind, Except.bind, hconfig, hbefore, happly,
            Except.mapError, pure, Except.pure]
        have hrun := run_modify_of_ok houtcome rfl
        cases hwrite : directory.write? request.output done.image.encode with
        | none =>
          refine .inr ⟨.output, _,
            ⟨.output hload hentry hdecode hbuild hpass hwrite, hsix⟩, ?_⟩
          simp only [hrun, hwrite]
        | some after =>
          refine .inl ⟨request.adjust loaded, before, done, after, ?_, ?_⟩
          · exact ⟨⟨loaded, hload, rfl⟩, hfault, hempty, ⟨content, hentry, hdecode⟩,
              ⟨modifiers, hbuild, hpass⟩, hwrite⟩
          · simp only [hrun, hwrite]
      · refine .inr ⟨check, .edit error, hfails, run_modify_of_error ?_⟩
        simp only [Modification.outcome, bind, Except.bind, hconfig, hbefore, happly,
          Except.mapError]
    · refine .inr ⟨.image, error, ⟨hfails, hthree⟩, run_modify_of_error ?_⟩
      simp only [Modification.outcome, bind, Except.bind, hconfig, hbefore]
  · refine .inr ⟨check, error, hfails, run_modify_of_error ?_⟩
    simp only [Modification.outcome, bind, Except.bind, hconfig]

/-- What is printed and left by a request that gets through all checks. -/
theorem run_modify_of_succeeds {config : Config} {before : Image} {done : Workspace}
    (h : request.Succeeds directory config before done after) :
    directory.run (.modify request) = (.success
      s!"Files: {done.image.size}\nTouched: {before.touched done.image}\n", after) := by
  obtain ⟨config', before', done', after', hsucceeds, hrun⟩ | ⟨check, error, hfails, -⟩ :=
    run_modify_cases directory request
  · obtain ⟨rfl, rfl, rfl⟩ := h.unique hsucceeds
    exact hrun
  · exact absurd hfails.1 (h.not_fails check error)

/-- A request to modify an image does all or nothing. It exits with 0 exactly if it gets through all
checks. Then the file to which its output leads holds the bytes of what the pass makes of the
decoded image, and nothing else changes; if it leads out of the directory, no file of the directory
changes. Otherwise the request exits with 1, with what the first failing check finds, and nothing
changes at all. -/
theorem runArguments_modify {args : List String}
    (hargs : Request.ofArguments args = .run (.modify request)) (directory : Directory around) :
    let result := directory.runArguments args
    (result.1.exitCode = 0 ↔
      ∃ config before done after, request.Succeeds directory config before done after) ∧
    (∀ config before done after, request.Succeeds directory config before done after →
      result = (.success
        s!"Files: {done.image.size}\nTouched: {before.touched done.image}\n", after) ∧
      (∀ name, around.destination request.output = .name name →
        after.get? name = some done.image.encode ∧
        (∀ other, other ≠ name → after.get? other = directory.get? other) ∧
        after.outside = directory.outside) ∧
      ((∀ name, around.destination request.output ≠ .name name) →
        after.files = directory.files ∧ after.outside =
          around.write directory.outside request.output done.image.encode)) ∧
    (result.1.exitCode ≠ 0 → result.1.exitCode = 1 ∧ result.2 = directory) ∧
    ∀ error, result.1 = .failure error ↔ ∃ check, request.FirstFails directory check error := by
  intro result
  have hdirectory : result = directory.run (.modify request) := by
    show directory.runArguments args = _
    unfold runArguments
    rw [hargs]
  obtain ⟨config, before, done, after, hsucceeds, hrun⟩ | ⟨check, error, hfails, hrun⟩ :=
    run_modify_cases directory request
  · have hresult := hdirectory.trans hrun
    refine ⟨?_, ?_, ?_, ?_⟩
    · refine ⟨fun _ => ⟨config, before, done, after, hsucceeds⟩, fun _ => ?_⟩
      rw [hresult]
      rfl
    · intro config' before' done' after' hother
      exact ⟨hdirectory.trans (run_modify_of_succeeds hother), get?_of_write? hother.output⟩
    · intro hexit
      rw [hresult] at hexit
      exact absurd rfl hexit
    · intro fault
      constructor
      · intro hfailure
        rw [hresult] at hfailure
        cases hfailure
      · rintro ⟨check, hfails, -⟩
        exact absurd hfails (hsucceeds.not_fails check fault)
  · have hresult := hdirectory.trans hrun
    have hnone : ¬∃ config before done after,
        request.Succeeds directory config before done after := by
      rintro ⟨config, before, done, after, hsucceeds⟩
      exact hsucceeds.not_fails check error hfails.1
    refine ⟨?_, ?_, ?_, ?_⟩
    · refine ⟨fun hexit => ?_, fun h => absurd h hnone⟩
      rw [hresult] at hexit
      cases hexit
    · intro config before done after hsucceeds
      exact absurd ⟨config, before, done, after, hsucceeds⟩ hnone
    · intro _
      rw [hresult]
      exact ⟨rfl, rfl⟩
    · intro fault
      rw [hresult]
      constructor
      · intro hfailure
        cases hfailure
        exact ⟨check, hfails⟩
      · rintro ⟨other, hother⟩
        rw [hfails.unique hother]

/-- Arguments that ask for Go packages, in a directory with an image and in an empty one. -/
theorem runArguments_modify_goPackage :
    let args := ["modify", "--image", "in", "--output", "out", "--go-package-prefix", "x"]
    let request : Modification := { image := "in", output := "out", importPrefix? := some "x" }
    let directory : Directory .bare := ⟨[("in", [10, 3, 10, 1, 97])], ()⟩
    let empty : Directory .bare := ⟨[], ()⟩
    Request.ofArguments args = .run (.modify request) ∧
    (directory.runArguments args).1.exitCode = 0 ∧
    (directory.runArguments args).2.get? "out" = some [10, 8, 10, 1, 97, 66, 3, 90, 1, 120] ∧
    (empty.runArguments args).1 = .failure (.imageUnreadable "in") := by
  intro args request directory empty
  have hargs : Request.ofArguments args = .run (.modify request) := by rfl
  have hentry : directory.entryAt "in" = .file [10, 3, 10, 1, 97] := by decide
  have hbytes : (directory.entryAt request.image).bytes? = some [10, 3, 10, 1, 97] := by
    simp only [request, hentry, Entry.bytes?]
  have hdecode : Image.decode [10, 3, 10, 1, 97] = .ok ⟨[{ name := some "a" }]⟩ := by
    with_unfolding_all rfl
  have hfault : (request.adjust Config.default).fault? = none := by rfl
  have hempty : (request.adjust Config.default).isEmpty = false := by rfl
  obtain ⟨modifiers, done, hbuild, hpass, himage⟩ := Config.apply_eq_ok_iff.1 (show
    (request.adjust Config.default).apply ⟨[{ name := some "a" }]⟩ =
      .ok ⟨[{ name := some "a", options := some { goPackage := some "x" } }]⟩ by rfl)
  have hencode : done.image.encode = [10, 8, 10, 1, 97, 66, 3, 90, 1, 120] := by
    rw [himage]
    decide +kernel
  have hname : Surroundings.bare.destination "out" = .name "out" := by decide
  obtain ⟨after, hwrite⟩ : ∃ after,
      directory.write? request.output done.image.encode = some after := by
    rw [hencode]
    exact ⟨_, write?_of_name hname (by decide)⟩
  have hsucceeds : request.Succeeds directory (request.adjust Config.default)
      ⟨[{ name := some "a" }]⟩ done after :=
    ⟨⟨_, rfl, rfl⟩, hfault, hempty, ⟨_, hbytes, hdecode⟩, ⟨modifiers, hbuild, hpass⟩, hwrite⟩
  obtain ⟨hexit, hwrites, -, -⟩ := runArguments_modify hargs directory
  obtain ⟨hrun, hfile, -⟩ := hwrites _ _ _ _ hsucceeds
  obtain ⟨-, -, -, hfails⟩ := runArguments_modify hargs empty
  refine ⟨hargs, hexit.2 ⟨_, _, _, _, hsucceeds⟩, ?_, (hfails _).2 ⟨.image, ?_, ?_⟩⟩
  · rw [hrun, (hfile "out" hname).1, hencode]
  · exact .unreadable (by decide)
  · have hload : request.loadConfig empty.entryAt = .ok Config.default := rfl
    exact Modification.Clears.next .emptiness
      (Modification.Clears.next .validity
        (Modification.Clears.next .configuration Modification.Clears.zero
          (Modification.not_fails_configuration hload))
        (Modification.not_fails_validity hload hfault))
      (Modification.not_fails_emptiness hload hempty)

end Directory

end SchemaOptions
