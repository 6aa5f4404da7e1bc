import SchemaOptions.Proofs.Checks
import SchemaOptions.Proofs.Grammar
import SchemaOptions.Proofs.Saving

/-!
# Settings in a request and in a configuration

A request can say itself where the Go import paths start and how many workers there are, instead of
what its configuration says. It might as well name another configuration that says so
(`Modification.Absorbed`), which can be had as bytes: what a caller sees of the two requests is the
same (`Directory.sees_absorbed`). Neither the number of workers nor the version of a configuration
makes a difference (`Config.SameSections`).
-/

namespace SchemaOptions

/-! ## Configurations with the same sections -/

namespace Config

variable {config other : Config}

/-- Whether two configurations enable the same sections and say the same in each. -/
def SameSections (config other : Config) : Prop :=
  other = { config with version := other.version, jobs := other.jobs }

theorem SameSections.isEmpty_eq (h : config.SameSections other) :
    other.isEmpty = config.isEmpty := by
  rw [h]
  rfl

theorem SameSections.apply_eq (h : config.SameSections other) (image : Image) :
    other.apply image = config.apply image := by
  rw [h]
  rfl

/-- The one fault of a configuration is to ask for no workers. -/
theorem fault?_eq_none_iff : config.fault? = none ↔ config.jobs ≠ some 0 := by
  unfold fault?
  split
  · rename_i hjobs
    exact iff_of_false nofun fun hne => hne hjobs
  · rename_i hjobs
    exact iff_of_true rfl hjobs

/-- What is loaded has no fault. -/
theorem fault?_of_loadEntry {entry : Entry} (h : loadEntry entry = .ok config) :
    config.fault? = none := by
  have hload : load entry.bytes? = .ok config := by
    cases entry with
    | directory => cases h
    | file content => exact h
    | missing => exact h
  unfold load at hload
  split at hload
  · cases hload
  · split at hload
    · cases hload
    · split at hload
      · cases hload
      · cases hload
        assumption

/-- A configuration without a fault is loaded from a file of its bytes. -/
theorem loadEntry_save (h : config.fault? = none) :
    loadEntry (.file config.save) = .ok config := by
  simp only [loadEntry, Entry.bytes?, load, ofBytes?_save, h]

end Config

/-! ## Requests with the same settings -/

namespace Modification

variable {request other : Modification} {entryAt otherAt : String → Entry}
  {loaded edited : Config}

theorem fault?_of_loadConfig (h : request.loadConfig entryAt = .ok loaded) :
    loaded.fault? = none := by
  unfold loadConfig at h
  split at h
  · cases h
    rfl
  · exact Config.fault?_of_loadEntry (mapError_eq_ok_iff.1 h)

/-- Whether a configuration says itself what a request says instead of what another does. -/
structure Absorbed (request : Modification) (loaded edited : Config) : Prop where
  /-- The prefix is the one of the request, and the names of single files stay. -/
  importPrefix : ∀ importPrefix, request.importPrefix? = some importPrefix →
    edited.goPackage = some {
      importPrefix, overrides := (loaded.goPackage.map GoSection.overrides).getD .empty }
  noImportPrefix : request.importPrefix? = none → edited.goPackage = loaded.goPackage
  jobs : edited.jobs = request.jobs?.or loaded.jobs
  /-- The other sections are the same. -/
  others : edited = { loaded with
    version := edited.version, jobs := edited.jobs, goPackage := edited.goPackage }

theorem adjust_eq (request : Modification) (loaded : Config) :
    request.adjust loaded = { loaded with
      jobs := request.jobs?.or loaded.jobs
      goPackage := request.importPrefix?.elim loaded.goPackage fun importPrefix => some {
        importPrefix, overrides := (loaded.goPackage.map GoSection.overrides).getD .empty } } := by
  unfold adjust
  cases request.importPrefix? <;> cases request.jobs? <;> rfl

/-- What a request makes of a configuration is one that says it itself. -/
theorem absorbed_adjust (request : Modification) (loaded : Config) :
    request.Absorbed loaded (request.adjust loaded) := by
  rw [adjust_eq]
  refine ⟨fun importPrefix hgiven => ?_, fun hnone => ?_, rfl, rfl⟩
  · rw [hgiven, Option.elim_some]
  · rw [hnone, Option.elim_none]

/-- A configuration that says what a request says has the sections that the request makes. -/
theorem Absorbed.sameSections (h : request.Absorbed loaded edited) :
    (request.adjust loaded).SameSections edited := by
  have hgo : edited.goPackage = (request.adjust loaded).goPackage := by
    cases hgiven : request.importPrefix? with
    | none => rw [h.noImportPrefix hgiven, (absorbed_adjust ..).noImportPrefix hgiven]
    | some importPrefix => rw [h.importPrefix _ hgiven, (absorbed_adjust ..).importPrefix _ hgiven]
  rw [adjust_eq] at hgo ⊢
  rw [Config.SameSections, ← hgo]
  exact h.others

/-- A request that does not ask for no workers brings no fault into a configuration. -/
theorem fault?_adjust (hjobs : request.jobs? ≠ some 0) (h : loaded.fault? = none) :
    (request.adjust loaded).fault? = none := by
  rw [Config.fault?_eq_none_iff] at h ⊢
  rw [(absorbed_adjust request loaded).jobs]
  cases hflag : request.jobs? with
  | none => rwa [Option.none_or]
  | some jobs => rwa [Option.some_or, ← hflag]

theorem config_of_load (hload : request.loadConfig entryAt = .ok loaded)
    (hvalid : (request.adjust loaded).fault? = none) :
    request.config entryAt = if (request.adjust loaded).isEmpty then .error .nothingManaged
      else .ok (request.adjust loaded) := by
  rw [config, hload]
  simp only [bind, Except.bind, hvalid]

/-- Requests with the same settings come to the same. -/
theorem outcome_congr (hload : request.loadConfig entryAt = .ok loaded)
    (hvalid : (request.adjust loaded).fault? = none)
    (hother : other.loadConfig otherAt = .ok edited)
    (hfault : (other.adjust edited).fault? = none)
    (same : (request.adjust loaded).SameSections (other.adjust edited))
    (himage : other.image = request.image) (houtput : other.output = request.output)
    (hentry : otherAt request.image = entryAt request.image) :
    other.outcome otherAt = request.outcome entryAt := by
  have hbefore : Image.load otherAt other.image = Image.load entryAt request.image := by
    rw [himage, Image.load, Image.load, hentry]
  unfold outcome
  rw [config_of_load hload hvalid, config_of_load hother hfault, same.isEmpty_eq, hbefore, houtput]
  split
  · rfl
  · show (Image.load entryAt request.image >>= fun before => _) =
      (Image.load entryAt request.image >>= fun before => _)
    simp only [same.apply_eq]

end Modification

/-! ## What a caller sees -/

namespace Directory

variable {around : Surroundings} {directory edited : Directory around}
variable {request other : Modification}

/-- What a caller sees of a request to modify an image: its report, and the bytes that it writes to
its output if it does. -/
inductive Sees (directory : Directory around) (request : Modification) :
    Report → Option (List UInt8) → Prop where
  | success {text : String} {content : List UInt8} {after : Directory around}
      (run : directory.run (.modify request) = (.success text, after))
      (write : directory.write? request.output content = some after) :
      Sees directory request (.success text) (some content)
  /-- Nothing is written, and nothing else changes either. -/
  | failure {error : CommandError}
      (run : directory.run (.modify request) = (.failure error, directory)) :
      Sees directory request (.failure error) none

/-- A caller sees the same of requests that come to the same. -/
theorem sees_of_outcome (houtput : other.output = request.output)
    (houtcome : other.outcome edited.entryAt = request.outcome directory.entryAt) :
    ∃ report written?, directory.Sees request report written? ∧
      edited.Sees other report written? := by
  cases hrequest : request.outcome directory.entryAt with
  | error error =>
    exact ⟨_, _, .failure (run_modify_of_error hrequest),
      .failure (run_modify_of_error (houtcome.trans hrequest))⟩
  | ok outcome =>
    obtain ⟨-, -, image, -, -, -, hfile⟩ := Modification.outcome_eq_ok hrequest
    have hrun := run_modify_of_ok hrequest hfile
    have hother := run_modify_of_ok (houtcome.trans hrequest) (houtput.symm ▸ hfile)
    -- The bytes can be written in both directories or in neither.
    have hwritable := isSome_write?_eq directory edited request.output image.encode
    rw [houtput] at hother
    cases hwrite : directory.write? request.output image.encode with
    | none =>
      rw [hwrite, Option.isSome_none, Option.isSome_eq_false_iff, Option.isNone_iff_eq_none]
        at hwritable
      simp only [hwrite] at hrun
      simp only [hwritable] at hother
      exact ⟨_, _, .failure hrun, .failure hother⟩
    | some after =>
      rw [hwrite, Option.isSome_some] at hwritable
      obtain ⟨last, hlast⟩ := Option.isSome_iff_exists.1 hwritable
      simp only [hwrite] at hrun
      simp only [hlast] at hother
      exact ⟨_, _, .success hrun hwrite, .success hother (houtput.symm ▸ hlast)⟩

/-- It makes no difference to a caller whether a request says where the Go import paths start and
how many workers there are, or names a configuration that says so. Such a configuration can be had,
and names of single files that the first one gives stay in it. Moreover the numbers of workers that
a request and its configuration ask for make no difference at all. -/
theorem sees_absorbed {loaded : Config} (hload : request.loadConfig directory.entryAt = .ok loaded)
    (hjobs : request.jobs? ≠ some 0) :
    (∃ content config, Config.loadEntry (.file content) = .ok config ∧
      request.Absorbed loaded config) ∧
    (∀ (edited : Directory around) (path : String) (config : Config),
      Config.loadEntry (edited.entryAt path) = .ok config → request.Absorbed loaded config →
      edited.entryAt request.image = directory.entryAt request.image →
      ∃ report written?, directory.Sees request report written? ∧
        edited.Sees { image := request.image, output := request.output, config? := some path }
          report written?) ∧
    ∀ (edited : Directory around) (jobs? other? : Option UInt64),
      request.loadConfig edited.entryAt = .ok { loaded with jobs := jobs? } → other? ≠ some 0 →
      edited.entryAt request.image = directory.entryAt request.image →
      ∃ report written?, directory.Sees request report written? ∧
        edited.Sees { request with jobs? := other? } report written? := by
  have hvalid := Modification.fault?_adjust hjobs (Modification.fault?_of_loadConfig hload)
  refine ⟨?_, fun edited path config hconfig habsorbed hentry => ?_,
    fun edited jobs? other? hconfig hother hentry => ?_⟩
  · exact ⟨_, _, Config.loadEntry_save hvalid, request.absorbed_adjust loaded⟩
  · let other : Modification :=
      { image := request.image, output := request.output, config? := some path }
    have hother : other.loadConfig edited.entryAt = .ok config := mapError_eq_ok_iff.2 hconfig
    exact sees_of_outcome rfl (Modification.outcome_congr hload hvalid hother
      (Config.fault?_of_loadEntry hconfig) habsorbed.sameSections rfl rfl hentry)
  · let other : Modification := { request with jobs? := other? }
    have hfault : (other.adjust { loaded with jobs := jobs? }).fault? = none :=
      Modification.fault?_adjust hother (Modification.fault?_of_loadConfig hconfig)
    refine sees_of_outcome rfl
      (Modification.outcome_congr hload hvalid hconfig hfault ?_ rfl rfl hentry)
    rw [Config.SameSections, Modification.adjust_eq, Modification.adjust_eq]

/-- A prefix in a request takes the place of one that could not be put into effect, and the name of
a file stays. -/
theorem sees_absorbed_badPrefix :
    let names : PackageNames := ⟨[("a", "b")], List.pairwise_singleton _ _⟩
    let loaded : Config := { goPackage := some ⟨";", names⟩ }
    let config : Config := { jobs := some 2, goPackage := some ⟨"x", names⟩ }
    let directory : Directory .bare :=
      ⟨[("in", [10, 3, 10, 1, 97]), ("old", loaded.save), ("new", config.save)], ()⟩
    let request : Modification :=
      { image := "in", output := "out", config? := some "old", jobs? := some 2,
        importPrefix? := some "x" }
    let other : Modification := { image := "in", output := "out", config? := some "new" }
    request.loadConfig directory.entryAt = .ok loaded ∧ request.jobs? ≠ some 0 ∧
      loaded.build = .error (.configuration (.importPrefix ";" (.invalidCharacter ';'))) ∧
      ∃ text content, directory.Sees request (.success text) (some content) ∧
        directory.Sees other (.success text) (some content) := by
  intro names loaded config directory request other
  have hnames : ∀ name ∈ ["in", "out", "old", "new"],
      Surroundings.bare.destination name = .name name := by decide
  have hold : directory.entryAt "old" = .file loaded.save :=
    entryAt_of_get? (hnames "old" (by decide)) rfl
  have hnew : directory.entryAt "new" = .file config.save :=
    entryAt_of_get? (hnames "new" (by decide)) rfl
  have hin : directory.entryAt "in" = .file [10, 3, 10, 1, 97] :=
    entryAt_of_get? (hnames "in" (by decide)) rfl
  have hvalid : loaded.fault? = none := rfl
  have hload : request.loadConfig directory.entryAt = .ok loaded := by
    simp only [request, Modification.loadConfig, hold, Config.loadEntry_save hvalid]
    rfl
  have hconfig : Config.loadEntry (directory.entryAt "new") = .ok config := by
    rw [hnew]
    exact Config.loadEntry_save rfl
  have hbad : loaded.build = .error (.configuration (.importPrefix ";" (.invalidCharacter ';'))) :=
    Config.build_eq_error_iff.2 ⟨_, rfl, .goPackage rfl (.importPrefix (by decide))⟩
  have himage : Image.load directory.entryAt "in" = .ok ⟨[{ name := some "a" }]⟩ :=
    Image.load_eq_ok_iff.2 ⟨_, hin, by with_unfolding_all rfl⟩
  have happly : config.apply ⟨[{ name := some "a" }]⟩ =
      .ok ⟨[{ name := some "a", options := some { goPackage := some "x;b" } }]⟩ := by
    simp only [config, names]
    rfl
  have hjobs : request.jobs? ≠ some 0 := by
    show some (2 : UInt64) ≠ some 0
    decide
  have habsorbed : request.Absorbed loaded config := request.absorbed_adjust loaded
  refine ⟨hload, hjobs, hbad, ?_⟩
  obtain ⟨report, written?, hrequest, hother⟩ :=
    (sees_absorbed hload hjobs).2.1 directory "new" config hconfig habsorbed rfl
  have hsettings : request.config directory.entryAt = .ok config :=
    Modification.config_of_load hload rfl
  have hencode : Image.encode
      ⟨[{ name := some "a", options := some { goPackage := some "x;b" } }]⟩ =
      [10, 10, 10, 1, 97, 66, 5, 90, 3, 120, 59, 98] := by decide +kernel
  obtain ⟨after, hwrite⟩ : ∃ after, directory.write? request.output (Image.encode
      ⟨[{ name := some "a", options := some { goPackage := some "x;b" } }]⟩) = some after := by
    rw [hencode]
    exact ⟨_, write?_of_name (hnames "out" (by decide)) (by decide)⟩
  obtain ⟨text, hrun⟩ := run_modify_of_apply hsettings himage happly hwrite
  cases hrequest with
  | success run write => exact ⟨_, _, .success run write, hother⟩
  | failure run => cases hrun.symm.trans run

end Directory

end SchemaOptions
