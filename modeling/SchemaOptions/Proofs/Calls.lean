import Mathlib.Data.List.Dedup
import Mathlib.Data.List.DropRight
import Mathlib.Data.List.Forall2
import SchemaOptions.Proofs.Effect

/-!
# Updates and sweeps in a row

Whatever is run on a workspace comes down to two calls: an update of one slot of one file, and a
sweep. A row of calls leaves a row of events, one for each call: the value changed, it did not
(because it was there already or because the slot refused it), or a sweep took place. The events
tell all there is to know about the sweeper and about the locations, at every point of the row:

* the touches are those of the changes since the last sweep (`Call.mem_touches_replay_iff`);
* a value that differs from what it was at some point since the last sweep has a change among them
  (`Call.readSlot_replay`);
* the locations are those of the start, in order, without those of the slots that were changed
  before the last sweep (`Call.sourceInfo_replay`).
-/

namespace SchemaOptions

/-! ## Calls and events -/

/-- The state that an edit leaves, whether it fails or not. -/
def leftBy {σ α : Type} : EStateM.Result EditError σ α → σ
  | .ok _ state => state
  | .error _ state => state

/-- Gives a slot of the file at an index a value, or none. -/
def Modifier.update (index : Nat) (slot : Slot) (value : Option OptionValue) : Modifier :=
  fun workspace =>
    match workspace.image.files[index]? with
    | none => .ok () workspace
    | some file =>
      match updateOption slot value (file, workspace.sweeper) with
      | .ok _ (file, sweeper) =>
        .ok () { workspace with image := ⟨workspace.image.files.set index file⟩, sweeper }
      | .error e (file, sweeper) =>
        .error e { workspace with image := ⟨workspace.image.files.set index file⟩, sweeper }

/-- What everything that runs on a workspace comes down to. -/
inductive Call where
  | update (index : Nat) (slot : Slot) (value : Option OptionValue)
  | sweep
deriving DecidableEq

/-- What a call comes to. -/
inductive Event where
  /-- The file with a path got another value in a slot. -/
  | changed (path : String) (slot : Slot)
  | unchanged
  | swept
deriving DecidableEq

namespace Call

/-- The modifier that makes a call. -/
def modifier : Call → Modifier
  | .update index slot value => Modifier.update index slot value
  | .sweep => Modifier.sweep

/-- The workspace after a call. -/
def run (call : Call) (workspace : Workspace) : Workspace :=
  leftBy (call.modifier workspace)

/-- The event of a call: an update is a change exactly if it says so. -/
def event : Call → Workspace → Event
  | .update index slot value, workspace =>
    match workspace.image.files[index]? with
    | none => .unchanged
    | some file =>
      match updateOption slot value (file, workspace.sweeper) with
      | .ok true _ => .changed file.path slot
      | _ => .unchanged
  | .sweep, _ => .swept

/-- The workspace after calls, one after the other, whether they fail or not. -/
def replay (calls : List Call) (workspace : Workspace) : Workspace :=
  calls.foldl (fun workspace call => call.run workspace) workspace

/-- The events of calls, one for each. -/
def events : List Call → Workspace → List Event
  | [], _ => []
  | call :: rest, workspace => call.event workspace :: events rest (call.run workspace)

theorem replay_append (calls others : List Call) (workspace : Workspace) :
    replay (calls ++ others) workspace = replay others (replay calls workspace) :=
  List.foldl_append

theorem replay_concat (calls : List Call) (call : Call) (workspace : Workspace) :
    replay (calls ++ [call]) workspace = call.run (replay calls workspace) :=
  List.foldl_concat ..

theorem events_append (calls others : List Call) (workspace : Workspace) :
    events (calls ++ others) workspace =
      events calls workspace ++ events others (replay calls workspace) := by
  induction calls generalizing workspace with
  | nil => rfl
  | cons call rest ih => exact congrArg _ (ih _)

theorem events_concat (calls : List Call) (call : Call) (workspace : Workspace) :
    events (calls ++ [call]) workspace =
      events calls workspace ++ [call.event (replay calls workspace)] :=
  events_append calls [call] workspace

end Call

/-! ## One call -/

/-- The sweeper after an event. -/
def Event.noted (sweeper : Sweeper) : Event → Sweeper
  | .changed path slot => sweeper.touch ⟨path, slot.path, .exact⟩
  | .unchanged => sweeper
  | .swept => Sweeper.empty

/-- What an event that is no sweep allows to happen to a file: at most the slot of the file that it
names reads differently. -/
structure Event.Allows (event : Event) (old new : File) : Prop where
  path : new.path = old.path
  sourceInfo : new.sourceInfo = old.sourceInfo
  reading : ∀ slot, new.readSlot slot ≠ old.readSlot slot → event = .changed old.path slot

theorem Event.Allows.refl (event : Event) (file : File) : event.Allows file file :=
  ⟨rfl, rfl, fun _ h => absurd rfl h⟩

/-- A relation that holds of every file and itself, and of one file and a new one, holds of a list
and the list with the new file. -/
theorem forall₂_set {relation : File → File → Prop} (hrefl : ∀ file, relation file file)
    {files : List File} {index : Nat} {file new : File} (hfile : files[index]? = some file)
    (hnew : relation file new) : List.Forall₂ relation files (files.set index new) := by
  induction files generalizing index with
  | nil => exact .nil
  | cons first rest ih =>
    cases index with
    | zero =>
      cases hfile
      exact .cons hnew (List.forall₂_same.2 fun file _ => hrefl file)
    | succ index => exact .cons (hrefl first) (ih hfile)

/-- Relations of files compose along lists. -/
theorem forall₂_comp {first second third : File → File → Prop}
    (hcomp : ∀ a b c, first a b → second b c → third a c) {files middle last : List File}
    (hfirst : List.Forall₂ first files middle) (hsecond : List.Forall₂ second middle last) :
    List.Forall₂ third files last := by
  induction hfirst generalizing last with
  | nil => cases hsecond; exact .nil
  | cons h _ ih =>
    cases hsecond with
    | cons h' hrest => exact .cons (hcomp _ _ _ h h') (ih hrest)

/-- Along lists each file has a partner. -/
theorem exists_of_forall₂ {relation : File → File → Prop} {files others : List File} {other : File}
    (h : List.Forall₂ relation files others) (hmem : other ∈ others) :
    ∃ file, relation file other := by
  induction h with
  | nil => cases hmem
  | cons hfirst _ ih =>
    rcases List.mem_cons.1 hmem with rfl | hrest
    · exact ⟨_, hfirst⟩
    · exact ih hrest

namespace Call

/-- An update is its effect on the file, and its event on the sweeper. -/
theorem update_eq {workspace : Workspace} {index : Nat} {file : File} (slot : Slot)
    (value : Option OptionValue) (hfile : workspace.image.files[index]? = some file) :
    (Call.update index slot value).event workspace =
        (if (file.update slot value).isChange then .changed file.path slot else .unchanged) ∧
      (Call.update index slot value).run workspace = { workspace with
        image := ⟨workspace.image.files.set index ((file.update slot value).file file)⟩
        sweeper := if (file.update slot value).isChange then
          workspace.sweeper.touch (file.slotTouch slot) else workspace.sweeper } := by
  simp only [event, run, modifier, Modifier.update, hfile, updateOption_eq]
  cases file.update slot value <;> exact ⟨rfl, rfl⟩

theorem run_sweeper (call : Call) (workspace : Workspace) :
    (call.run workspace).sweeper = (call.event workspace).noted workspace.sweeper := by
  cases call with
  | sweep => rfl
  | update index slot value =>
    cases hfile : workspace.image.files[index]? with
    | none =>
      simp only [run, modifier, Modifier.update, event, hfile]
      rfl
    | some file =>
      obtain ⟨hevent, hrun⟩ := update_eq slot value hfile
      rw [hevent, hrun]
      cases (file.update slot value).isChange <;> rfl

/-- An update does to the files no more than its event allows. -/
theorem update_allows (index : Nat) (slot : Slot) (value : Option OptionValue)
    (workspace : Workspace) :
    List.Forall₂ ((Call.update index slot value).event workspace).Allows workspace.image.files
      ((Call.update index slot value).run workspace).image.files := by
  cases hfile : workspace.image.files[index]? with
  | none =>
    have hrun : (Call.update index slot value).run workspace = workspace := by
      simp only [run, modifier, Modifier.update, hfile, leftBy]
    rw [hrun]
    exact List.forall₂_same.2 fun file _ => .refl _ file
  | some file =>
    obtain ⟨hevent, hrun⟩ := update_eq slot value hfile
    rw [hevent, hrun]
    refine forall₂_set (Event.Allows.refl _) hfile ?_
    have frame := file.update_frame slot value
    refine ⟨frame.path_eq, frame.sourceInfo_eq, ?_⟩
    intro other hread
    obtain rfl : other = slot := by
      by_contra hne
      exact hread (frame.readSlot_eq fun hmem => hne (List.mem_singleton.1 hmem))
    cases heffect : file.update other value with
    | kept =>
      rw [heffect] at hread
      exact absurd rfl hread
    | changed after => rfl
    | failed error left =>
      obtain ⟨-, -, -, -, rfl⟩ := File.update_eq_failed heffect
      rw [heffect, File.readSlot_eq, File.readSlot_eq] at hread
      exact absurd rfl hread

end Call

/-! ## Events up to the last sweep and since -/

namespace Event

/-- The events since the last sweep; all of them if there was none. -/
def sinceSweep (events : List Event) : List Event :=
  events.rtakeWhile fun event => decide (event ≠ .swept)

/-- The events up to the last sweep. -/
def untilSweep (events : List Event) : List Event :=
  events.rdropWhile fun event => decide (event ≠ .swept)

/-- The file and the slot that an event changed. -/
def change? : Event → Option (String × Slot)
  | .changed path slot => some (path, slot)
  | _ => none

/-- Whether a location of the file with a path is that of a slot that one of the events changed. -/
def outdates (events : List Event) (path : String) (location : Location) : Bool :=
  events.any fun event =>
    event.change?.any fun (file, slot) => file == path && location.path == slot.path

variable {events : List Event} {event : Event}

theorem sinceSweep_concat (h : event ≠ .swept) :
    sinceSweep (events ++ [event]) = sinceSweep events ++ [event] :=
  List.rtakeWhile_concat_pos _ _ _ (decide_eq_true h)

theorem sinceSweep_concat_swept : sinceSweep (events ++ [.swept]) = [] :=
  List.rtakeWhile_concat_neg _ _ _ (by decide)

theorem untilSweep_concat (h : event ≠ .swept) :
    untilSweep (events ++ [event]) = untilSweep events :=
  List.rdropWhile_concat_pos _ _ _ (decide_eq_true h)

theorem untilSweep_concat_swept : untilSweep (events ++ [.swept]) = events ++ [.swept] :=
  List.rdropWhile_concat_neg _ _ _ (by decide)

theorem untilSweep_append_sinceSweep (events : List Event) :
    untilSweep events ++ sinceSweep events = events :=
  List.rdropWhile_append_rtakeWhile ..

theorem change?_eq_some {path : String} {slot : Slot} :
    event.change? = some (path, slot) ↔ event = .changed path slot := by
  cases event <;> simp [change?]

theorem outdates_iff {path : String} {location : Location} :
    outdates events path location = true ↔
      ∃ slot, .changed path slot ∈ events ∧ location.path = slot.path := by
  simp only [outdates, List.any_eq_true, Option.any_eq_true, Prod.exists, Bool.and_eq_true,
    beq_iff_eq, change?_eq_some]
  constructor
  · rintro ⟨_, hmem, _, slot, rfl, rfl, hlocation⟩
    exact ⟨slot, hmem, hlocation⟩
  · rintro ⟨slot, hmem, hlocation⟩
    exact ⟨_, hmem, path, slot, rfl, rfl, hlocation⟩

theorem outdates_append (events others : List Event) (path : String) (location : Location) :
    outdates (events ++ others) path location =
      (outdates events path location || outdates others path location) :=
  List.any_append

end Event

/-! ## What the events tell -/

namespace Call

open Event

variable {start : Workspace} {calls : List Call}

theorem event_eq_swept_iff {call : Call} {workspace : Workspace} :
    call.event workspace = .swept ↔ call = .sweep := by
  cases call with
  | sweep => exact iff_of_true rfl rfl
  | update index slot value =>
    refine iff_of_false ?_ (by simp)
    cases hfile : workspace.image.files[index]? with
    | none => simp [event, hfile]
    | some file =>
      rw [(update_eq slot value hfile).1]
      split <;> simp

/-- The touches are those of the changes since the last sweep. -/
theorem mem_touches_replay_iff (hnew : start.sweeper = Sweeper.empty) {touch : Touch} :
    touch ∈ (replay calls start).sweeper.touches ↔
      ∃ path slot, .changed path slot ∈ sinceSweep (events calls start) ∧
        touch = ⟨path, slot.path, .exact⟩ := by
  induction calls using List.reverseRecOn with
  | nil =>
    rw [replay, List.foldl_nil, hnew]
    exact iff_of_false List.not_mem_nil fun ⟨_, _, h, _⟩ => List.not_mem_nil h
  | append_singleton calls call ih =>
    rw [replay_concat, run_sweeper, events_concat]
    cases hevent : call.event (replay calls start) with
    | changed path slot =>
      rw [sinceSweep_concat (by simp), noted, Sweeper.mem_touches_touch, ih]
      simp only [List.mem_append, List.mem_singleton, or_and_right, exists_or, changed.injEq]
      rw [or_comm]
      refine or_congr_right ⟨?_, ?_⟩
      · rintro rfl
        exact ⟨path, slot, ⟨rfl, rfl⟩, rfl⟩
      · rintro ⟨_, _, ⟨rfl, rfl⟩, htouch⟩
        exact htouch
    | unchanged =>
      rw [sinceSweep_concat (by simp), noted, ih]
      simp only [List.mem_append, List.mem_singleton, reduceCtorEq, or_false]
    | swept =>
      rw [sinceSweep_concat_swept]
      exact iff_of_false List.not_mem_nil fun ⟨_, _, h, _⟩ => List.not_mem_nil h

/-- The touches of a file name the locations of the slots that changed since the last sweep. -/
theorem names_replay (hnew : start.sweeper = Sweeper.empty) (path : String)
    (location : Location) :
    (replay calls start).sweeper.names path location =
      outdates (sinceSweep (events calls start)) path location := by
  refine Bool.eq_iff_iff.2 ?_
  simp only [Sweeper.names, List.any_eq_true, mem_touches_replay_iff hnew, outdates_iff,
    Bool.and_eq_true, beq_iff_eq]
  constructor
  · rintro ⟨_, ⟨_, slot, hmem, rfl⟩, rfl, hnames⟩
    exact ⟨slot, hmem, eq_of_beq hnames⟩
  · rintro ⟨slot, hmem, hlocation⟩
    exact ⟨_, ⟨path, slot, hmem, rfl⟩, rfl, beq_iff_eq.2 hlocation⟩

/-- Each touch is counted once. -/
theorem pending_replay (hnew : start.sweeper = Sweeper.empty) :
    (replay calls start).sweeper.pending =
      ((sinceSweep (events calls start)).filterMap Event.change?).dedup.length := by
  let touchFor (change : String × Slot) : Touch := ⟨change.1, change.2.path, .exact⟩
  have hinjective : Function.Injective touchFor := by
    rintro ⟨path, slot⟩ ⟨other, otherSlot⟩ heq
    obtain ⟨hpath, hslot, -⟩ := Touch.mk.inj heq
    exact Prod.ext hpath (Slot.path_injective hslot)
  have hperm : (replay calls start).sweeper.touches.Perm
      (((sinceSweep (events calls start)).filterMap Event.change?).dedup.map touchFor) := by
    refine (List.perm_ext_iff_of_nodup (replay calls start).sweeper.nodup
      ((List.nodup_dedup _).map hinjective)).2 fun touch => ?_
    simp only [mem_touches_replay_iff hnew, List.mem_map, List.mem_dedup, List.mem_filterMap,
      Prod.exists, change?_eq_some, exists_eq_right, touchFor]
    exact exists_congr fun path => exists_congr fun slot => and_congr_right fun _ => eq_comm
  rw [Sweeper.pending, hperm.length_eq, List.length_map]

/-- A value that differs from what it was at some point since the last sweep was changed since. -/
theorem readSlot_replay {earlier later : List Call} (hlater : Call.sweep ∉ later) :
    List.Forall₂ (fun old new : File => new.path = old.path ∧
        ∀ slot, new.readSlot slot ≠ old.readSlot slot →
          .changed old.path slot ∈ sinceSweep (events (earlier ++ later) start))
      (replay earlier start).image.files (replay (earlier ++ later) start).image.files := by
  induction later using List.reverseRecOn with
  | nil =>
    rw [List.append_nil]
    exact List.forall₂_same.2 fun file _ => ⟨rfl, fun slot h => absurd rfl h⟩
  | append_singleton later call ih =>
    have hlast : call ≠ .sweep :=
      fun heq => hlater (heq ▸ List.mem_append_right _ List.mem_cons_self)
    have hbefore := ih fun hmem => hlater (List.mem_append_left _ hmem)
    rw [← List.append_assoc, replay_concat, events_concat,
      sinceSweep_concat fun heq => hlast (event_eq_swept_iff.1 heq)]
    cases call with
    | sweep => exact absurd rfl hlast
    | update index slot value =>
      refine forall₂_comp ?_ hbefore (update_allows index slot value _)
      rintro old middle new ⟨hpath, hread⟩ hallows
      refine ⟨hallows.path.trans hpath, ?_⟩
      intro other hne
      by_cases hmiddle : middle.readSlot other = old.readSlot other
      · rw [← hmiddle] at hne
        rw [hallows.reading other hne, hpath]
        exact List.mem_append_right _ List.mem_cons_self
      · exact List.mem_append_left _ (hread other hmiddle)

/-- The locations are those of the start without those of the slots that were changed before the
last sweep. -/
theorem sourceInfo_replay (hnew : start.sweeper = Sweeper.empty) :
    List.Forall₂ (fun old new : File => new.path = old.path ∧
        new.sourceInfo = old.sourceInfo.map (List.filter fun location =>
          !outdates (untilSweep (events calls start)) old.path location))
      start.image.files (replay calls start).image.files := by
  induction calls using List.reverseRecOn with
  | nil =>
    refine List.forall₂_same.2 fun file _ => ⟨rfl, ?_⟩
    have hkeep : (List.filter fun location => !outdates (untilSweep []) file.path location) = id :=
      funext fun locations => List.filter_eq_self.2 fun _ _ => rfl
    rw [events, hkeep, Option.map_id_fun, id]
  | append_singleton calls call ih =>
    rw [replay_concat, events_concat]
    cases call with
    | update index slot value =>
      have hevent : (Call.update index slot value).event (replay calls start) ≠ .swept :=
        fun heq => by cases event_eq_swept_iff.1 heq
      rw [untilSweep_concat hevent]
      refine forall₂_comp ?_ ih (update_allows index slot value _)
      rintro old middle new ⟨hpath, hinfo⟩ hallows
      exact ⟨hallows.path.trans hpath, hallows.sourceInfo.trans hinfo⟩
    | sweep =>
      have hswept : ((Call.sweep.run (replay calls start)).image.files) =
          (replay calls start).image.files.map (replay calls start).sweeper.sweepFile := rfl
      rw [hswept, List.forall₂_map_right_iff]
      refine ih.imp fun old middle ⟨hpath, hinfo⟩ => ?_
      rw [Sweeper.sweepFile_eq]
      refine ⟨hpath, ?_⟩
      simp only [hinfo, hpath, Option.map_map, names_replay hnew]
      refine congrArg (Option.map · old.sourceInfo) (funext fun locations => ?_)
      -- what is swept now was changed since the last sweep, what was swept before it was before
      have hsplit (location : Location) :
          outdates (untilSweep (events calls start ++ [.swept])) old.path location =
            (outdates (untilSweep (events calls start)) old.path location ||
              outdates (sinceSweep (events calls start)) old.path location) := by
        rw [untilSweep_concat_swept, outdates_append, ← outdates_append (untilSweep _),
          untilSweep_append_sinceSweep]
        exact Bool.or_false _
      simp only [event, hsplit, Function.comp_apply, List.filter_filter, Bool.not_or, Bool.and_comm]

/-- After a sweep no slot that was ever changed has a location left. -/
theorem locations_after_sweep (hnew : start.sweeper = Sweeper.empty) {path : String} {slot : Slot}
    (hchanged : .changed path slot ∈ events calls start) :
    ∀ file ∈ (replay (calls ++ [.sweep]) start).image.files, file.path = path →
      ∀ locations, file.sourceInfo = some locations →
        ∀ location ∈ locations, location.path ≠ slot.path := by
  have hrows : List.Forall₂ _ _ (replay (calls ++ [.sweep]) start).image.files :=
    sourceInfo_replay hnew
  rw [events_concat] at hrows
  rintro new hmem rfl locations hlocations location hlocation heq
  obtain ⟨old, hpath, hinfo⟩ := exists_of_forall₂ hrows hmem
  rw [hlocations] at hinfo
  obtain ⟨before, -, rfl⟩ := Option.map_eq_some_iff.1 hinfo.symm
  have hstays := (List.mem_filter.1 hlocation).2
  rw [show event .sweep (replay calls start) = .swept from rfl, untilSweep_concat_swept] at hstays
  have hgoes : outdates (events calls start ++ [.swept]) old.path location = true :=
    outdates_iff.2 ⟨slot, List.mem_append_left _ (hpath ▸ hchanged), heq⟩
  rw [hgoes] at hstays
  cases hstays

end Call

/-! ## The account of a row of calls -/

open Call Event in
/-- What the events tell about the workspace after calls on an image with a new sweeper. -/
structure Accounted (image : Image) (calls : List Call) : Prop where
  /-- The touches are those of the changes since the last sweep. -/
  touches : ∀ touch, touch ∈ (replay calls { image }).sweeper.touches ↔
    ∃ path slot, .changed path slot ∈ sinceSweep (events calls { image }) ∧
      touch = ⟨path, slot.path, .exact⟩
  /-- Each file and slot that changed is counted once. -/
  pending : (replay calls { image }).sweeper.pending =
    ((sinceSweep (events calls { image })).filterMap change?).dedup.length
  /-- What differs from any state since the last sweep was changed since. -/
  differing : ∀ earlier later, calls = earlier ++ later → Call.sweep ∉ later →
    List.Forall₂ (fun old new : File => new.path = old.path ∧
        ∀ slot, new.readSlot slot ≠ old.readSlot slot →
          .changed old.path slot ∈ sinceSweep (events calls { image }))
      (replay earlier { image }).image.files (replay calls { image }).image.files
  /-- Right after a sweep nothing that was changed has a location. -/
  swept : ∀ earlier, calls = earlier ++ [.sweep] →
    ∀ path slot, .changed path slot ∈ events earlier { image } →
      ∀ file ∈ (replay calls { image }).image.files, file.path = path →
        ∀ locations, file.sourceInfo = some locations →
          ∀ location ∈ locations, location.path ≠ slot.path
  /-- The locations that went are those of what was changed before the last sweep. -/
  removed : List.Forall₂ (fun old new : File => new.path = old.path ∧
      new.sourceInfo = old.sourceInfo.map (List.filter fun location =>
        !outdates (untilSweep (events calls { image })) old.path location))
    image.files (replay calls { image }).image.files

/-- Every row of calls has its account. -/
theorem Call.accounted (image : Image) (calls : List Call) : Accounted image calls where
  touches := fun _ => mem_touches_replay_iff rfl
  pending := pending_replay rfl
  differing := by
    rintro earlier later rfl hlater
    exact readSlot_replay hlater
  swept := by
    rintro earlier rfl path slot hchanged
    exact locations_after_sweep rfl hchanged
  removed := sourceInfo_replay rfl

end SchemaOptions
