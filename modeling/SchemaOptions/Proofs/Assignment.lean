import SchemaOptions.Proofs.Bytes

/-!
# Assigning to slots

What a slot is says which field it stands for, so nothing can be stored in a field of another kind.
One can also take slots for mere names: compare the kinds, pick a field by the kind of the value, or
of the slot if it is to be unset, and stop if the slot has no field of that kind (`Slot.assign`,
`Slot.unassign`). That comes to the same: the only stop is the refusal of a value, which leaves the
block as it was (`Slot.assign_eq`, `Slot.unassign_eq`).

A slot that was assigned to reads as the value, nothing else of the block is different (`SameBut`),
and nothing is left of an earlier value (`Slot.written_written`). So assignments to different slots
do not notice each other (`Slot.attempt_comm`).
-/

namespace SchemaOptions

open SchemaOptions.Wire

/-! ## Picking fields -/

/-- Why an edit of a block stops. -/
inductive BlockStop where
  /-- The slot does not take the value. -/
  | refused (fault : SlotFault)
  /-- The slot has no field of the kind that is asked for. -/
  | noField (slot : Slot) (kind : OptionKind)
deriving DecidableEq

/-- An edit of a block of options; the block that it leaves is there even if it stops. -/
abbrev BlockEdit (α : Type) := EStateM BlockStop FileOptions α

namespace Slot

/-- The field of a slot for texts. -/
def textField : Slot → BlockEdit TextSlot
  | .text field => pure field
  | slot => throw (.noField slot .text)

/-- The field of a slot for truth values. -/
def flagField : Slot → BlockEdit FlagSlot
  | .flag field => pure field
  | slot => throw (.noField slot .flag)

/-- Sets a slot to a value of its kind. -/
def assign (slot : Slot) (value : OptionValue) : BlockEdit Unit := do
  if value.kind ≠ slot.kind then
    throw (.refused (.wrongKind slot value))
  match value with
  | .text s =>
    if s.toList.contains '\x00' then
      throw (.refused (.containsNul slot))
    let field ← slot.textField
    modify (field.put (some s))
  | .flag b =>
    let field ← slot.flagField
    modify (field.put (some b))
  | .mode m => modify fun options => { options with optimizeFor := some m.number }

/-- Unsets a slot. -/
def unassign (slot : Slot) : BlockEdit Unit :=
  match slot.kind with
  | .text => do
    let field ← slot.textField
    modify (field.put none)
  | .flag => do
    let field ← slot.flagField
    modify (field.put none)
  | .mode => modify fun options => { options with optimizeFor := none }

/-- Assigning stores the value. It stops only if the slot refuses the value, and then the block is
as it was. -/
theorem assign_eq (slot : Slot) (value : OptionValue) (options : FileOptions) :
    slot.assign value options =
      match slot.store value options with
      | .ok after => .ok () after
      | .error fault => .error (.refused fault) options := by
  cases slot with
  | text field =>
    cases value with
    | text s =>
      cases hnul : s.toList.contains '\x00' <;> simp only [store, assign, hnul] <;> rfl
    | flag b => rfl
    | mode m => rfl
  | flag field => cases value <;> rfl
  | optimizeFor => cases value <;> rfl

/-- Unassigning clears the slot and never stops. -/
theorem unassign_eq (slot : Slot) (options : FileOptions) :
    slot.unassign options = .ok () (slot.clear options) := by
  cases slot <;> rfl

end Slot

/-! ## All but one field -/

/-- Whether two blocks differ at most in the field of a slot. -/
structure SameBut (slot : Slot) (before after : FileOptions) : Prop where
  /-- What any other slot holds is the same. -/
  stored : ∀ other ≠ slot, other.stored after = other.stored before
  -- Not `unmanaged`: that is what clearing every slot leaves, and clearing is judged by this.
  /-- The records of the blocks are the same, apart from the entry of the slot. -/
  fields : after.toRecord.without slot.tag.toNatClampNeg =
    before.toRecord.without slot.tag.toNatClampNeg

namespace Slot

variable {slot other : Slot} {value : Option OptionValue} {options after : FileOptions}

/-- A write to a slot is a write to nothing else. -/
theorem sameBut_write (h : slot.write value options = .ok after) : SameBut slot options after where
  stored := fun _ hne => stored_write_of_ne hne h
  fields := by
    rw [FileOptions.toRecord_eq, FileOptions.toRecord_eq, Record.without_ofSections,
      Record.without_ofSections]
    obtain ⟨field, text, rfl, -, rfl⟩ | ⟨field, flag, rfl, -, rfl⟩ | ⟨number, rfl, -, rfl⟩ :=
      write_cases h
    · cases field <;> rfl
    · cases field <;> rfl
    · rfl

theorem written_of_refusal {fault : SlotFault} (h : slot.refusal? value = some fault)
    (options : FileOptions) : slot.written value options = options := by
  rw [written, write_eq, h]

/-- Nothing is left of what was in a slot before a write. -/
theorem written_written (h : slot.refusal? value = none) (earlier : Option OptionValue)
    (options : FileOptions) :
    slot.written value (slot.written earlier options) = slot.written value options := by
  refine FileOptions.eq_of_stored ?_ fun other => ?_
  · rw [unmanaged_written, unmanaged_written, unmanaged_written]
  · by_cases hother : other = slot
    · rw [hother, stored_written h, stored_written h]
    · rw [stored_written_of_ne hother, stored_written_of_ne hother, stored_written_of_ne hother]

/-- What a slot holds after a write depends on no more than what it held before. -/
theorem stored_written_congr {others : FileOptions} (h : other.stored options = other.stored others)
    (slot : Slot) (value : Option OptionValue) :
    other.stored (slot.written value options) = other.stored (slot.written value others) := by
  by_cases hother : other = slot
  · subst hother
    cases hrefusal : other.refusal? value with
    | none => rw [stored_written hrefusal, stored_written hrefusal]
    | some fault => rw [written_of_refusal hrefusal, written_of_refusal hrefusal, h]
  · rw [stored_written_of_ne hother, stored_written_of_ne hother, h]

/-- Writes to different slots can be made in either order. -/
theorem written_comm (hne : other ≠ slot) (value next : Option OptionValue)
    (options : FileOptions) :
    other.written next (slot.written value options) =
      slot.written value (other.written next options) := by
  refine FileOptions.eq_of_stored ?_ fun third => ?_
  · rw [unmanaged_written, unmanaged_written, unmanaged_written, unmanaged_written]
  -- The slots are different, so at least one of the writes passes over the slot looked at.
  · by_cases hthird : third = slot
    · have hother : third ≠ other := hthird ▸ hne.symm
      rw [stored_written_of_ne hother]
      exact (stored_written_congr (stored_written_of_ne hother next options) slot value).symm
    · rw [stored_written_of_ne hthird]
      exact stored_written_congr (stored_written_of_ne hthird value options) other next

/-! ## Attempts -/

/-- Assigns a value to a slot, or unassigns it if there is none, and tells why that stopped if it
did. -/
def attempt (slot : Slot) (value : Option OptionValue) : StateM FileOptions (Option BlockStop) :=
  fun options =>
    match (value.elim slot.unassign slot.assign) options with
    | .ok _ after => (none, after)
    | .error stop after => (some stop, after)

theorem attempt_eq (slot : Slot) (value : Option OptionValue) (options : FileOptions) :
    slot.attempt value options =
      ((slot.refusal? value).map .refused, slot.written value options) := by
  cases value with
  | none =>
    simp only [attempt, Option.elim, unassign_eq]
    cases slot <;> rfl
  | some value =>
    have hstore := slot.write_eq (some value) options
    simp only [write] at hstore
    simp only [attempt, Option.elim, assign_eq, hstore]
    cases hrefusal : slot.refusal? (some value) with
    | none => rfl
    | some fault => rw [written_of_refusal hrefusal]; rfl

/-- Attempts at different slots end in the same way in either order. -/
theorem attempt_comm (hne : other ≠ slot) (value next : Option OptionValue) :
    (do
      let first ← slot.attempt value
      let second ← other.attempt next
      return (first, second)) =
    (do
      let second ← other.attempt next
      let first ← slot.attempt value
      return (first, second)) := by
  funext options
  let after := (slot.attempt value options).2
  let between := (other.attempt next options).2
  calc _ = (((slot.attempt value options).1, (other.attempt next after).1),
          (other.attempt next after).2) := rfl
    _ = (((slot.attempt value between).1, (other.attempt next options).1),
          (slot.attempt value between).2) := by
        simp only [after, between, attempt_eq, written_comm hne]
    _ = _ := rfl

/-- A slot takes the values of its kind, except for texts with a NUL character. -/
theorem exists_store_eq_ok_iff {value : OptionValue} :
    (∃ after, slot.store value options = .ok after) ↔
      value.kind = slot.kind ∧ ∀ s ∈ value.text?, '\x00' ∉ s.toList := by
  cases slot with
  | text field =>
    cases value with
    | text s =>
      by_cases hnul : '\x00' ∈ s.toList <;>
        simp [store, OptionValue.kind, kind, OptionValue.text?, hnul]
    | flag b => simp [store, OptionValue.kind, kind]
    | mode m => simp [store, OptionValue.kind, kind]
  | flag field => cases value <;> simp [store, OptionValue.kind, kind, OptionValue.text?]
  | optimizeFor => cases value <;> simp [store, OptionValue.kind, kind, OptionValue.text?]

/-- After a write the slot takes the next one, or refuses it, as it would have before. -/
theorem write_write (h : slot.write value options = .ok after) (next : Option OptionValue) :
    slot.write next after = slot.write next options := by
  have hafter : after = slot.written value options := by rw [written, h]
  rw [write_eq, write_eq, hafter]
  cases hrefusal : slot.refusal? next with
  | none => simp only [written_written hrefusal]
  | some fault => rfl

/-- Slots are typed and independent. A slot takes the values of its kind, except for texts with a
NUL character. When it took one, it reads as that value and nothing else of the block is different;
another value is then stored, and the slot is cleared, as if the first had never been there. A slot
that was cleared reads as nothing, and again nothing else is different. Attempts to set or unset
different slots can be made in either order. A value that is refused leaves the block as it was, and
neither setting nor unsetting ever picks a field that a slot does not have. -/
theorem assignments_independent (slot : Slot) (options : FileOptions) :
    (∀ value, (∃ after, slot.store value options = .ok after) ↔
      value.kind = slot.kind ∧ ∀ s ∈ value.text?, '\x00' ∉ s.toList) ∧
    (∀ value after, slot.store value options = .ok after →
      slot.read after = some value ∧ SameBut slot options after ∧
      (∀ next, slot.store next after = slot.store next options) ∧
      slot.clear after = slot.clear options) ∧
    (slot.read (slot.clear options) = none ∧ SameBut slot options (slot.clear options)) ∧
    (∀ other, other ≠ slot → ∀ value next,
      (do
        let first ← slot.attempt value
        let second ← other.attempt next
        return (first, second)) =
      (do
        let second ← other.attempt next
        let first ← slot.attempt value
        return (first, second))) ∧
    (∀ value, slot.assign value options =
      match slot.store value options with
      | .ok after => .ok () after
      | .error fault => .error (.refused fault) options) ∧
    slot.unassign options = .ok () (slot.clear options) := by
  have hclear : slot.write none options = .ok (slot.clear options) := rfl
  refine ⟨fun value => exists_store_eq_ok_iff, fun value after h => ?_,
    ⟨read_write hclear, sameBut_write hclear⟩, fun other hne => attempt_comm hne,
    fun value => slot.assign_eq value options, slot.unassign_eq options⟩
  have hwrite : slot.write (some value) options = .ok after := h
  exact ⟨read_write hwrite, sameBut_write hwrite, fun next => write_write hwrite (some next),
    Except.ok.inj (write_write hwrite none)⟩

/-- A block with a number that is no mode's: one text after the other, and a value that the slot
refuses next to a mode that takes the number's place. -/
theorem assignments_independent_unknownMode :
    let options : FileOptions :=
      { optimizeFor := some 99, goPackage := some "old", deprecated := some true }
    let slot : Slot := .text .goPackage
    let after : FileOptions := { options with goPackage := some "new" }
    let refusal : BlockStop := .refused (.wrongKind slot (.flag true))
    slot.store (.text "new") options = .ok after ∧
      SameBut slot options after ∧
      slot.store (.text "newer") after = slot.store (.text "newer") options ∧
      (do
        let second ← Slot.optimizeFor.attempt (some (.mode .speed))
        let first ← slot.attempt (some (.flag true))
        return (first, second)).run options =
        ((some refusal, none), { options with optimizeFor := some 1 }) := by
  intro options slot after refusal
  have hstore : slot.store (.text "new") options = .ok after := rfl
  obtain ⟨-, hstored, -, hcomm, -⟩ := assignments_independent slot options
  obtain ⟨-, hbut, hnext, -⟩ := hstored _ _ hstore
  refine ⟨hstore, hbut, hnext _, ?_⟩
  rw [← hcomm .optimizeFor (by decide)]
  rfl

end Slot

end SchemaOptions
