import Mathlib.Data.List.Nodup
import SchemaOptions.Options.Slot

/-!
# Laws of slots

A slot is a lens on a block of options. What was written is what the field holds afterwards, no
other slot notices, and neither does any field that is not managed. What a slot reads as is less
than what it holds, because several numbers read as one mode; so the laws speak of `Slot.stored`,
and reading follows from it (`Slot.read_eq_stored`). A block is determined by its ten slots and the
rest of its fields (`FileOptions.eq_of_stored`), which turns an equation of blocks into one equation
for each slot.
-/

namespace SchemaOptions

/-! ## What a field holds -/

/-- What the field of a managed option holds; a mode is held as its number. -/
inductive StoredValue where
  | text (s : String)
  | flag (b : Bool)
  | number (n : Int32)
deriving DecidableEq

/-- The value that a held one reads as. -/
def StoredValue.reading : StoredValue → OptionValue
  | .text s => .text s
  | .flag b => .flag b
  | .number n => .mode (OptimizeMode.ofNumber n)

/-- What a field holds once a value was written to it. -/
def OptionValue.stored : OptionValue → StoredValue
  | .text s => .text s
  | .flag b => .flag b
  | .mode m => .number m.number

/-- A value that was written reads back as itself. -/
@[simp] theorem OptionValue.reading_stored (value : OptionValue) :
    value.stored.reading = value := by
  cases value with
  | text => rfl
  | flag => rfl
  | mode m => exact congrArg OptionValue.mode (OptimizeMode.ofNumber_number m)

/-- What the field of a slot holds. -/
def Slot.stored (slot : Slot) (options : FileOptions) : Option StoredValue :=
  match slot with
  | .text slot => (slot.get options).map .text
  | .flag slot => (slot.get options).map .flag
  | .optimizeFor => options.optimizeFor.map .number

/-- The block without its managed options. -/
def FileOptions.unmanaged (options : FileOptions) : FileOptions :=
  Slot.all.foldl (fun options slot => slot.clear options) options

namespace Slot

/-- Reading a slot is reading what its field holds. -/
theorem read_eq_stored (slot : Slot) (options : FileOptions) :
    slot.read options = (slot.stored options).map StoredValue.reading := by
  cases slot <;> simp only [read, stored, Option.map_map] <;> rfl

/-- A slot of the empty block holds nothing. -/
@[simp] theorem stored_empty (slot : Slot) : slot.stored FileOptions.empty = none := by
  rcases slot with slot | slot | _
  · cases slot <;> rfl
  · cases slot <;> rfl
  · rfl

@[simp] theorem read_empty (slot : Slot) : slot.read FileOptions.empty = none := by
  rw [read_eq_stored, stored_empty, Option.map_none]

theorem nodup_all : all.Nodup := by decide

/-- Different slots have different addresses. -/
theorem path_injective {slot other : Slot} (h : slot.path = other.path) : slot = other := by
  have htags : (all.map path).Nodup := by decide
  exact List.inj_on_of_nodup_map htags (mem_all slot) (mem_all other) h

/-! ## Writing

Writing covers storing a value and clearing the slot. Whether a slot refuses depends on the value
alone. -/

/-- The block with a value, or none, in the slot. -/
def write (slot : Slot) (value : Option OptionValue) (options : FileOptions) :
    Except SlotFault FileOptions :=
  match value with
  | none => .ok (slot.clear options)
  | some value => slot.store value options

/-- Why a slot refuses a value; nothing if it takes it. -/
def refusal? (slot : Slot) (value : Option OptionValue) : Option SlotFault :=
  match slot, value with
  | _, none => none
  | .text slot, some (.text s) =>
    if s.toList.contains '\x00' then some (.containsNul (.text slot)) else none
  | .flag _, some (.flag _) => none
  | .optimizeFor, some (.mode _) => none
  | slot, some value => some (.wrongKind slot value)

/-- The block after a write; the block as it was if the slot refuses. -/
def written (slot : Slot) (value : Option OptionValue) (options : FileOptions) : FileOptions :=
  match slot.write value options with
  | .ok options => options
  | .error _ => options

/-- A slot refuses a value of any block or of none. -/
theorem write_eq (slot : Slot) (value : Option OptionValue) (options : FileOptions) :
    slot.write value options =
      match slot.refusal? value with
      | some fault => .error fault
      | none => .ok (slot.written value options) := by
  cases value with
  | none => cases slot <;> rfl
  | some value =>
    cases slot <;> cases value <;> simp only [written, write, store, refusal?]
    split <;> rfl

end Slot

theorem TextSlot.get_put (slot : TextSlot) (value : Option String) (options : FileOptions) :
    slot.get (slot.put value options) = value := by
  cases slot <;> rfl

theorem TextSlot.get_put_of_ne {slot other : TextSlot} (hne : other ≠ slot)
    (value : Option String) (options : FileOptions) :
    other.get (slot.put value options) = other.get options := by
  cases slot <;> cases other <;> first | rfl | exact absurd rfl hne

theorem FlagSlot.get_put (slot : FlagSlot) (value : Option Bool) (options : FileOptions) :
    slot.get (slot.put value options) = value := by
  cases slot <;> rfl

theorem FlagSlot.get_put_of_ne {slot other : FlagSlot} (hne : other ≠ slot)
    (value : Option Bool) (options : FileOptions) :
    other.get (slot.put value options) = other.get options := by
  cases slot <;> cases other <;> first | rfl | exact absurd rfl hne

/-- A flag slot is no part of a text slot's field. -/
theorem FlagSlot.get_textPut (slot : FlagSlot) (other : TextSlot) (value : Option String)
    (options : FileOptions) : slot.get (other.put value options) = slot.get options := by
  cases other <;> cases slot <;> rfl

theorem TextSlot.get_flagPut (slot : TextSlot) (other : FlagSlot) (value : Option Bool)
    (options : FileOptions) : slot.get (other.put value options) = slot.get options := by
  cases other <;> cases slot <;> rfl

/-- Everything that a write can do: a slot that takes a value has its field changed, and nothing
else. -/
theorem Slot.write_cases {slot : Slot} {value : Option OptionValue} {options after : FileOptions}
    (h : slot.write value options = .ok after) :
    (∃ (field : TextSlot) (text : Option String), slot = .text field ∧
      value.map OptionValue.stored = text.map .text ∧ after = field.put text options) ∨
    (∃ (field : FlagSlot) (flag : Option Bool), slot = .flag field ∧
      value.map OptionValue.stored = flag.map .flag ∧ after = field.put flag options) ∨
    (∃ number : Option Int32, slot = .optimizeFor ∧
      value.map OptionValue.stored = number.map .number ∧
      after = { options with optimizeFor := number }) := by
  cases value with
  | none =>
    cases h
    cases slot with
    | text field => exact .inl ⟨field, none, rfl, rfl, rfl⟩
    | flag field => exact .inr (.inl ⟨field, none, rfl, rfl, rfl⟩)
    | optimizeFor => exact .inr (.inr ⟨none, rfl, rfl, rfl⟩)
  | some value =>
    simp only [Slot.write, Slot.store] at h
    split at h
    · rename_i field s
      split at h
      · cases h
      · cases h
        exact .inl ⟨field, some s, rfl, rfl, rfl⟩
    · rename_i field b
      cases h
      exact .inr (.inl ⟨field, some b, rfl, rfl, rfl⟩)
    · rename_i m
      cases h
      exact .inr (.inr ⟨some m.number, rfl, rfl, rfl⟩)
    · cases h

namespace Slot

variable {slot other : Slot} {value : Option OptionValue} {options after : FileOptions}

/-- After a write the field holds what was written. -/
theorem stored_write (h : slot.write value options = .ok after) :
    slot.stored after = value.map OptionValue.stored := by
  obtain ⟨field, text, rfl, hvalue, rfl⟩ | ⟨field, flag, rfl, hvalue, rfl⟩ |
    ⟨number, rfl, hvalue, rfl⟩ := write_cases h
  · simp only [stored, TextSlot.get_put, hvalue]
  · simp only [stored, FlagSlot.get_put, hvalue]
  · simp only [stored, hvalue]

/-- A write is not seen in any other slot. -/
theorem stored_write_of_ne (hne : other ≠ slot) (h : slot.write value options = .ok after) :
    other.stored after = other.stored options := by
  obtain ⟨field, text, rfl, -, rfl⟩ | ⟨field, flag, rfl, -, rfl⟩ | ⟨number, rfl, -, rfl⟩ :=
    write_cases h
  · cases other with
    | text other =>
      have hother : other ≠ field := fun heq => hne (congrArg Slot.text heq)
      simp only [stored, TextSlot.get_put_of_ne hother]
    | flag other => simp only [stored, FlagSlot.get_textPut]
    | optimizeFor => cases field <;> rfl
  · cases other with
    | text other => simp only [stored, TextSlot.get_flagPut]
    | flag other =>
      have hother : other ≠ field := fun heq => hne (congrArg Slot.flag heq)
      simp only [stored, FlagSlot.get_put_of_ne hother]
    | optimizeFor => cases field <;> rfl
  · cases other with
    | text other => cases other <;> rfl
    | flag other => cases other <;> rfl
    | optimizeFor => exact absurd rfl hne

/-- A write leaves the fields alone that are not managed. -/
theorem unmanaged_write (h : slot.write value options = .ok after) :
    after.unmanaged = options.unmanaged := by
  obtain ⟨field, text, -, -, rfl⟩ | ⟨field, flag, -, -, rfl⟩ | ⟨number, -, -, rfl⟩ :=
    write_cases h
  · cases field <;> rfl
  · cases field <;> rfl
  · rfl

/-- After a write the slot reads as what was written. -/
theorem read_write (h : slot.write value options = .ok after) : slot.read after = value := by
  rw [read_eq_stored, stored_write h, Option.map_map]
  cases value with
  | none => rfl
  | some value => exact congrArg some value.reading_stored

end Slot

/-- A block is determined by what its slots hold and by its other fields. -/
theorem FileOptions.eq_of_stored {options others : FileOptions}
    (hrest : options.unmanaged = others.unmanaged)
    (hslots : ∀ slot : Slot, slot.stored options = slot.stored others) : options = others := by
  have htext (slot : TextSlot) : slot.get options = slot.get others :=
    Option.map_injective (fun _ _ => StoredValue.text.inj) (hslots (.text slot))
  have hflag (slot : FlagSlot) : slot.get options = slot.get others :=
    Option.map_injective (fun _ _ => StoredValue.flag.inj) (hslots (.flag slot))
  have hmode : options.optimizeFor = others.optimizeFor :=
    Option.map_injective (fun _ _ => StoredValue.number.inj) (hslots .optimizeFor)
  have hjava := htext .javaPackage
  have houter := htext .javaOuterClassname
  have hgo := htext .goPackage
  have hobjc := htext .objcClassPrefix
  have hcsharp := htext .csharpNamespace
  have hphp := htext .phpNamespace
  have hruby := htext .rubyPackage
  have hmultiple := hflag .javaMultipleFiles
  have harenas := hflag .ccEnableArenas
  cases options
  cases others
  simp only [TextSlot.get, FlagSlot.get]
    at hjava houter hgo hobjc hcsharp hphp hruby hmultiple harenas hmode
  simp only [unmanaged, Slot.all, List.foldl, Slot.clear, TextSlot.put, FlagSlot.put, mk.injEq]
    at hrest ⊢
  simp_all only [and_self]

/-! ## Writing several slots -/

namespace Slot

variable {slot other : Slot} {value : Option OptionValue}

/-- Among values of its own kind a slot refuses only a text with a NUL character. -/
theorem refusal?_isSome_iff {value : OptionValue} (h : value.kind = slot.kind) :
    (slot.refusal? (some value)).isSome ↔ ∃ s, value = .text s ∧ '\x00' ∈ s.toList := by
  cases slot <;> cases value <;> try cases h
  · simp [refusal?]
  · exact iff_of_false (by simp [refusal?]) fun ⟨_, h, _⟩ => by cases h
  · exact iff_of_false (by simp [refusal?]) fun ⟨_, h, _⟩ => by cases h

/-- Everything that a refusal can be: the value is of another kind than the slot, or it is a text
with a NUL character. -/
theorem refusal?_eq_some_iff {value : OptionValue} {fault : SlotFault} :
    slot.refusal? (some value) = some fault ↔
      value.kind ≠ slot.kind ∧ fault = .wrongKind slot value ∨
        slot.kind = .text ∧ (∃ s, value = .text s ∧ '\x00' ∈ s.toList) ∧
          fault = .containsNul slot := by
  by_cases hkind : value.kind = slot.kind
  · rw [or_iff_right fun h => h.1 hkind]
    cases slot <;> cases value <;> try cases hkind
    · rename_i field s
      simp only [refusal?, List.contains_iff_mem, kind, true_and, OptionValue.text.injEq,
        exists_eq_left']
      split
      · rename_i hnul
        rw [and_iff_right hnul, Option.some.injEq, eq_comm]
      · rename_i hnul
        exact iff_of_false nofun fun h => hnul h.1
    · exact iff_of_false nofun fun h => nomatch h.1
    · exact iff_of_false nofun fun h => nomatch h.1
  · have hmissing : slot.refusal? (some value) = some (.wrongKind slot value) := by
      cases slot <;> cases value <;> first | rfl | exact absurd rfl hkind
    rw [hmissing, Option.some.injEq, eq_comm, and_iff_right hkind]
    refine (or_iff_left ?_).symm
    rintro ⟨htext, ⟨s, rfl, -⟩, -⟩
    exact hkind htext.symm

theorem stored_written (h : slot.refusal? value = none) (options : FileOptions) :
    slot.stored (slot.written value options) = value.map OptionValue.stored := by
  have hwrite : slot.write value options = .ok (slot.written value options) := by
    rw [write_eq, h]
  exact stored_write hwrite

/-- A write that is refused is not seen either. -/
theorem stored_written_of_ne (hne : other ≠ slot) (value : Option OptionValue)
    (options : FileOptions) :
    other.stored (slot.written value options) = other.stored options := by
  unfold written
  split
  · rename_i after hwrite
    exact stored_write_of_ne hne hwrite
  · rfl

theorem unmanaged_written (slot : Slot) (value : Option OptionValue) (options : FileOptions) :
    (slot.written value options).unmanaged = options.unmanaged := by
  unfold written
  split
  · rename_i after hwrite
    exact unmanaged_write hwrite
  · rfl

end Slot

namespace FileOptions

/-- The block with new values in those of some slots that are to change. -/
def rewrite (change? : Slot → Option (Option OptionValue)) (slots : List Slot)
    (options : FileOptions) : FileOptions :=
  slots.foldl (fun options slot => (change? slot).elim options (slot.written · options)) options

variable {change? : Slot → Option (Option OptionValue)} {slots : List Slot} {slot : Slot}

theorem rewrite_cons (first : Slot) (options : FileOptions) :
    rewrite change? (first :: slots) options =
      rewrite change? slots ((change? first).elim options (first.written · options)) := rfl

theorem unmanaged_rewrite (options : FileOptions) :
    (rewrite change? slots options).unmanaged = options.unmanaged := by
  induction slots generalizing options with
  | nil => rfl
  | cons first rest ih =>
    rw [rewrite_cons, ih]
    cases change? first with
    | none => rfl
    | some value => exact first.unmanaged_written value options

theorem stored_rewrite_of_not_mem (h : slot ∉ slots) (options : FileOptions) :
    slot.stored (rewrite change? slots options) = slot.stored options := by
  induction slots generalizing options with
  | nil => rfl
  | cons first rest ih =>
    rw [rewrite_cons, ih fun hmem => h (List.mem_cons_of_mem _ hmem)]
    cases change? first with
    | none => rfl
    | some value => exact Slot.stored_written_of_ne (List.ne_of_not_mem_cons h) value options

theorem stored_rewrite_of_none (h : change? slot = none) (options : FileOptions) :
    slot.stored (rewrite change? slots options) = slot.stored options := by
  induction slots generalizing options with
  | nil => rfl
  | cons first rest ih =>
    rw [rewrite_cons, ih]
    cases hfirst : change? first with
    | none => rfl
    | some value =>
      have hne : slot ≠ first := fun heq => by rw [heq, hfirst] at h; cases h
      exact Slot.stored_written_of_ne hne value options

/-- A slot that is to change, and takes the value, holds it afterwards. -/
theorem stored_rewrite_of_some {value : Option OptionValue} (hnodup : slots.Nodup)
    (hmem : slot ∈ slots) (hchange : change? slot = some value)
    (hok : slot.refusal? value = none) (options : FileOptions) :
    slot.stored (rewrite change? slots options) = value.map OptionValue.stored := by
  induction slots generalizing options with
  | nil => cases hmem
  | cons first rest ih =>
    obtain ⟨hfirst, hrest⟩ := List.nodup_cons.1 hnodup
    rw [rewrite_cons]
    rcases List.mem_cons.1 hmem with rfl | hlater
    · rw [stored_rewrite_of_not_mem hfirst, hchange]
      exact Slot.stored_written hok options
    · exact ih hrest hlater _

end FileOptions

end SchemaOptions
