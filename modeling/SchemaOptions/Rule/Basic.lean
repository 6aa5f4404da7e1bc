import SchemaOptions.Edit.Modifier

/-!
# Rules

A rule manages one slot: for each file it says what the slot is to hold. The answer depends on the
file's path and package only, so rules for different slots cannot disturb each other.
-/

namespace SchemaOptions

/-- A slot and what it is to hold in each file. -/
structure OptionRule where
  slot : Slot
  target : File → Except EditError OptionEdit

namespace OptionRule

/-- The modifier that puts a rule into effect in every file. -/
def modifier (rule : OptionRule) : Modifier := fun workspace =>
  match modifyOption rule.slot rule.target workspace with
  | .ok _ workspace => .ok () workspace
  | .error e workspace => .error e workspace

/-- The rule that gives a slot the same value in every file. -/
def constant (slot : Slot) (value : OptionValue) : OptionRule where
  slot := slot
  target := fun _ => .ok (.set value)

/-- The rule that gives a text slot a text that each file determines, or leaves it alone. -/
def ofText (slot : TextSlot) (text? : File → Option String) : OptionRule where
  slot := .text slot
  target := fun file =>
    match text? file with
    | some s => .ok (.set (.text s))
    | none => .ok .keep

end OptionRule

/-- One file for each message of a Java API, or all in one. -/
def javaMultipleFilesRule (value : Bool) : OptionRule :=
  OptionRule.constant (.flag .javaMultipleFiles) (.flag value)

/-- Arena allocation in C++, or not. -/
def ccEnableArenasRule (value : Bool) : OptionRule :=
  OptionRule.constant (.flag .ccEnableArenas) (.flag value)

/-- What code is optimized for. -/
def optimizeForRule (mode : OptimizeMode) : OptionRule :=
  OptionRule.constant .optimizeFor (.mode mode)

end SchemaOptions
