import SchemaOptions.File.Basic
import SchemaOptions.Options.Value

/-!
# Slots

Ten of the options of a file are managed: seven texts, two truth values and the optimization mode. A
slot is one of them. Which kind of value a slot takes is part of what it is, so a value of another
kind cannot be stored in it, and there is nothing to store it by.

`Slot.read` gives the value that a slot reads as, `Slot.store` a block with a value in the slot, and
`Slot.clear` a block with nothing in it; neither touches any other field. The one text that a slot
refuses is one with a NUL character.
-/

namespace SchemaOptions

/-- A managed option that is a text. -/
inductive TextSlot where
  | javaPackage
  | javaOuterClassname
  | goPackage
  | objcClassPrefix
  | csharpNamespace
  | phpNamespace
  | rubyPackage
deriving DecidableEq

/-- A managed option that is a truth value. -/
inductive FlagSlot where
  | javaMultipleFiles
  | ccEnableArenas
deriving DecidableEq

/-- A managed option. -/
inductive Slot where
  | text (slot : TextSlot)
  | flag (slot : FlagSlot)
  | optimizeFor
deriving DecidableEq

namespace TextSlot

/-- The tag of the option. -/
def tag : TextSlot → Int32
  | .javaPackage => 1
  | .javaOuterClassname => 8
  | .goPackage => 11
  | .objcClassPrefix => 36
  | .csharpNamespace => 37
  | .phpNamespace => 41
  | .rubyPackage => 45

/-- The name of the option. -/
def name : TextSlot → String
  | .javaPackage => "java_package"
  | .javaOuterClassname => "java_outer_classname"
  | .goPackage => "go_package"
  | .objcClassPrefix => "objc_class_prefix"
  | .csharpNamespace => "csharp_namespace"
  | .phpNamespace => "php_namespace"
  | .rubyPackage => "ruby_package"

/-- The text in the slot. -/
def get (slot : TextSlot) (options : FileOptions) : Option String :=
  match slot with
  | .javaPackage => options.javaPackage
  | .javaOuterClassname => options.javaOuterClassname
  | .goPackage => options.goPackage
  | .objcClassPrefix => options.objcClassPrefix
  | .csharpNamespace => options.csharpNamespace
  | .phpNamespace => options.phpNamespace
  | .rubyPackage => options.rubyPackage

/-- The block with another text, or none, in the slot. -/
def put (slot : TextSlot) (value : Option String) (options : FileOptions) : FileOptions :=
  match slot with
  | .javaPackage => { options with javaPackage := value }
  | .javaOuterClassname => { options with javaOuterClassname := value }
  | .goPackage => { options with goPackage := value }
  | .objcClassPrefix => { options with objcClassPrefix := value }
  | .csharpNamespace => { options with csharpNamespace := value }
  | .phpNamespace => { options with phpNamespace := value }
  | .rubyPackage => { options with rubyPackage := value }

end TextSlot

namespace FlagSlot

/-- The tag of the option. -/
def tag : FlagSlot → Int32
  | .javaMultipleFiles => 10
  | .ccEnableArenas => 31

/-- The name of the option. -/
def name : FlagSlot → String
  | .javaMultipleFiles => "java_multiple_files"
  | .ccEnableArenas => "cc_enable_arenas"

/-- The truth value in the slot. -/
def get (slot : FlagSlot) (options : FileOptions) : Option Bool :=
  match slot with
  | .javaMultipleFiles => options.javaMultipleFiles
  | .ccEnableArenas => options.ccEnableArenas

/-- The block with another truth value, or none, in the slot. -/
def put (slot : FlagSlot) (value : Option Bool) (options : FileOptions) : FileOptions :=
  match slot with
  | .javaMultipleFiles => { options with javaMultipleFiles := value }
  | .ccEnableArenas => { options with ccEnableArenas := value }

end FlagSlot

/-- Why a slot does not take a value. -/
inductive SlotFault where
  /-- The value is of another kind than the slot. -/
  | wrongKind (slot : Slot) (value : OptionValue)
  /-- The text holds a NUL character. -/
  | containsNul (slot : Slot)
deriving DecidableEq

namespace Slot

/-- All slots, in ascending order of their tags. -/
def all : List Slot := [
  .text .javaPackage,
  .text .javaOuterClassname,
  .optimizeFor,
  .flag .javaMultipleFiles,
  .text .goPackage,
  .flag .ccEnableArenas,
  .text .objcClassPrefix,
  .text .csharpNamespace,
  .text .phpNamespace,
  .text .rubyPackage]

/-- Every slot is listed. -/
theorem mem_all (slot : Slot) : slot ∈ all := by
  rcases slot with slot | slot | _
  · cases slot <;> decide
  · cases slot <;> decide
  · decide

/-- The tag of the option. -/
def tag : Slot → Int32
  | .text slot => slot.tag
  | .flag slot => slot.tag
  | .optimizeFor => 9

/-- The name of the option. -/
def name : Slot → String
  | .text slot => slot.name
  | .flag slot => slot.name
  | .optimizeFor => "optimize_for"

/-- The kind of value that a slot takes. -/
def kind : Slot → OptionKind
  | .text _ => .text
  | .flag _ => .flag
  | .optimizeFor => .mode

/-- The slot with a name. -/
def ofName? (name : String) : Option Slot :=
  all.find? (·.name == name)

/-- The address of the option within its file. -/
def path (slot : Slot) : SourcePath :=
  SourcePath.fileOptions.field slot.tag

/-- The value that a slot reads as; nothing if the option is absent. -/
def read (slot : Slot) (options : FileOptions) : Option OptionValue :=
  match slot with
  | .text slot => (slot.get options).map .text
  | .flag slot => (slot.get options).map .flag
  | .optimizeFor => options.optimizeFor.map fun n => .mode (OptimizeMode.ofNumber n)

/-- Whether the option is present. -/
def isSet (slot : Slot) (options : FileOptions) : Bool :=
  (slot.read options).isSome

/-- The block with a value in the slot. -/
def store (slot : Slot) (value : OptionValue) (options : FileOptions) :
    Except SlotFault FileOptions :=
  match slot, value with
  | .text slot, .text s =>
    if s.toList.contains '\x00' then .error (.containsNul (.text slot))
    else .ok (slot.put (some s) options)
  | .flag slot, .flag b => .ok (slot.put (some b) options)
  | .optimizeFor, .mode m => .ok { options with optimizeFor := some m.number }
  | slot, value => .error (.wrongKind slot value)

/-- The block with nothing in the slot. -/
def clear (slot : Slot) (options : FileOptions) : FileOptions :=
  match slot with
  | .text slot => slot.put none options
  | .flag slot => slot.put none options
  | .optimizeFor => { options with optimizeFor := none }

end Slot

/-- The wording of a refusal. -/
def SlotFault.reason : SlotFault → String
  | .wrongKind slot value =>
    s!"{slot.name} expects a {slot.kind.name} value, got {value.display}"
  | .containsNul slot => s!"{slot.name} value contains a NUL character"

end SchemaOptions
