import SchemaOptions.Text.Quoted

/-!
# Option values

The value of a file option is a text, a truth value, or the goal for which code is optimized. A goal
has a number, under which it is stored; a stored number that is no goal's reads as `speed`.
-/

namespace SchemaOptions

/-- What generated code is optimized for. -/
inductive OptimizeMode where
  | speed
  | codeSize
  | liteRuntime
deriving DecidableEq

namespace OptimizeMode

/-- The number under which a mode is stored. -/
def number : OptimizeMode → Int32
  | .speed => 1
  | .codeSize => 2
  | .liteRuntime => 3

/-- The mode that a stored number reads as. -/
def ofNumber (n : Int32) : OptimizeMode :=
  if n = codeSize.number then .codeSize
  else if n = liteRuntime.number then .liteRuntime
  else .speed

/-- The name of a mode. -/
def name : OptimizeMode → String
  | .speed => "SPEED"
  | .codeSize => "CODE_SIZE"
  | .liteRuntime => "LITE_RUNTIME"

/-- A mode reads back from its number. -/
theorem ofNumber_number (mode : OptimizeMode) : ofNumber mode.number = mode := by
  cases mode <;> rfl

end OptimizeMode

/-- The kinds of values. -/
inductive OptionKind where
  | text
  | flag
  | mode
deriving DecidableEq

/-- The name of a kind. -/
def OptionKind.name : OptionKind → String
  | .text => "String"
  | .flag => "Bool"
  | .mode => "OptimizeMode"

/-- A value of a file option. -/
inductive OptionValue where
  | text (s : String)
  | flag (b : Bool)
  | mode (m : OptimizeMode)
deriving DecidableEq

namespace OptionValue

/-- The kind of a value. -/
def kind : OptionValue → OptionKind
  | .text _ => .text
  | .flag _ => .flag
  | .mode _ => .mode

/-- The text of a value that is one. -/
def text? : OptionValue → Option String
  | .text s => some s
  | _ => none

/-- A value as messages show it: a text in quotes, a truth value as a word, a mode by its name. -/
def display : OptionValue → String
  | .text s => Text.quoted s
  | .flag true => "true"
  | .flag false => "false"
  | .mode m => m.name

end OptionValue

end SchemaOptions
