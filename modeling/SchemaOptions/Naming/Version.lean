import SchemaOptions.Text.DecimalDigit

/-!
# Version components

The last component of a package often names a version of the interface: `v1`, `v2beta3`, `v1p1`,
`v1test`. The grammar is the letter `v`, a number, optionally `p` and another number, and
optionally a stage: `alpha` or `beta` with a number that may be missing, or `test` with a label of
lower-case ASCII letters and digits that may be missing. A number is one or more decimal digits of
any script. The letters that separate the parts are no digits, so each part is read as far as it
goes and no choice is ever taken back.
-/

namespace SchemaOptions.Naming

open SchemaOptions.Text

/-- What follows a number of one or more digits; nothing if the text does not open with a digit. -/
def afterNumber? : List Char → Option (List Char)
  | [] => none
  | c :: cs => if isDecimalDigit c then some (cs.dropWhile isDecimalDigit) else none

/-- Whether a character may stand in the label of a test version. -/
def isLabelPart (c : Char) : Bool :=
  c.isLower || c.isDigit

/-- Whether the characters are a given word and then characters of one class only. -/
def isLabelled (word : List Char) (part : Char → Bool) (cs : List Char) : Bool :=
  word.isPrefixOf cs && (cs.drop word.length).all part

/-- Whether the characters are a stage, or nothing at all. -/
def isStage (cs : List Char) : Bool :=
  cs.isEmpty ||
    isLabelled ['a', 'l', 'p', 'h', 'a'] isDecimalDigit cs ||
    isLabelled ['b', 'e', 't', 'a'] isDecimalDigit cs ||
    isLabelled ['t', 'e', 's', 't'] isLabelPart cs

/-- Whether the characters are what may follow the first number of a version. -/
def isVersionTail : List Char → Bool
  | 'p' :: cs =>
    match afterNumber? cs with
    | some stage => isStage stage
    | none => false
  | stage => isStage stage

/-- Whether the characters spell a version. -/
def isVersionWord : List Char → Bool
  | 'v' :: cs =>
    match afterNumber? cs with
    | some tail => isVersionTail tail
    | none => false
  | _ => false

/-- Whether a text is a version component. -/
def isVersion (s : String) : Bool :=
  isVersionWord s.toList

end SchemaOptions.Naming
