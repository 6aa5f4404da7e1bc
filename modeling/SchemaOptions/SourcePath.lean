/-!
# Source paths

An element of a schema file has an address: starting from the file, the tag of a field and, where
the field repeats, the position of one of its values, and so on inwards. The address of the file
itself is empty, that of its options `[8]`, that of one option `[8, tag]`.
-/

namespace SchemaOptions

/-- The address of an element within its file. -/
abbrev SourcePath := List Int32

namespace SourcePath

/-- The tag of a file's package. -/
def packageTag : Int32 := 2

/-- The tag of a file's block of options. -/
def optionsTag : Int32 := 8

/-- The tag of a file's source code information. -/
def sourceInfoTag : Int32 := 9

/-- The address of the file itself. -/
def root : SourcePath := []

/-- The address of a file's block of options. -/
def fileOptions : SourcePath := [optionsTag]

/-- The address of a field of the element. -/
def field (path : SourcePath) (tag : Int32) : SourcePath :=
  path ++ [tag]

/-- A position as an element of an address; a position that does not fit counts as the last that
does. -/
def position (index : Nat) : Int32 :=
  Int32.ofNat (min index Int32.maxValue.toNatClampNeg)

/-- The address of a value of the element, which repeats. -/
def index (path : SourcePath) (index : Nat) : SourcePath :=
  path ++ [position index]

/-- Whether an address is that of the element or of something within it. -/
def covers (path : SourcePath) (address : List Int32) : Bool :=
  path.isPrefixOf address

/-- The address in brackets, its elements in decimal with commas between them. -/
def render (path : SourcePath) : String :=
  "[" ++ ",".intercalate (path.map fun element => element.toInt.repr) ++ "]"

end SourcePath

end SchemaOptions
