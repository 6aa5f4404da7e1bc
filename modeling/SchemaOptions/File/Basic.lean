import SchemaOptions.File.Location
import SchemaOptions.File.Options
import SchemaOptions.File.WellKnown

/-!
# Files

A file of an image: its path, its package, the files that it imports, what it declares, its options
and its source code information. The declarations are never looked into, so they stay records.
A name that is absent reads as the empty text, and so does a package.
-/

namespace SchemaOptions

open SchemaOptions.Wire

/-- A schema file. -/
structure File where
  name : Option String := none
  package : Option String := none
  imports : List String := []
  messages : List Record := []
  enumerations : List Record := []
  services : List Record := []
  extensions : List Record := []
  options : Option FileOptions := none
  sourceInfo : Option (List Location) := none
  publicImports : List Int32 := []
  weakImports : List Int32 := []
  schemaSyntax : Option String := none

namespace File

/-- The path by which the image knows the file. -/
def path (file : File) : String :=
  file.name.getD ""

/-- The package of the file; the empty text if it has none. -/
def packageName (file : File) : String :=
  file.package.getD ""

/-- Whether the file comes with the schema language. -/
def isWellKnown (file : File) : Bool :=
  isWellKnownPath file.path

/-- The block of options, an empty one if the file has none. -/
def optionsOrEmpty (file : File) : FileOptions :=
  file.options.getD FileOptions.empty

/-- The file without its source code information. -/
def stripSourceInfo (file : File) : File :=
  { file with sourceInfo := none }

/-- The file that a record tells. -/
def ofRecord (record : Record) : File where
  name := record.text? 1
  package := record.text? 2
  imports := record.texts 3
  messages := record.records 4
  enumerations := record.records 5
  services := record.records 6
  extensions := record.records 7
  options := (record.record? 8).map FileOptions.ofRecord
  sourceInfo := (record.record? 9).map fun info => (info.records 1).map Location.ofRecord
  publicImports := record.int32s 10
  weakImports := record.int32s 11
  schemaSyntax := record.text? 12

/-- The record of a file. -/
def toRecord (file : File) : Record :=
  Record.single 1 .text file.name ++
  Record.single 2 .text file.package ++
  Record.many 3 .text file.imports ++
  Record.many 4 .record file.messages ++
  Record.many 5 .record file.enumerations ++
  Record.many 6 .record file.services ++
  Record.many 7 .record file.extensions ++
  Record.single 8 (fun options => .record options.toRecord) file.options ++
  Record.single 9 (fun info => .record (Record.many 1 (fun l => .record l.toRecord) info))
    file.sourceInfo ++
  Record.many 10 .int32 file.publicImports ++
  Record.many 11 .int32 file.weakImports ++
  Record.single 12 .text file.schemaSyntax

/-- Whether two files are equal, doubles being compared as numbers. -/
def agrees (a b : File) : Bool :=
  Record.agrees a.toRecord b.toRecord

end File

end SchemaOptions
