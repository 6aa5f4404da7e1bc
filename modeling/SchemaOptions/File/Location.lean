import SchemaOptions.SourcePath
import SchemaOptions.Wire.Record

/-!
# Locations

Source code information tells where in its text each element of a file stands, and which comments
stand around it. A location is one such record: the address of the element, its span, and the
comments before it, after it and further above.
-/

namespace SchemaOptions

open SchemaOptions.Wire

/-- Where an element stands in its text, and the comments around it. -/
structure Location where
  path : SourcePath
  span : List Int32 := []
  leading : Option String := none
  trailing : Option String := none
  detached : List String := []
deriving DecidableEq

namespace Location

/-- The location that a record tells. -/
def ofRecord (record : Record) : Location where
  path := record.packed 1
  span := record.packed 2
  leading := record.text? 3
  trailing := record.text? 4
  detached := record.texts 6

/-- The record of a location. -/
def toRecord (location : Location) : Record :=
  Record.piece 1 location.path ++
  Record.piece 2 location.span ++
  Record.single 3 .text location.leading ++
  Record.single 4 .text location.trailing ++
  Record.many 6 .text location.detached

end Location

end SchemaOptions
