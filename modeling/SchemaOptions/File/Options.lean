import SchemaOptions.Wire.Record

/-!
# The options of a file

A file may carry a block of options for the generators of code, one field for each option of each
language. An option that is absent is not the same as one that has its default value, so every field
is optional. The mode for which code is to be optimized is stored as a number, because a file may
hold a number that stands for no known mode. Options that no schema language fixes are kept as they
were read.
-/

namespace SchemaOptions

open SchemaOptions.Wire

/-- A block of file options. -/
structure FileOptions where
  javaPackage : Option String := none
  javaOuterClassname : Option String := none
  optimizeFor : Option Int32 := none
  javaMultipleFiles : Option Bool := none
  goPackage : Option String := none
  ccGenericServices : Option Bool := none
  javaGenericServices : Option Bool := none
  pyGenericServices : Option Bool := none
  javaGenerateEqualsAndHash : Option Bool := none
  deprecated : Option Bool := none
  javaStringCheckUtf8 : Option Bool := none
  ccEnableArenas : Option Bool := none
  objcClassPrefix : Option String := none
  csharpNamespace : Option String := none
  swiftPrefix : Option String := none
  phpClassPrefix : Option String := none
  phpNamespace : Option String := none
  phpGenericServices : Option Bool := none
  phpMetadataNamespace : Option String := none
  rubyPackage : Option String := none
  custom : List Record := []

namespace FileOptions

/-- The block without any option. -/
def empty : FileOptions := {}

/-- The options that a record tells. -/
def ofRecord (record : Record) : FileOptions where
  javaPackage := record.text? 1
  javaOuterClassname := record.text? 8
  optimizeFor := record.int32? 9
  javaMultipleFiles := record.bool? 10
  goPackage := record.text? 11
  ccGenericServices := record.bool? 16
  javaGenericServices := record.bool? 17
  pyGenericServices := record.bool? 18
  javaGenerateEqualsAndHash := record.bool? 20
  deprecated := record.bool? 23
  javaStringCheckUtf8 := record.bool? 27
  ccEnableArenas := record.bool? 31
  objcClassPrefix := record.text? 36
  csharpNamespace := record.text? 37
  swiftPrefix := record.text? 39
  phpClassPrefix := record.text? 40
  phpNamespace := record.text? 41
  phpGenericServices := record.bool? 42
  phpMetadataNamespace := record.text? 44
  rubyPackage := record.text? 45
  custom := record.records 999

/-- The record of a block of options. -/
def toRecord (options : FileOptions) : Record :=
  Record.single 1 .text options.javaPackage ++
  Record.single 8 .text options.javaOuterClassname ++
  Record.single 9 .int32 options.optimizeFor ++
  Record.single 10 .bool options.javaMultipleFiles ++
  Record.single 11 .text options.goPackage ++
  Record.single 16 .bool options.ccGenericServices ++
  Record.single 17 .bool options.javaGenericServices ++
  Record.single 18 .bool options.pyGenericServices ++
  Record.single 20 .bool options.javaGenerateEqualsAndHash ++
  Record.single 23 .bool options.deprecated ++
  Record.single 27 .bool options.javaStringCheckUtf8 ++
  Record.single 31 .bool options.ccEnableArenas ++
  Record.single 36 .text options.objcClassPrefix ++
  Record.single 37 .text options.csharpNamespace ++
  Record.single 39 .text options.swiftPrefix ++
  Record.single 40 .text options.phpClassPrefix ++
  Record.single 41 .text options.phpNamespace ++
  Record.single 42 .bool options.phpGenericServices ++
  Record.single 44 .text options.phpMetadataNamespace ++
  Record.single 45 .text options.rubyPackage ++
  Record.many 999 .record options.custom

/-- Whether two blocks hold the same options, doubles being compared as numbers. -/
def agrees (a b : FileOptions) : Bool :=
  Record.agrees a.toRecord b.toRecord

end FileOptions

end SchemaOptions
