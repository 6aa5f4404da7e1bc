import SchemaOptions.Wire.Record

/-!
# The messages of a schema image

Each kind of message that an image is made of, and for each the fields that are known: their tags,
what they hold and how often they occur. Fields are listed in ascending order of their tags, which
is the order in which they are written.
-/

namespace SchemaOptions.Wire

/-- The kinds of messages. -/
inductive MessageType where
  | fileSet
  | file
  | message
  | extensionRange
  | reservedRange
  | field
  | oneof
  | enumeration
  | enumerationValue
  | service
  | method
  | fileOptions
  | messageOptions
  | fieldOptions
  | oneofOptions
  | extensionRangeOptions
  | enumerationOptions
  | enumerationValueOptions
  | serviceOptions
  | methodOptions
  | customOption
  | customOptionNamePart
  | sourceInfo
  | location
deriving DecidableEq

/-- What a field holds. The number of an enumeration's case is laid out as a number of 32 bits. -/
inductive FieldType where
  | int32
  | bool
  | word
  | double
  | text
  | octets
  | message (type : MessageType)
deriving DecidableEq

/-- How often a field occurs. -/
inductive Occurrence where
  /-- Once or not at all. -/
  | optional
  /-- Once; a message without it has the default value. -/
  | required
  /-- Any number of times. -/
  | repeated
  /-- Any number of times, written as one piece. -/
  | packed
deriving DecidableEq

/-- A known field of a message. -/
structure Field where
  tag : Nat
  type : FieldType
  occurrence : Occurrence
deriving DecidableEq

/-- The list of custom options that ends every block of options. -/
def customOptions : Field :=
  ⟨999, .message .customOption, .repeated⟩

/-- The known fields of a kind of message. -/
def MessageType.fields : MessageType → List Field
  | .fileSet => [⟨1, .message .file, .repeated⟩]
  | .file => [
      ⟨1, .text, .optional⟩,
      ⟨2, .text, .optional⟩,
      ⟨3, .text, .repeated⟩,
      ⟨4, .message .message, .repeated⟩,
      ⟨5, .message .enumeration, .repeated⟩,
      ⟨6, .message .service, .repeated⟩,
      ⟨7, .message .field, .repeated⟩,
      ⟨8, .message .fileOptions, .optional⟩,
      ⟨9, .message .sourceInfo, .optional⟩,
      ⟨10, .int32, .repeated⟩,
      ⟨11, .int32, .repeated⟩,
      ⟨12, .text, .optional⟩]
  | .message => [
      ⟨1, .text, .optional⟩,
      ⟨2, .message .field, .repeated⟩,
      ⟨3, .message .message, .repeated⟩,
      ⟨4, .message .enumeration, .repeated⟩,
      ⟨5, .message .extensionRange, .repeated⟩,
      ⟨6, .message .field, .repeated⟩,
      ⟨7, .message .messageOptions, .optional⟩,
      ⟨8, .message .oneof, .repeated⟩,
      ⟨9, .message .reservedRange, .repeated⟩,
      ⟨10, .text, .repeated⟩]
  | .extensionRange => [
      ⟨1, .int32, .optional⟩,
      ⟨2, .int32, .optional⟩,
      ⟨3, .message .extensionRangeOptions, .optional⟩]
  | .reservedRange => [
      ⟨1, .int32, .optional⟩,
      ⟨2, .int32, .optional⟩]
  | .field => [
      ⟨1, .text, .optional⟩,
      ⟨2, .text, .optional⟩,
      ⟨3, .int32, .optional⟩,
      ⟨4, .int32, .optional⟩,
      ⟨5, .int32, .optional⟩,
      ⟨6, .text, .optional⟩,
      ⟨7, .text, .optional⟩,
      ⟨8, .message .fieldOptions, .optional⟩,
      ⟨9, .int32, .optional⟩,
      ⟨10, .text, .optional⟩,
      ⟨17, .bool, .optional⟩]
  | .oneof => [
      ⟨1, .text, .optional⟩,
      ⟨2, .message .oneofOptions, .optional⟩]
  | .enumeration => [
      ⟨1, .text, .optional⟩,
      ⟨2, .message .enumerationValue, .repeated⟩,
      ⟨3, .message .enumerationOptions, .optional⟩,
      ⟨4, .message .reservedRange, .repeated⟩,
      ⟨5, .text, .repeated⟩]
  | .enumerationValue => [
      ⟨1, .text, .optional⟩,
      ⟨2, .int32, .optional⟩,
      ⟨3, .message .enumerationValueOptions, .optional⟩]
  | .service => [
      ⟨1, .text, .optional⟩,
      ⟨2, .message .method, .repeated⟩,
      ⟨3, .message .serviceOptions, .optional⟩]
  | .method => [
      ⟨1, .text, .optional⟩,
      ⟨2, .text, .optional⟩,
      ⟨3, .text, .optional⟩,
      ⟨4, .message .methodOptions, .optional⟩,
      ⟨5, .bool, .optional⟩,
      ⟨6, .bool, .optional⟩]
  | .fileOptions => [
      ⟨1, .text, .optional⟩,
      ⟨8, .text, .optional⟩,
      ⟨9, .int32, .optional⟩,
      ⟨10, .bool, .optional⟩,
      ⟨11, .text, .optional⟩,
      ⟨16, .bool, .optional⟩,
      ⟨17, .bool, .optional⟩,
      ⟨18, .bool, .optional⟩,
      ⟨20, .bool, .optional⟩,
      ⟨23, .bool, .optional⟩,
      ⟨27, .bool, .optional⟩,
      ⟨31, .bool, .optional⟩,
      ⟨36, .text, .optional⟩,
      ⟨37, .text, .optional⟩,
      ⟨39, .text, .optional⟩,
      ⟨40, .text, .optional⟩,
      ⟨41, .text, .optional⟩,
      ⟨42, .bool, .optional⟩,
      ⟨44, .text, .optional⟩,
      ⟨45, .text, .optional⟩,
      customOptions]
  | .messageOptions => [
      ⟨1, .bool, .optional⟩,
      ⟨2, .bool, .optional⟩,
      ⟨3, .bool, .optional⟩,
      ⟨7, .bool, .optional⟩,
      customOptions]
  | .fieldOptions => [
      ⟨1, .int32, .optional⟩,
      ⟨2, .bool, .optional⟩,
      ⟨3, .bool, .optional⟩,
      ⟨5, .bool, .optional⟩,
      ⟨6, .int32, .optional⟩,
      ⟨10, .bool, .optional⟩,
      customOptions]
  | .oneofOptions => [customOptions]
  | .extensionRangeOptions => [customOptions]
  | .enumerationOptions => [
      ⟨2, .bool, .optional⟩,
      ⟨3, .bool, .optional⟩,
      customOptions]
  | .enumerationValueOptions => [
      ⟨1, .bool, .optional⟩,
      customOptions]
  | .serviceOptions => [
      ⟨33, .bool, .optional⟩,
      customOptions]
  | .methodOptions => [
      ⟨33, .bool, .optional⟩,
      ⟨34, .int32, .optional⟩,
      customOptions]
  | .customOption => [
      ⟨2, .message .customOptionNamePart, .repeated⟩,
      ⟨3, .text, .optional⟩,
      ⟨4, .word, .optional⟩,
      ⟨5, .word, .optional⟩,
      ⟨6, .double, .optional⟩,
      ⟨7, .octets, .optional⟩,
      ⟨8, .text, .optional⟩]
  | .customOptionNamePart => [
      ⟨1, .text, .required⟩,
      ⟨2, .bool, .required⟩]
  | .sourceInfo => [⟨1, .message .location, .repeated⟩]
  | .location => [
      ⟨1, .int32, .packed⟩,
      ⟨2, .int32, .packed⟩,
      ⟨3, .text, .optional⟩,
      ⟨4, .text, .optional⟩,
      ⟨6, .text, .repeated⟩]

/-- The known field with a tag. -/
def MessageType.field? (type : MessageType) (tag : Nat) : Option Field :=
  type.fields.find? (·.tag == tag)

/-- The value of a required field that a message does not have. -/
def FieldType.default : FieldType → Value
  | .int32 => .int32 0
  | .bool => .bool false
  | .word => .word 0
  | .double => .double 0
  | .text => .text ""
  | .octets => .octets []
  | .message _ => .record []

/-- The record of a message without any bytes: required fields have their default values. -/
def MessageType.blank (type : MessageType) : Record :=
  type.fields.filterMap fun field =>
    if field.occurrence = .required then some (field.tag, field.type.default) else none

end SchemaOptions.Wire
