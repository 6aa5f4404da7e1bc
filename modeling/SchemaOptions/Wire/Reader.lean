import SchemaOptions.Wire.Schema
import SchemaOptions.Wire.Token

/-!
# Reading a record

The tokens of a message are taken in order, each changing the record read so far. A field of the
schema must have the content that its type asks for. Of a field that may occur once the last value
counts, except that messages are merged: the later one goes on where the earlier one ended. Numbers
that may repeat are read one by one or as a piece, whichever the bytes hold.

A field outside the schema is skipped, groups included: between its opening and its closing key
every token is skipped, whatever its tag.

Nesting is bounded. Reading starts with a budget; the content of a message has one less than the
message itself, and a token to be skipped needs one for itself and one for every group around it.
Because the state between two tokens is just the open groups and the record, reading the bytes of
two messages one after the other is reading their concatenation.
-/

namespace SchemaOptions.Wire

/-- The state between two tokens: the tags of the groups that are open, innermost first, and the
record read so far. -/
structure Progress where
  openGroups : List Nat
  record : Record

/-- The bytes of a text, if they are its encoding. -/
def textOf? (bytes : List UInt8) : Option String :=
  String.fromUTF8? bytes.toByteArray

/-- The number of 32 bits that a number of variable length stands for: its lowest 32 bits. -/
def int32Of (n : Nat) : Int32 :=
  Int32.ofNat n

/-- The value that a content stands for in a field that holds no message. -/
def FieldType.plain? : FieldType → Content → Option Value
  | .int32, .varint n => some (.int32 (int32Of n))
  | .bool, .varint n => some (.bool (n != 0))
  | .word, .varint n => some (.word (UInt64.ofNat n))
  | .double, .fixed64 bits => some (.double bits)
  | .text, .chunk bytes => (textOf? bytes).map .text
  | .octets, .chunk bytes => some (.octets bytes)
  | _, _ => none

/-- Adds numbers to a list that is laid out as one piece. -/
def Record.extend (tag : Nat) (ns : List Int32) (record : Record) : Record :=
  match record.packed tag ++ ns with
  | [] => record
  | all => record.put tag (.packed all)

/-- Adds a list of numbers to a field that may repeat. -/
def Field.addAll (field : Field) (ns : List Int32) (record : Record) : Record :=
  if field.occurrence = .packed then
    record.extend field.tag ns
  else
    ns.foldl (fun record n => record.insert field.tag (.int32 n)) record

/-- Adds a value that is no message. -/
def Field.add (field : Field) (value : Value) (record : Record) : Record :=
  match field.occurrence, value with
  | .packed, .int32 n => record.extend field.tag [n]
  | .packed, _ => record
  | .repeated, value => record.insert field.tag value
  | _, value => record.put field.tag value

/-- Whether a field may occur more than once. -/
def Field.mayRepeat (field : Field) : Bool :=
  field.occurrence = .repeated || field.occurrence = .packed

/-- Takes the content of a known field into the record. The first argument reads the content of a
message, starting from the record that it is merged into. -/
def Field.take (enter : MessageType → Record → List UInt8 → Option Record) (field : Field)
    (content : Content) (record : Record) : Option Record :=
  match field.type, content with
  | .message type, .chunk bytes =>
    if field.occurrence = .repeated then
      (enter type type.blank bytes).map fun inner => record.insert field.tag (.record inner)
    else
      let start := (record.record? field.tag).getD type.blank
      (enter type start bytes).map fun inner => record.put field.tag (.record inner)
  | .int32, .chunk bytes =>
    if field.mayRepeat then
      (Varint.readAll bytes).map fun ns => field.addAll (ns.map int32Of) record
    else
      none
  | type, content => (type.plain? content).map fun value => field.add value record

/-- Skips a token: it must fit the budget, and a closing key must close the innermost open group. -/
def Progress.skip (budget : Nat) (token : Token) (progress : Progress) : Option Progress :=
  match token.content, progress.openGroups with
  | .closeGroup, [] => none
  | .closeGroup, tag :: outer =>
    if token.tag = tag then some { progress with openGroups := outer } else none
  | content, groups =>
    if groups.length < budget then
      match content with
      | .openGroup => some { progress with openGroups := token.tag :: groups }
      | _ => some progress
    else
      none

/-- Takes a token of a message of the given type. -/
def Progress.step (enter : MessageType → Record → List UInt8 → Option Record) (budget : Nat)
    (type : MessageType) (progress : Progress) (token : Token) : Option Progress :=
  if progress.openGroups.isEmpty then
    match type.field? token.tag with
    | some field =>
      (field.take enter token.content progress.record).map fun record => { progress with record }
    | none => progress.skip budget token
  else
    progress.skip budget token

/-- Reads a message whose own messages are read by the first argument. -/
def readTokens (enter : MessageType → Record → List UInt8 → Option Record) (budget : Nat)
    (type : MessageType) (start : Record) (bytes : List UInt8) : Option Record := do
  let tokens ← Token.readAll? bytes
  let progress ← tokens.foldlM (Progress.step enter budget type) ⟨[], start⟩
  if progress.openGroups.isEmpty then some progress.record else none

/-- Reads a message within a budget, starting from the record that it is merged into. -/
def readWithin : (budget : Nat) → MessageType → Record → List UInt8 → Option Record
  | 0 => readTokens (fun _ _ _ => none) 0
  | budget + 1 => readTokens (readWithin budget) (budget + 1)

/-- How deep messages may be nested. -/
def nestingLimit : Nat := 100

/-- Reads a message. -/
def read? (type : MessageType) (bytes : List UInt8) : Option Record :=
  readWithin nestingLimit type type.blank bytes

end SchemaOptions.Wire
