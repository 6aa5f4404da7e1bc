/-!
# Records

A message that has been read is a record: its fields in ascending order of their tags, and the
values of one tag in the order in which they were read. A field that may be present once at most has
one entry or none, so presence is kept apart from the default value; a list of numbers that is laid
out as one piece is one entry, and there is no entry for the empty list.

`Record.agrees` compares records as values rather than as representations: two doubles agree if they
are equal as numbers, so the two zeros agree and something that is not a number agrees with nothing,
not even with itself.
-/

namespace SchemaOptions.Wire

/-- The value of a field. -/
inductive Value where
  /-- A signed number of 32 bits, or the number of an enumeration's case. -/
  | int32 (n : Int32)
  /-- A list of signed numbers of 32 bits that is laid out as one piece. -/
  | packed (ns : List Int32)
  | bool (b : Bool)
  /-- A number of 64 bits, signed or not. -/
  | word (bits : UInt64)
  /-- A double, as its 64 bits. -/
  | double (bits : UInt64)
  | text (s : String)
  | octets (bytes : List UInt8)
  | record (fields : List (Nat × Value))

/-- The fields of a message with their tags. -/
abbrev Record := List (Nat × Value)

namespace Record

/-- Adds a value behind all that have the same tag or a lower one. -/
def insert (tag : Nat) (value : Value) : Record → Record
  | [] => [(tag, value)]
  | field :: rest =>
    if field.1 ≤ tag then field :: insert tag value rest else (tag, value) :: field :: rest

/-- Makes a value the only one with its tag. -/
def put (tag : Nat) (value : Value) (record : Record) : Record :=
  insert tag value (record.filter (·.1 != tag))

/-- The values with a tag, in order. -/
def all (tag : Nat) (record : Record) : List Value :=
  (record.filter (·.1 == tag)).map (·.2)

/-! ## Fields by kind -/

/-- The text with a tag. -/
def text? (tag : Nat) (record : Record) : Option String :=
  match record.lookup tag with
  | some (.text s) => some s
  | _ => none

/-- The truth value with a tag. -/
def bool? (tag : Nat) (record : Record) : Option Bool :=
  match record.lookup tag with
  | some (.bool b) => some b
  | _ => none

/-- The number of 32 bits with a tag. -/
def int32? (tag : Nat) (record : Record) : Option Int32 :=
  match record.lookup tag with
  | some (.int32 n) => some n
  | _ => none

/-- The record with a tag. -/
def record? (tag : Nat) (record : Record) : Option Record :=
  match record.lookup tag with
  | some (.record fields) => some fields
  | _ => none

/-- The list of numbers with a tag that is laid out as one piece. -/
def packed (tag : Nat) (record : Record) : List Int32 :=
  match record.lookup tag with
  | some (.packed ns) => ns
  | _ => []

/-- The texts with a tag. -/
def texts (tag : Nat) (record : Record) : List String :=
  (record.all tag).filterMap fun
    | .text s => some s
    | _ => none

/-- The numbers of 32 bits with a tag. -/
def int32s (tag : Nat) (record : Record) : List Int32 :=
  (record.all tag).filterMap fun
    | .int32 n => some n
    | _ => none

/-- The records with a tag. -/
def records (tag : Nat) (record : Record) : List Record :=
  (record.all tag).filterMap fun
    | .record fields => some fields
    | _ => none

/-! ## Records in the making -/

/-- One entry for a field that is present, none for one that is not. -/
def single {α : Type} (tag : Nat) (wrap : α → Value) (value : Option α) : Record :=
  value.toList.map fun a => (tag, wrap a)

/-- An entry for each value of a field that may repeat. -/
def many {α : Type} (tag : Nat) (wrap : α → Value) (values : List α) : Record :=
  values.map fun a => (tag, wrap a)

/-- One entry for a list that is laid out as one piece, none if it is empty. -/
def piece (tag : Nat) (ns : List Int32) : Record :=
  if ns.isEmpty then [] else [(tag, .packed ns)]

end Record

/-! ## Agreement -/

/-- The bit of the sign of a double; the bits below it are those of its magnitude. -/
def signBit : Nat := 0x8000000000000000

/-- Whether the bits of a double spell something that is not a number. -/
def isNotANumber (bits : UInt64) : Bool :=
  0x7FF0000000000000 < bits.toNat % signBit

/-- Whether the bits of two doubles spell equal numbers. -/
def doublesAgree (a b : UInt64) : Bool :=
  !isNotANumber a && !isNotANumber b &&
    (a == b || (a.toNat % signBit == 0 && b.toNat % signBit == 0))

mutual

/-- Whether two values are equal, doubles being compared as numbers. -/
def Value.agrees : Value → Value → Bool
  | .int32 m, .int32 n => m == n
  | .packed ms, .packed ns => ms == ns
  | .bool a, .bool b => a == b
  | .word a, .word b => a == b
  | .double a, .double b => doublesAgree a b
  | .text s, .text t => s == t
  | .octets a, .octets b => a == b
  | .record fs, .record gs => Record.agrees fs gs
  | _, _ => false

/-- Whether two records are equal field by field, doubles being compared as numbers. -/
def Record.agrees : List (Nat × Value) → List (Nat × Value) → Bool
  | [], [] => true
  | (t, v) :: fs, (u, w) :: gs => t == u && v.agrees w && Record.agrees fs gs
  | _, _ => false

end

/-- Whether two lists of records are equal one by one. -/
def Record.allAgree : List Record → List Record → Bool
  | [], [] => true
  | r :: rs, s :: ss => Record.agrees r s && allAgree rs ss
  | _, _ => false

end SchemaOptions.Wire
