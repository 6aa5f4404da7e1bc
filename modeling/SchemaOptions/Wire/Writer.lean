import SchemaOptions.Wire.Record
import SchemaOptions.Wire.Varint

/-!
# Writing a record

The fields of a record are written in its order, each as a key and a content. A negative number of
32 bits is widened to 64 bits first, so it takes ten bytes.
-/

namespace SchemaOptions.Wire

/-- The key of a field: its tag and the layout of what follows. -/
def key (tag layout : Nat) : List UInt8 :=
  Varint.write (8 * tag + layout)

/-- Bytes behind their count. -/
def counted (bytes : List UInt8) : List UInt8 :=
  Varint.write bytes.length ++ bytes

/-- A signed number of 32 bits. -/
def int32Bytes (n : Int32) : List UInt8 :=
  Varint.write n.toInt64.toUInt64.toNat

/-- The lowest `count` bytes of a number, lowest first. -/
def lowBytes : (count : Nat) → Nat → List UInt8
  | 0, _ => []
  | count + 1, n => n.toUInt8 :: lowBytes count (n / 256)

mutual

/-- A field: its key and its content. -/
def Value.write (tag : Nat) : Value → List UInt8
  | .int32 n => key tag 0 ++ int32Bytes n
  | .packed ns => key tag 2 ++ counted (ns.flatMap int32Bytes)
  | .bool b => key tag 0 ++ Varint.write b.toNat
  | .word bits => key tag 0 ++ Varint.write bits.toNat
  | .double bits => key tag 1 ++ lowBytes 8 bits.toNat
  | .text s => key tag 2 ++ counted s.toUTF8.data.toList
  | .octets bytes => key tag 2 ++ counted bytes
  | .record fields => key tag 2 ++ counted (Record.write fields)

/-- The fields of a record, one after the other. -/
def Record.write : List (Nat × Value) → List UInt8
  | [] => []
  | (tag, value) :: rest => value.write tag ++ Record.write rest

end

end SchemaOptions.Wire
