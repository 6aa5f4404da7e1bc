import SchemaOptions.Image.Basic
import SchemaOptions.Wire.Reader
import SchemaOptions.Wire.Writer

/-!
# Images as bytes

The bytes of an image are those of a message with one field, which repeats once for every file.
Decoding reads the message and checks that its files make an image; encoding writes the files back
in their order.
-/

namespace SchemaOptions.Image

open SchemaOptions.Wire

/-- The files that the bytes hold. -/
def filesOfBytes? (bytes : List UInt8) : Option (List File) :=
  (read? .fileSet bytes).map fun record => (record.records 1).map File.ofRecord

/-- The image that the bytes hold. -/
def decode (bytes : List UInt8) : Except ImageError Image :=
  match filesOfBytes? bytes with
  | none => .error .malformed
  | some files => ofFiles files

/-- The bytes of an image. -/
def encode (image : Image) : List UInt8 :=
  Record.write (Record.many 1 (fun file => .record file.toRecord) image.files)

end SchemaOptions.Image
