import SchemaOptions.Text.Ranges

/-!
# White space and controls

The characters that the Unicode standard calls white space (`isBlank`) and those of its control
category (`isControl`). Core's own `Char.isWhitespace` knows only four of the first.
-/

namespace SchemaOptions.Text

/-- The characters with the property White_Space. -/
def blankRanges : Ranges := [
  (0x0009, 0x000D), (0x0020, 0x0020), (0x0085, 0x0085), (0x00A0, 0x00A0), (0x1680, 0x1680),
  (0x2000, 0x200A), (0x2028, 0x2029), (0x202F, 0x202F), (0x205F, 0x205F), (0x3000, 0x3000)]

/-- Whether a character is white space. -/
def isBlank (c : Char) : Bool :=
  blankRanges.has c

/-- Whether a character is a control: the C0 block, delete and the C1 block. -/
def isControl (c : Char) : Bool :=
  c.toNat < 0x20 || (0x7F ≤ c.toNat && c.toNat ≤ 0x9F)

end SchemaOptions.Text
