import SchemaOptions.Proofs.Wire.Varint

/-!
# Laws of tokens

The bytes of a record are its tokens, one for each of its fields (`Record.tokens`). Cutting the
bytes into tokens gives these back (`Token.readAll?_write`), as long as the tags are ones that a key
can hold and the bytes are no more than a count can tell.
-/

namespace SchemaOptions.Wire

/-! ## Bytes of a fixed number -/

theorem takeBytes?_append (bytes rest : List UInt8) :
    takeBytes? bytes.length (bytes ++ rest) = some (bytes, rest) := by
  rw [takeBytes?, if_pos (by rw [List.length_append]; omega), List.splitAt_eq, List.take_left,
    List.drop_left]

theorem length_lowBytes (count n : Nat) : (lowBytes count n).length = count := by
  induction count generalizing n with
  | zero => rfl
  | succ count ih => rw [lowBytes, List.length_cons, ih]

/-- The lowest bytes of a number that has no others spell the number. -/
theorem littleEndian_lowBytes {count n : Nat} (h : n < 256 ^ count) :
    littleEndian (lowBytes count n) = n := by
  induction count generalizing n with
  | zero =>
    rw [Nat.pow_zero] at h
    exact (Nat.lt_one_iff.1 h).symm
  | succ count ih =>
    have hhigh : n / 256 < 256 ^ count := by
      rw [Nat.div_lt_iff_lt_mul (by omega)]
      exact h
    have hbyte : n.toUInt8.toNat = n % 256 := UInt8.toNat_ofNat
    rw [lowBytes, littleEndian, ih hhigh, hbyte]
    exact Nat.mod_add_div n 256

/-! ## Contents -/

/-- The content that a value is written as. -/
def Value.content : Value → Content
  | .int32 n => .varint (widened n)
  | .packed ns => .chunk (ns.flatMap int32Bytes)
  | .bool b => .varint b.toNat
  | .word bits => .varint bits.toNat
  | .double bits => .fixed64 bits
  | .text s => .chunk s.toUTF8.data.toList
  | .octets bytes => .chunk bytes
  | .record fields => .chunk (Record.write fields)

/-- The tokens of a record. -/
def Record.tokens (record : Record) : List Token :=
  record.map fun (tag, value) => ⟨tag, value.content⟩

/-- Whether a key can hold a tag. -/
def ValidTag (tag : Nat) : Prop :=
  1 ≤ tag ∧ tag < 2 ^ 29

/-- A key that was written is read back as its two parts. -/
theorem Token.read?_key {tag layout : Nat} (htag : ValidTag tag) (hlayout : layout < 8)
    (bytes : List UInt8) :
    Token.read? (key tag layout ++ bytes) =
      (Content.read? layout bytes).map fun (content, rest) => (⟨tag, content⟩, rest) := by
  obtain ⟨hlow, hhigh⟩ := htag
  have hkey : 8 * tag + layout < UInt32.size ∧ 8 ≤ 8 * tag + layout := by
    rw [UInt32.size]
    omega
  have hmod : (8 * tag + layout) % 8 = layout := by omega
  have hdiv : (8 * tag + layout) / 8 = tag := by omega
  rw [Token.read?, key, Varint.read?_write (by omega)]
  simp only [if_pos hkey, hmod, hdiv]

theorem Content.read?_counted {bytes : List UInt8} (h : bytes.length < 2 ^ 64)
    (rest : List UInt8) : Content.read? 2 (counted bytes ++ rest) = some (.chunk bytes, rest) := by
  rw [counted, List.append_assoc, Content.read?, Varint.read?_write h]
  simp only [takeBytes?_append, Option.map_some]

/-- A count is written before bytes, so they are fewer. -/
theorem length_le_of_counted {bytes : List UInt8} {size : Nat} {first : List UInt8}
    (h : (first ++ counted bytes).length < size) : bytes.length < size := by
  rw [List.length_append, counted, List.length_append] at h
  omega

/-- A field that was written is read back as its token. -/
theorem Token.read?_write {tag : Nat} {value : Value} (htag : ValidTag tag)
    (hsize : (value.write tag).length < 2 ^ 64) (rest : List UInt8) :
    Token.read? (value.write tag ++ rest) = some (⟨tag, value.content⟩, rest) := by
  have hvarint {n : Nat} (h : n < 2 ^ 64) :
      Token.read? (key tag 0 ++ Varint.write n ++ rest) = some (⟨tag, .varint n⟩, rest) := by
    rw [List.append_assoc, Token.read?_key htag (by omega), Content.read?, Varint.read?_write h]
    rfl
  have hchunk {bytes : List UInt8} (h : (key tag 2 ++ counted bytes).length < 2 ^ 64) :
      Token.read? (key tag 2 ++ counted bytes ++ rest) = some (⟨tag, .chunk bytes⟩, rest) := by
    rw [List.append_assoc, Token.read?_key htag (by omega),
      Content.read?_counted (length_le_of_counted h)]
    rfl
  cases value with
  | int32 n =>
    rw [Value.write, int32Bytes]
    exact hvarint (widened_lt n)
  | packed ns =>
    rw [Value.write] at hsize ⊢
    exact hchunk hsize
  | bool b =>
    rw [Value.write]
    exact hvarint (by cases b <;> decide)
  | word bits =>
    rw [Value.write]
    exact hvarint bits.toNat_lt
  | double bits =>
    have hbits : littleEndian (lowBytes 8 bits.toNat) = bits.toNat :=
      littleEndian_lowBytes bits.toNat_lt
    have htake := takeBytes?_append (lowBytes 8 bits.toNat) rest
    rw [length_lowBytes] at htake
    rw [Value.write, List.append_assoc, Token.read?_key htag (by omega), Content.read?, htake]
    simp only [Option.map_some, hbits, UInt64.ofNat_toNat]
    rfl
  | text s =>
    rw [Value.write] at hsize ⊢
    exact hchunk hsize
  | octets bytes =>
    rw [Value.write] at hsize ⊢
    exact hchunk hsize
  | record fields =>
    rw [Value.write] at hsize ⊢
    exact hchunk hsize

/-- The first token is read, and then the others. -/
theorem Token.readAll?_of_read? {bytes rest : List UInt8} {token : Token}
    (h : Token.read? bytes = some (token, rest)) :
    Token.readAll? bytes = (Token.readAll? rest).map (token :: ·) := by
  cases bytes with
  | nil => exact absurd (Token.read?_shortens h) (Nat.not_lt_zero _)
  | cons b tail =>
    rw [Token.readAll?]
    split
    · rename_i hnone
      rw [h] at hnone
      cases hnone
    · rename_i token' rest' hsome
      rw [h] at hsome
      cases hsome
      rfl

/-- The bytes of a record are cut into its tokens. -/
theorem Token.readAll?_write {record : Record} (htags : ∀ field ∈ record, ValidTag field.1)
    (hsize : (Record.write record).length < 2 ^ 64) :
    Token.readAll? (Record.write record) = some record.tokens := by
  induction record with
  | nil =>
    rw [Record.write, Token.readAll?]
    rfl
  | cons field rest ih =>
    obtain ⟨tag, value⟩ := field
    rw [Record.write, List.length_append] at hsize
    have hread := Token.read?_write (htags (tag, value) List.mem_cons_self)
      (by omega : (value.write tag).length < 2 ^ 64) (Record.write rest)
    rw [Record.write, Token.readAll?_of_read? hread,
      ih (fun field hmem => htags field (List.mem_cons_of_mem _ hmem)) (by omega)]
    rfl

/-! ## Texts -/

/-- The bytes of a text are read as the text. -/
theorem textOf?_toUTF8 (s : String) : textOf? s.toUTF8.data.toList = some s := by
  have hbytes : s.toUTF8.data.toList.toByteArray = s.toUTF8 := by
    apply ByteArray.ext
    simp
  rw [textOf?, hbytes]
  exact dif_pos s.isValidUTF8

end SchemaOptions.Wire
