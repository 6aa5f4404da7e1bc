import SchemaOptions.Wire.Varint

/-!
# Tokens of a message

The bytes of a message are a sequence of fields, each a key and a content. The key names the field
by its tag and says how the content is laid out. A group is laid out as an opening key, the fields
inside it and a closing key with the same tag, so on this level it is two tokens with others between
them. `Token.readAll?` cuts bytes into tokens without asking what message they belong to; it refuses
a key above 2^32 - 1, the tag zero, an unknown layout, and a content that the bytes end within.
-/

namespace SchemaOptions.Wire

/-- The content of a field, as it is laid out. -/
inductive Content where
  /-- A number of variable length, below 2^64. -/
  | varint (n : Nat)
  /-- Eight bytes, as the number that they spell lowest byte first. -/
  | fixed64 (bits : UInt64)
  /-- Bytes behind their count. -/
  | chunk (bytes : List UInt8)
  /-- The start of a group. -/
  | openGroup
  /-- The end of a group. -/
  | closeGroup
  /-- Four bytes. No field of a schema has them. -/
  | fixed32

/-- A key and the content behind it. -/
structure Token where
  tag : Nat
  content : Content

/-- The number that bytes spell, lowest byte first. -/
def littleEndian : List UInt8 → Nat
  | [] => 0
  | b :: rest => b.toNat + 256 * littleEndian rest

/-- The first `count` bytes and the rest; nothing if there are fewer. -/
def takeBytes? (count : Nat) (bytes : List UInt8) : Option (List UInt8 × List UInt8) :=
  if count ≤ bytes.length then some (bytes.splitAt count) else none

/-- The content that follows a key of the given layout, and the bytes after it. -/
def Content.read? (layout : Nat) (bytes : List UInt8) : Option (Content × List UInt8) :=
  match layout with
  | 0 => (Varint.read? bytes).map fun (n, rest) => (.varint n, rest)
  | 1 => (takeBytes? 8 bytes).map fun (b, rest) => (.fixed64 (UInt64.ofNat (littleEndian b)), rest)
  | 2 =>
    match Varint.read? bytes with
    | none => none
    | some (count, rest) => (takeBytes? count rest).map fun (b, rest) => (.chunk b, rest)
  | 3 => some (.openGroup, bytes)
  | 4 => some (.closeGroup, bytes)
  | 5 => (takeBytes? 4 bytes).map fun (_, rest) => (.fixed32, rest)
  | _ => none

/-- The token at the head of a list of bytes, and the bytes after it. -/
def Token.read? (bytes : List UInt8) : Option (Token × List UInt8) :=
  match Varint.read? bytes with
  | none => none
  | some (key, rest) =>
    if key < UInt32.size ∧ 8 ≤ key then
      (Content.read? (key % 8) rest).map fun (content, rest) => (⟨key / 8, content⟩, rest)
    else
      none

theorem takeBytes?_length {count : Nat} {bytes taken rest : List UInt8}
    (h : takeBytes? count bytes = some (taken, rest)) : rest.length ≤ bytes.length := by
  simp only [takeBytes?] at h
  split at h
  · simp only [List.splitAt_eq, Option.some.injEq, Prod.mk.injEq] at h
    simp [← h.2]
  · simp at h

theorem Content.read?_length {layout : Nat} {bytes rest : List UInt8} {content : Content}
    (h : Content.read? layout bytes = some (content, rest)) : rest.length ≤ bytes.length := by
  unfold Content.read? at h
  split at h
  · obtain ⟨⟨n, after⟩, hread, heq⟩ := Option.map_eq_some_iff.1 h
    simp only [Prod.mk.injEq] at heq
    have := Varint.read?_shortens hread
    rw [← heq.2]
    omega
  · obtain ⟨⟨b, after⟩, htake, heq⟩ := Option.map_eq_some_iff.1 h
    simp only [Prod.mk.injEq] at heq
    exact heq.2 ▸ takeBytes?_length htake
  · split at h
    · simp at h
    · rename_i count after hread
      obtain ⟨⟨b, last⟩, htake, heq⟩ := Option.map_eq_some_iff.1 h
      simp only [Prod.mk.injEq] at heq
      have := Varint.read?_shortens hread
      have := takeBytes?_length htake
      rw [← heq.2]
      omega
  · simp only [Option.some.injEq, Prod.mk.injEq] at h
    simp [h.2]
  · simp only [Option.some.injEq, Prod.mk.injEq] at h
    simp [h.2]
  · obtain ⟨⟨b, after⟩, htake, heq⟩ := Option.map_eq_some_iff.1 h
    simp only [Prod.mk.injEq] at heq
    exact heq.2 ▸ takeBytes?_length htake
  · simp at h

/-- A token takes at least one byte. -/
theorem Token.read?_shortens {bytes rest : List UInt8} {token : Token}
    (h : Token.read? bytes = some (token, rest)) : rest.length < bytes.length := by
  unfold Token.read? at h
  split at h
  · simp at h
  · rename_i key after hread
    split at h
    · obtain ⟨⟨content, last⟩, hcontent, heq⟩ := Option.map_eq_some_iff.1 h
      simp only [Prod.mk.injEq] at heq
      have := Varint.read?_shortens hread
      have := Content.read?_length hcontent
      rw [← heq.2]
      omega
    · simp at h

/-- All the tokens of a list of bytes; nothing if some part of it is no token. -/
def Token.readAll? (bytes : List UInt8) : Option (List Token) :=
  match bytes with
  | [] => some []
  | b :: tail =>
    match _ : Token.read? (b :: tail) with
    | none => none
    | some (token, rest) => (Token.readAll? rest).map (token :: ·)
termination_by bytes.length
decreasing_by exact Token.read?_shortens ‹_›

end SchemaOptions.Wire
