import Mathlib.Tactic.SplitIfs

/-!
# The order of bytes

Texts are compared character by character, and their UTF-8 bytes byte by byte. Both ways put two
texts into the same order (`utf8Bytes_lt_of_lt`). A character that takes more bytes has a greater
first byte. Of characters that take equally many, the bytes are digits of the code point, the most
significant first, and a further digit keeps the order of numbers (`KeepsOrder.continued`).
-/

namespace SchemaOptions.Text

/-- The bytes of a text in UTF-8. -/
def utf8Bytes (s : String) : List UInt8 :=
  s.toUTF8.data.toList

theorem utf8Bytes_eq (s : String) : utf8Bytes s = s.toList.flatMap String.utf8EncodeChar := by
  rw [utf8Bytes, String.toUTF8_eq_toByteArray, ← String.utf8Encode_toList, List.utf8Encode,
    List.data_toByteArray]

/-! ## Numbers as bytes -/

/-- Whether bytes that stand for the numbers below a bound are in the order of the numbers, whatever
follows them. -/
def KeepsOrder (bound : Nat) (bytes : Nat → List UInt8) : Prop :=
  ∀ m n, m < n → n < bound → ∀ others rest, bytes m ++ others < bytes n ++ rest

theorem ofNat_lt_ofNat {m n : Nat} (h : m < n) (hn : n < 256) : UInt8.ofNat m < UInt8.ofNat n := by
  rw [UInt8.lt_iff_toNat_lt, UInt8.toNat_ofNat', UInt8.toNat_ofNat']
  omega

/-- A first byte that holds a number. -/
theorem keepsOrder_lead (bound lead : Nat) (h : lead + bound ≤ 256) :
    KeepsOrder bound fun n => [UInt8.ofNat (n % bound + lead)] := by
  intro m n hlt hn others rest
  have hm := Nat.mod_eq_of_lt (Nat.lt_trans hlt hn)
  have hbyte : UInt8.ofNat (m % bound + lead) < UInt8.ofNat (n % bound + lead) := by
    rw [hm, Nat.mod_eq_of_lt hn]
    exact ofNat_lt_ofNat (by omega) (by omega)
  exact List.cons_lt_cons_iff.2 (.inl hbyte)

/-- A byte more, which holds the lowest six bits of a number. -/
theorem KeepsOrder.continued {bound : Nat} {bytes : Nat → List UInt8} (h : KeepsOrder bound bytes) :
    KeepsOrder (64 * bound) fun n => bytes (n / 64) ++ [UInt8.ofNat (n % 64 + 128)] := by
  intro m n hlt hn others rest
  simp only [List.append_assoc]
  obtain hhigh | ⟨hhigh, hlow⟩ : m / 64 < n / 64 ∨ m / 64 = n / 64 ∧ m % 64 < n % 64 := by omega
  · exact h _ _ hhigh (by omega) _ _
  · rw [hhigh]
    refine List.append_left_lt (List.cons_lt_cons_iff.2 (.inl ?_))
    exact ofNat_lt_ofNat (by omega) (by omega)

/-! ## Characters as bytes -/

/-- The code points of characters end before 17 planes of 2^16 each. -/
theorem toNat_val_lt (c : Char) : c.val.toNat < 0x110000 := by
  have hvalid := c.valid
  unfold UInt32.isValidChar Nat.isValidChar at hvalid
  omega

/-- The bytes of characters are in the order of the characters, whatever follows them. -/
theorem utf8EncodeChar_append_lt {c d : Char} (h : c < d) (others rest : List UInt8) :
    String.utf8EncodeChar c ++ others < String.utf8EncodeChar d ++ rest := by
  have hlt : c.val.toNat < d.val.toNat := h
  have hd := toNat_val_lt d
  have hdigits (n : Nat) : n / 4096 = n / 64 / 64 ∧ n / 262144 = n / 64 / 64 / 64 := by omega
  have htwo := (keepsOrder_lead 32 192 (by decide)).continued
  have hthree := (keepsOrder_lead 16 224 (by decide)).continued.continued
  have hfour := (keepsOrder_lead 8 240 (by decide)).continued.continued.continued
  simp only [String.utf8EncodeChar, hdigits]
  split_ifs
  -- One case for each two lengths. If they are equal, the digits decide, else the first byte does;
  -- the greater character never takes fewer bytes.
  all_goals first
    | omega
    | exact htwo _ _ hlt (by omega) others rest
    | exact hthree _ _ hlt (by omega) others rest
    | exact hfour _ _ hlt (by omega) others rest
    | exact List.cons_lt_cons_iff.2 (.inl (ofNat_lt_ofNat (by omega) (by omega)))

/-! ## Texts as bytes -/

theorem flatMap_utf8EncodeChar_lt {cs ds : List Char} (h : cs < ds) :
    cs.flatMap String.utf8EncodeChar < ds.flatMap String.utf8EncodeChar := by
  induction cs generalizing ds with
  | nil =>
    cases ds with
    | nil => exact absurd h (List.not_lt_nil [])
    | cons d ds =>
      obtain ⟨byte, bytes, hd⟩ := List.exists_cons_of_ne_nil (@String.utf8EncodeChar_ne_nil d)
      rw [List.flatMap_cons, hd]
      exact List.nil_lt_cons ..
  | cons c cs ih =>
    cases ds with
    | nil => exact absurd h (List.not_lt_nil _)
    | cons d ds =>
      rw [List.flatMap_cons, List.flatMap_cons]
      obtain hfirst | ⟨rfl, hrest⟩ := List.cons_lt_cons_iff.1 h
      · exact utf8EncodeChar_append_lt hfirst _ _
      · exact List.append_left_lt (ih hrest)

/-- Texts are in the order of their bytes. -/
theorem utf8Bytes_lt_of_lt {s t : String} (h : s < t) : utf8Bytes s < utf8Bytes t := by
  rw [utf8Bytes_eq, utf8Bytes_eq]
  exact flatMap_utf8EncodeChar_lt h

end SchemaOptions.Text
