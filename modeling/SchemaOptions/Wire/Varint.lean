/-!
# Variable-length numbers

A number below 2^64 is written seven bits to a byte, lowest bits first, with the high bit set on
every byte but the last (`write`). A reader takes at most ten bytes, and of the tenth only its
lowest bit, which is what is left of 64 bits after nine groups of seven; a number written with more
bytes than it needs is read all the same (`read?`).
-/

namespace SchemaOptions.Wire.Varint

/-- The bytes of a number. -/
def write (n : Nat) : List UInt8 :=
  if n < 128 then [n.toUInt8] else (n % 128 + 128).toUInt8 :: write (n / 128)
termination_by n
decreasing_by omega

/-- The number at the head of a list of bytes and what follows it, reading at most `limit` bytes;
the last byte allowed may hold one bit only. -/
def readWithin : (limit : Nat) → List UInt8 → Option (Nat × List UInt8)
  | 0, _ => none
  | _ + 1, [] => none
  | limit + 1, b :: rest =>
    if b.toNat < 128 then
      if limit = 0 ∧ 1 < b.toNat then none else some (b.toNat, rest)
    else
      (readWithin limit rest).map fun (high, rest) => (b.toNat - 128 + 128 * high, rest)

/-- The most bytes a number takes. -/
def maxLength : Nat := 10

/-- The number at the head of a list of bytes, and what follows it. -/
def read? (bytes : List UInt8) : Option (Nat × List UInt8) :=
  readWithin maxLength bytes

theorem readWithin_shortens {limit : Nat} {bytes rest : List UInt8} {n : Nat}
    (h : readWithin limit bytes = some (n, rest)) : rest.length < bytes.length := by
  induction limit generalizing bytes rest n with
  | zero => simp [readWithin] at h
  | succ limit ih =>
    cases bytes with
    | nil => simp [readWithin] at h
    | cons b tail =>
      simp only [readWithin] at h
      split at h
      · split at h
        · simp at h
        · simp only [Option.some.injEq, Prod.mk.injEq] at h
          simp [← h.2]
      · obtain ⟨⟨high, after⟩, hread, heq⟩ := Option.map_eq_some_iff.1 h
        simp only [Prod.mk.injEq] at heq
        have := ih hread
        simp only [List.length_cons, ← heq.2]
        omega

/-- Reading takes at least one byte. -/
theorem read?_shortens {bytes rest : List UInt8} {n : Nat}
    (h : read? bytes = some (n, rest)) : rest.length < bytes.length :=
  readWithin_shortens h

/-- All the numbers of a list of bytes; nothing if the bytes end within one. -/
def readAll (bytes : List UInt8) : Option (List Nat) :=
  match bytes with
  | [] => some []
  | b :: tail =>
    match _ : read? (b :: tail) with
    | none => none
    | some (n, rest) => (readAll rest).map (n :: ·)
termination_by bytes.length
decreasing_by exact read?_shortens ‹_›

end SchemaOptions.Wire.Varint
