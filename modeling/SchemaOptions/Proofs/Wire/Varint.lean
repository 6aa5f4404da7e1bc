import Mathlib.Algebra.Group.Nat.Defs
import SchemaOptions.Wire.Reader
import SchemaOptions.Wire.Writer

/-!
# Laws of variable-length numbers

A number below 2^64 that was written is read back, and what follows it is left alone. Within a limit
the last byte holds one bit and every byte before it seven, so a limit of `limit + 1` bytes is
enough for numbers below `2 ^ (7 * limit + 1)`; ten bytes are enough for 64 bits.
-/

namespace SchemaOptions.Wire.Varint

theorem toNat_toUInt8 {n : Nat} (h : n < 256) : n.toUInt8.toNat = n :=
  UInt8.toNat_ofNat_of_lt h

/-- A number that was written is read back within a limit. -/
theorem readWithin_write {limit n : Nat} (h : n < 2 ^ (7 * limit + 1)) (rest : List UInt8) :
    readWithin (limit + 1) (write n ++ rest) = some (n, rest) := by
  induction limit generalizing n with
  | zero =>
    have hbyte : n.toUInt8.toNat = n := toNat_toUInt8 (by omega)
    rw [write, if_pos (by omega), List.singleton_append, readWithin, hbyte, if_pos (by omega),
      if_neg (by omega)]
  | succ limit ih =>
    rw [write]
    split
    · rename_i hsmall
      have hbyte : n.toUInt8.toNat = n := toNat_toUInt8 (by omega)
      rw [List.singleton_append, readWithin, hbyte, if_pos hsmall, if_neg (by omega)]
    · have hbyte : (n % 128 + 128).toUInt8.toNat = n % 128 + 128 := toNat_toUInt8 (by omega)
      have hhigh : n / 128 < 2 ^ (7 * limit + 1) := by
        rw [Nat.div_lt_iff_lt_mul (by omega)]
        calc n < 2 ^ (7 * (limit + 1) + 1) := h
          _ = 2 ^ (7 * limit + 1 + 7) := by rw [Nat.mul_add, Nat.add_right_comm]
          _ = 2 ^ (7 * limit + 1) * 128 := Nat.pow_add ..
      have hsum : n % 128 + 128 - 128 + 128 * (n / 128) = n := by omega
      rw [List.cons_append, readWithin, hbyte, if_neg (by omega), ih hhigh, Option.map_some]
      simp only [hsum]

/-- A number below 2^64 that was written is read back. -/
theorem read?_write {n : Nat} (h : n < 2 ^ 64) (rest : List UInt8) :
    read? (write n ++ rest) = some (n, rest) :=
  readWithin_write h rest

/-- The first number is read, and then the others. -/
theorem readAll_of_read? {n : Nat} {bytes rest : List UInt8} (h : read? bytes = some (n, rest)) :
    readAll bytes = (readAll rest).map (n :: ·) := by
  cases bytes with
  | nil => exact absurd (read?_shortens h) (Nat.not_lt_zero _)
  | cons b tail =>
    rw [readAll]
    split
    · rename_i hnone
      rw [h] at hnone
      cases hnone
    · rename_i n' rest' hsome
      rw [h] at hsome
      cases hsome
      rfl

/-- Numbers that were written one after the other are read back. -/
theorem readAll_flatMap {α : Type} (number : α → Nat) (h : ∀ a, number a < 2 ^ 64)
    (values : List α) :
    readAll (values.flatMap fun a => write (number a)) = some (values.map number) := by
  induction values with
  | nil =>
    rw [List.flatMap_nil, readAll]
    rfl
  | cons a rest ih =>
    rw [List.flatMap_cons, readAll_of_read? (read?_write (h a) _), ih]
    rfl

end SchemaOptions.Wire.Varint

namespace SchemaOptions.Wire

/-! ## Signed numbers -/

/-- The number of 64 bits as which a signed one of 32 bits is written. -/
def widened (n : Int32) : Nat :=
  n.toInt64.toUInt64.toNat

theorem widened_lt (n : Int32) : widened n < 2 ^ 64 :=
  UInt64.toNat_lt _

/-- The lowest 32 bits of a widened number are the number. -/
theorem int32Of_widened (n : Int32) : int32Of (widened n) = n := by
  apply Int32.toBitVec_inj.1
  show BitVec.ofNat 32 (n.toBitVec.signExtend 64).toNat = n.toBitVec
  rw [BitVec.ofNat_toNat]
  ext i hi
  rw [BitVec.getElem_setWidth, BitVec.getLsbD_signExtend]
  simp only [show i < 64 by omega, hi, decide_true, Bool.true_and, if_true]
  exact BitVec.getLsbD_eq_getElem hi

/-- Signed numbers that were written as one piece are read back. -/
theorem readAll_int32Bytes (ns : List Int32) :
    Varint.readAll (ns.flatMap int32Bytes) = some (ns.map widened) :=
  Varint.readAll_flatMap widened widened_lt ns

end SchemaOptions.Wire
