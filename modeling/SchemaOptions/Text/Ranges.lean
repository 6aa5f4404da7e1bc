/-!
# Sets of characters as ranges

A property of the Unicode standard is a set of code points, and the standard publishes it as
closed ranges. `Ranges` is such a list and `Ranges.has` is membership; the order of the ranges does
not matter to it (`has_iff`).
-/

namespace SchemaOptions.Text

/-- A set of code points: each pair is the first and the last of a run of members. -/
abbrev Ranges := List (Nat × Nat)

/-- Whether some range of the set holds the character. -/
def Ranges.has (ranges : Ranges) (c : Char) : Bool :=
  ranges.any fun range => range.1 ≤ c.toNat && c.toNat ≤ range.2

theorem Ranges.has_iff {ranges : Ranges} {c : Char} :
    ranges.has c = true ↔ ∃ range ∈ ranges, range.1 ≤ c.toNat ∧ c.toNat ≤ range.2 := by
  simp [Ranges.has]

end SchemaOptions.Text
