import SchemaOptions.Yaml.Cursor

/-!
# Block scalars

A block scalar stands on the lines below its mark, indented by some number of columns, which the
first line that is not empty sets unless the header does. A literal one keeps its line breaks. In a
folded one, a break between two lines that both start with a word counts as a space, or for nothing
if empty lines follow, which then count as breaks. The header also says what becomes of the breaks
at the end: all but one are dropped, or all, or none.
-/

namespace SchemaOptions.Yaml

/-- What becomes of the line breaks at the end of a block scalar. -/
inductive Chomping where
  /-- One stays. -/
  | clip
  /-- None stays. -/
  | strip
  /-- All stay. -/
  | keep
deriving DecidableEq

/-- The header of a block scalar: what becomes of the breaks at its end, and by how many columns its
lines are indented, if that is said. -/
structure BlockHeader where
  chomping : Chomping := .clip
  indent? : Option Nat := none

/-- The chomping that a mark stands for. -/
def Chomping.ofChar? : Char → Option Chomping
  | '+' => some .keep
  | '-' => some .strip
  | _ => none

/-- The header behind the mark of a block scalar, and what follows it. Its two parts come in either
order; an indentation of zero is refused. -/
def BlockHeader.read? : List Char → Option (BlockHeader × Nat)
  | [] => some ({}, 0)
  | c :: cs =>
    match Chomping.ofChar? c with
    | some chomping =>
      match cs.head? with
      | some d =>
        if d == '0' then none
        else if d.isDigit then some (⟨chomping, some (d.toNat - '0'.toNat)⟩, 2)
        else some ({ chomping }, 1)
      | none => some ({ chomping }, 1)
    | none =>
      if c == '0' then none
      else if c.isDigit then
        let indent? := some (c.toNat - '0'.toNat)
        match cs.head?.bind Chomping.ofChar? with
        | some chomping => some (⟨chomping, indent?⟩, 2)
        | none => some ({ indent? }, 1)
      else
        some ({}, 0)

/-- Empty lines: their breaks, how far the deepest line is indented, and the place where a line that
is not empty goes on. -/
structure EmptyLines where
  breaks : List Char
  deepest : Nat
  stop : Cursor

/-- Reads indentation and empty lines, behind some breaks. Where the indentation is not known every
space belongs to it; a tab within it is refused. -/
def readEmptyLines (indent? : Option Nat) (breaks : List Char) (deepest : Nat) (place : Place) :
    List Char → Option EmptyLines
  | [] => some ⟨breaks, max deepest place.column, ⟨place, []⟩⟩
  | c :: rest =>
    if c == ' ' && indent?.all (place.column < ·) then
      readEmptyLines indent? breaks deepest (place.next c) rest
    else if c == '\t' && indent?.all (place.column < ·) then
      none
    else if isBreak c then
      readEmptyLines indent? (breaks ++ [c]) (max deepest place.column) place.nextLine rest
    else
      some ⟨breaks, max deepest place.column, ⟨place, c :: rest⟩⟩

theorem readEmptyLines_length {indent? : Option Nat} {breaks : List Char}
    {deepest : Nat} {place : Place} {cs : List Char} {lines : EmptyLines}
    (h : readEmptyLines indent? breaks deepest place cs = some lines) :
    lines.stop.rest.length ≤ cs.length := by
  induction cs generalizing breaks deepest place with
  | nil =>
    simp only [readEmptyLines, Option.some.injEq] at h
    simp [← h]
  | cons c rest ih =>
    simp only [readEmptyLines] at h
    split at h
    · exact Nat.le_succ_of_le (ih h)
    · split at h
      · simp at h
      · split at h
        · exact Nat.le_succ_of_le (ih h)
        · simp only [Option.some.injEq] at h
          simp [← h]

/-- The part of a block scalar that has been read: its text, the break behind its last line, the
breaks of the empty lines below, and whether its last line started with a space. -/
structure BlockSoFar where
  text : List Char := []
  lastBreak : List Char := []
  emptyLines : List Char := []
  spaced : Bool := false

/-- What the breaks count as before a line that starts with a given character. -/
def BlockSoFar.joint (sofar : BlockSoFar) (folded : Bool) (c : Char) : List Char :=
  if folded && sofar.lastBreak == ['\n'] && !sofar.spaced && !isSpace c then
    if sofar.emptyLines.isEmpty then [' '] else sofar.emptyLines
  else
    sofar.lastBreak ++ sofar.emptyLines

/-- The text of a block scalar that ends here. -/
def BlockSoFar.finish (sofar : BlockSoFar) (chomping : Chomping) : List Char :=
  sofar.text ++
    (if chomping = .strip then [] else sofar.lastBreak) ++
    (if chomping = .keep then sofar.emptyLines else [])

/-- Reads the lines of a block scalar, as long as they are indented as they must be. -/
def readBlockLines (folded : Bool) (indent : Nat) (sofar : BlockSoFar) (cursor : Cursor) :
    Option (BlockSoFar × Cursor) :=
  match hrest : cursor.rest with
  | [] => some (sofar, cursor)
  | c :: cs =>
    if cursor.column ≠ indent then
      some (sofar, cursor)
    else
      let words := (c :: cs).takeWhile (!isBreak ·)
      let text := sofar.text ++ sofar.joint folded c ++ words
      match hafter : (c :: cs).dropWhile (!isBreak ·) with
      | [] => some ({ text }, ⟨cursor.past words, []⟩)
      | b :: after =>
        match hlines : readEmptyLines (some indent) [] 0 cursor.nextLine after with
        | none => none
        | some lines =>
          have : lines.stop.rest.length < cursor.rest.length := by
            have hstop := readEmptyLines_length hlines
            have hdrop := (List.dropWhile_sublist (!isBreak ·) (l := c :: cs)).length_le
            rw [hafter] at hdrop
            rw [hrest]
            simp only [List.length_cons] at hdrop ⊢
            omega
          readBlockLines folded indent ⟨text, [b], lines.breaks, isSpace c⟩ lines.stop
termination_by cursor.rest.length

/-- Reads a block scalar behind its mark. The lines must be indented to a given column at least; an
indentation that the header gives counts from the column before that. -/
def readBlock (folded : Bool) (minimum : Nat) (cursor : Cursor) : Option (List Char × Cursor) := do
  let (header, size) ← BlockHeader.read? cursor.rest
  let start ← (cursor.skip size).finishLine?
  let given? := header.indent?.map (minimum - 1 + ·)
  let lines ← readEmptyLines given? [] 0 start.toPlace start.rest
  let indent := given?.getD (max (max lines.deepest minimum) 1)
  let (sofar, stop) ← readBlockLines folded indent { emptyLines := lines.breaks } lines.stop
  return (sofar.finish header.chomping, stop)

end SchemaOptions.Yaml
