import SchemaOptions.Yaml.Character

/-!
# Places in a text

Reading goes through a text from left to right, and what a mark means depends on its column and on
whether its line has changed. A cursor is what is still to be read, with the place of its first
character. Columns are counted in characters; what a key may take up is counted in bytes
(`Place.offset`).
-/

namespace SchemaOptions.Yaml

/-- A place in a text. -/
structure Place where
  line : Nat := 0
  /-- How many characters of the line stand before it. -/
  column : Nat := 0
  /-- How many bytes these characters take up. -/
  offset : Nat := 0

namespace Place

/-- The place behind a character of the same line. -/
def next (place : Place) (c : Char) : Place :=
  { place with column := place.column + 1, offset := place.offset + c.utf8Size }

/-- The place behind characters of the same line. -/
def past (place : Place) (cs : List Char) : Place :=
  cs.foldl next place

/-- The start of the next line. -/
def nextLine (place : Place) : Place :=
  { line := place.line + 1 }

@[simp] theorem past_nil (place : Place) : place.past [] = place := rfl

theorem past_append (place : Place) (cs ds : List Char) :
    place.past (cs ++ ds) = (place.past cs).past ds :=
  List.foldl_append

theorem column_past (place : Place) (cs : List Char) :
    (place.past cs).column = place.column + cs.length := by
  induction cs generalizing place with
  | nil => rfl
  | cons c cs ih =>
    change ((place.next c).past cs).column = _
    simp only [ih, next, List.length_cons]
    omega

end Place

/-- What is still to be read, and where it stands. -/
structure Cursor extends Place where
  rest : List Char

namespace Cursor

/-- The cursor behind some characters of the same line. -/
def skip (cursor : Cursor) (count : Nat) : Cursor :=
  ⟨cursor.past (cursor.rest.take count), cursor.rest.drop count⟩

/-- The first characters with a property, none of them a line break, and the cursor behind them. -/
def span (cursor : Cursor) (p : Char → Bool) : List Char × Cursor :=
  let taken := cursor.rest.takeWhile p
  (taken, cursor.skip taken.length)

/-- The cursor behind spaces and tabs. -/
def skipSpaces (cursor : Cursor) : Cursor :=
  (cursor.span isSpace).2

/-- The cursor behind a comment, if one starts here. -/
def skipComment (cursor : Cursor) : Cursor :=
  if cursor.rest.head? = some '#' then (cursor.span (!isBreak ·)).2 else cursor

/-- The cursor behind a line break, if one stands here. -/
def skipBreak (cursor : Cursor) : Cursor :=
  match cursor.rest with
  | c :: rest => if isBreak c then ⟨cursor.nextLine, rest⟩ else cursor
  | [] => cursor

/-- The start of the next line, or the end of the text, if only spaces and a comment stand before
it. -/
def finishLine? (cursor : Cursor) : Option Cursor :=
  let cursor := cursor.skipSpaces.skipComment
  match cursor.rest with
  | [] => some cursor
  | c :: _ => if isBreak c then some cursor.skipBreak else none

end Cursor

/-- The text that bytes spell, with unified line breaks; nothing if they are not the encoding of a
text or the text holds a character that it must not. -/
def Cursor.ofBytes? (bytes : List UInt8) : Option Cursor := do
  let text ← String.fromUTF8? bytes.toByteArray
  if text.toList.all isAllowed then some ⟨{}, unifyBreaks text.toList⟩ else none

end SchemaOptions.Yaml
