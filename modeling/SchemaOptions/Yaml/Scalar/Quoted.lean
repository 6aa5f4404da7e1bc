import SchemaOptions.Text.Digits
import SchemaOptions.Yaml.Cursor
import SchemaOptions.Yaml.Gap

/-!
# Quoted scalars

Between single quotes every character stands for itself, and a quote is written twice. Between
double quotes a backslash opens an escape, which stands for one character or takes away a line
break. In both, gaps count as in plain scalars, and no line may open with a document mark.
-/

namespace SchemaOptions.Yaml

/-- Reads on between single quotes, behind a text and a gap, up to the closing quote. -/
def readSingleQuoted (text : List Char) (gap : Gap) (place : Place) :
    List Char → Option (List Char × Cursor)
  | [] => none
  | '\x27' :: '\x27' :: rest =>
    readSingleQuoted (text ++ gap.text ++ ['\x27']) .empty (place.past ['\x27', '\x27']) rest
  | '\x27' :: rest => some (text ++ gap.text, ⟨place.next '\x27', rest⟩)
  | c :: rest =>
    if isSpace c then
      readSingleQuoted text (gap.addSpace c) (place.next c) rest
    else if isBreak c then
      readSingleQuoted text (gap.addBreak c) place.nextLine rest
    else if place.column == 0 && opensWithDocumentMark (c :: rest) then
      none
    else
      readSingleQuoted (text ++ gap.text ++ [c]) .empty (place.next c) rest

/-- What the character behind a backslash means. -/
inductive Escape where
  /-- The escape stands for a character. -/
  | character (c : Char)
  /-- As many hexadecimal digits follow, which spell the code point. -/
  | code (digits : Nat)

/-- The escapes. -/
def Escape.ofChar? : Char → Option Escape
  | '0' => some (.character '\x00')
  | 'a' => some (.character '\x07')
  | 'b' => some (.character '\x08')
  | 't' => some (.character '\t')
  | '\t' => some (.character '\t')
  | 'n' => some (.character '\n')
  | 'v' => some (.character '\x0b')
  | 'f' => some (.character '\x0c')
  | 'r' => some (.character '\r')
  | 'e' => some (.character '\x1b')
  | ' ' => some (.character ' ')
  | '\x22' => some (.character '\x22')
  | '/' => some (.character '/')
  | '\\' => some (.character '\\')
  | 'N' => some (.character '\u0085')
  | '_' => some (.character '\u00a0')
  | 'L' => some (.character '\u2028')
  | 'P' => some (.character '\u2029')
  | 'x' => some (.code 2)
  | 'u' => some (.code 4)
  | 'U' => some (.code 8)
  | _ => none

/-- The number that a given count of hexadecimal digits spells, and what follows them. -/
def readHex? : (digits : Nat) → (value : Nat) → List Char → Option (Nat × List Char)
  | 0, value, cs => some (value, cs)
  | _ + 1, _, [] => none
  | digits + 1, value, c :: cs =>
    (Text.digitOf? 16 c).bind fun digit => readHex? digits (16 * value + digit) cs

/-- The character with a code point. -/
def charOfCode? (n : Nat) : Option Char :=
  if n.isValidChar then some (Char.ofNat n) else none

theorem readHex?_length {digits value n : Nat} {cs rest : List Char}
    (h : readHex? digits value cs = some (n, rest)) : rest.length ≤ cs.length := by
  induction digits generalizing value cs with
  | zero =>
    simp only [readHex?, Option.some.injEq, Prod.mk.injEq] at h
    simp [h.2]
  | succ digits ih =>
    cases cs with
    | nil => simp [readHex?] at h
    | cons c cs =>
      obtain ⟨digit, _, hread⟩ := Option.bind_eq_some_iff.1 h
      exact Nat.le_succ_of_le (ih hread)

/-- Reads on between double quotes, behind a text and a gap, up to the closing quote. -/
def readDoubleQuoted (text : List Char) (gap : Gap) (place : Place) (cs : List Char) :
    Option (List Char × Cursor) :=
  match cs with
  | [] => none
  | '\x22' :: rest => some (text ++ gap.text, ⟨place.next '\x22', rest⟩)
  | '\\' :: [] => none
  | '\\' :: c :: rest =>
    if isBreak c then
      readDoubleQuoted (text ++ gap.text) (.breaks none []) place.nextLine rest
    else
      match Escape.ofChar? c with
      | none => none
      | some (.character d) =>
        readDoubleQuoted (text ++ gap.text ++ [d]) .empty (place.past ['\\', c]) rest
      | some (.code digits) =>
        match h : readHex? digits 0 rest with
        | none => none
        | some (n, after) =>
          match charOfCode? n with
          | none => none
          | some d =>
            have : after.length ≤ rest.length := readHex?_length h
            readDoubleQuoted (text ++ gap.text ++ [d]) .empty
              (place.past ('\\' :: c :: rest.take digits)) after
  | c :: rest =>
    if isSpace c then
      readDoubleQuoted text (gap.addSpace c) (place.next c) rest
    else if isBreak c then
      readDoubleQuoted text (gap.addBreak c) place.nextLine rest
    else if place.column == 0 && opensWithDocumentMark (c :: rest) then
      none
    else
      readDoubleQuoted (text ++ gap.text ++ [c]) .empty (place.next c) rest
termination_by cs.length

end SchemaOptions.Yaml
