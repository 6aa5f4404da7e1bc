import SchemaOptions.Yaml.Character
import SchemaOptions.Yaml.Number

/-!
# How a text is written

A text is written in the plainest style that reads back as the same text: as a plain word if nothing
in it could be taken for a mark or for another kind of value, else between single quotes; with line
feeds in it, as a literal block. Where a style cannot hold the text, it stands between double
quotes, which can hold any.
-/

namespace SchemaOptions.Yaml

/-- Whether a character can be shown as it is. Line feeds count, other controls and tabs do not. -/
def isShown (c : Char) : Bool :=
  let n := c.toNat
  n == 0x0A || (0x20 ≤ n && n ≤ 0x7E) || (0xA0 ≤ n && n ≤ 0xD7FF) ||
    (0xE000 ≤ n && n ≤ 0xFFFD && n != 0xFEFF) || 0x10000 ≤ n

/-- Whether a character ends a line in any system. -/
def isLineEnd (c : Char) : Bool :=
  isBreak c || c == '\r' || c == '\u0085'

/-- Whether a character separates words in any system. -/
def isSeparator (c : Char) : Bool :=
  isSpace c || isLineEnd c || c == '\x00'

/-- Whether a word ends before these characters in any system. -/
def endsAnyWord : List Char → Bool
  | [] => true
  | c :: _ => isSeparator c

/-- Whether two neighbours have a given relation somewhere in a list. -/
def anyAdjacent (related : Char → Char → Bool) : List Char → Bool
  | a :: b :: rest => related a b || anyAdjacent related (b :: rest)
  | _ => false

/-- Whether the first character would be taken for a mark. -/
def opensWithMark : List Char → Bool
  | [] => false
  | c :: rest =>
    isFlowMark c ||
    ['#', '&', '*', '!', '|', '>', '\x27', '\x22', '%', '@', '\x60'].contains c ||
    ((c == '?' || c == ':' || c == '-') && endsAnyWord rest)

/-- Whether a character behind the first would be taken for a mark: a colon at the end of a word, or
a number sign at the start of one. -/
def holdsMark : List Char → Bool
  | a :: b :: rest =>
    (b == ':' && endsAnyWord rest) || (isSeparator a && b == '#') || holdsMark (b :: rest)
  | _ => false

/-- Whether a text opens like the mark between two documents. -/
def opensLikeDocumentMark (cs : List Char) : Bool :=
  ['-', '-', '-'].isPrefixOf cs || ['.', '.', '.'].isPrefixOf cs

/-- Whether a text has a space at its end. -/
def hasTrailingSpace (cs : List Char) : Bool :=
  cs.getLast? == some ' '

/-- Whether a text has a space before a line break. -/
def hasSpaceBreak (cs : List Char) : Bool :=
  anyAdjacent (fun a b => a == ' ' && isLineEnd b) cs

/-- Whether a text has a space behind a line break. -/
def hasBreakSpace (cs : List Char) : Bool :=
  anyAdjacent (fun a b => isLineEnd a && b == ' ') cs

/-- Whether a block can hold a text. -/
def fitsBlock (cs : List Char) : Bool :=
  cs.all isShown && !hasSpaceBreak cs && !hasTrailingSpace cs

/-- Whether single quotes can hold a text. -/
def fitsSingleQuotes (cs : List Char) : Bool :=
  cs.all isShown && !hasSpaceBreak cs && !hasBreakSpace cs

/-- Whether a text can be written as a plain word. -/
def fitsPlain (cs : List Char) : Bool :=
  cs.all isShown && !cs.any isLineEnd && cs.head? != some ' ' && !hasTrailingSpace cs &&
    !opensLikeDocumentMark cs && !opensWithMark cs && !holdsMark cs

/-- The style in which a text is written. -/
def ScalarStyle.ofText (cs : List Char) : ScalarStyle :=
  if cs.contains '\n' then
    if fitsBlock cs then .literal else .doubleQuoted
  else if !isAmbiguous cs && fitsPlain cs then
    .plain
  else if fitsSingleQuotes cs then
    .singleQuoted
  else
    .doubleQuoted

end SchemaOptions.Yaml
