import SchemaOptions.Yaml.Cursor
import SchemaOptions.Yaml.Gap

/-!
# Plain scalars

A plain scalar has no marks around it. It ends before a colon that ends a word, before a comment,
before a mark of the flow collection that it stands in, and where the next line is not indented
enough; what stands between its words on the way there is a gap.
-/

namespace SchemaOptions.Yaml

/-- A plain scalar that has been read: its text, where it ends, and whether a line break stands
before that place. -/
structure PlainScalar where
  text : List Char
  stop : Cursor
  broken : Bool

/-- Whether a plain scalar ends before these characters, which open a word in the given column. -/
def endsPlain (inFlow : Bool) (indent : Nat) (gap : Gap) (column : Nat) (cs : List Char) : Bool :=
  match cs with
  | [] => true
  | c :: rest =>
    (!gap.isEmpty &&
      ((!inFlow && column < indent) || c == '#' || (column == 0 && opensWithDocumentMark cs))) ||
    (c == ':' && endsWord rest) ||
    (inFlow && isFlowMark c)

/-- Reads on in a plain scalar, behind a text and a gap. A tab in the indentation is refused, and in
a flow collection a colon right before one of its marks. -/
def readPlain (inFlow : Bool) (indent : Nat) (text : List Char) (gap : Gap) (place : Place) :
    List Char → Option PlainScalar
  | [] => some ⟨text, ⟨place, []⟩, gap.isBroken⟩
  | c :: rest =>
    if isSpace c then
      if gap.isBroken && c == '\t' && place.column < indent then none
      else readPlain inFlow indent text (gap.addSpace c) (place.next c) rest
    else if isBreak c then
      readPlain inFlow indent text (gap.addBreak c) place.nextLine rest
    else if endsPlain inFlow indent gap place.column (c :: rest) then
      some ⟨text, ⟨place, c :: rest⟩, gap.isBroken⟩
    else if inFlow && c == ':' && rest.head?.any (fun d => isFlowMark d || d == '?') then
      none
    else
      readPlain inFlow indent (text ++ gap.text ++ [c]) .empty (place.next c) rest

end SchemaOptions.Yaml
