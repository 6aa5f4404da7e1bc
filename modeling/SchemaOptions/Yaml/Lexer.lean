import SchemaOptions.Yaml.Property
import SchemaOptions.Yaml.Scalar.Block
import SchemaOptions.Yaml.Scalar.Plain

/-!
# From text to tokens

The lexer goes through a text and writes down its tokens. Most marks can be told by their first
characters. Two things cannot: a deeper column opens a block and a lesser one closes it, and a key
on one line is known as a key only by the colon behind it. So the lexer keeps the columns of the
open blocks, and for every flow collection around the place the last spot where a key could have
started; when a colon comes, the tokens that were missing are put in at that spot.

A spot is given up when its line is over or when the key would be too long. Where a key must start,
because a block mapping continues there, giving up is an error.
-/

namespace SchemaOptions.Yaml

/-- A spot where a key may have started: its place, and how many tokens stand before it. -/
structure KeySpot extends Place where
  position : Nat
  /-- Whether nothing but a key may start here. -/
  required : Bool

/-- The state of the lexer. -/
structure Lexer where
  cursor : Cursor
  /-- The tokens so far, the latest first. -/
  tokens : List Token := []
  /-- The columns of the open blocks, innermost first. -/
  blocks : List Nat := []
  /-- The spot for a key in each flow collection around the place, innermost first, and last the one
  outside of all of them. -/
  spots : List (Option KeySpot) := [none]
  /-- Whether a key may start here. -/
  keyAllowed : Bool := true

/-- How many bytes a key on one line may take up. -/
def maxKeyLength : Nat := 1024

namespace Lexer

/-- Whether the place is in a flow collection. -/
def inFlow (lexer : Lexer) : Bool :=
  2 ≤ lexer.spots.length

/-- The least column of anything within the innermost open block. -/
def minimum (lexer : Lexer) : Nat :=
  match lexer.blocks with
  | [] => 0
  | column :: _ => column + 1

/-- Writes down a token, going on behind it. -/
def emit (lexer : Lexer) (token : Token) (cursor : Cursor) : Lexer :=
  { lexer with tokens := token :: lexer.tokens, cursor }

/-- Puts a token in where a given number of tokens stand before it. -/
def emitAt (lexer : Lexer) (token : Token) (position : Nat) : Lexer :=
  { lexer with tokens := lexer.tokens.insertIdx (lexer.tokens.length - position) token }

/-! ## Blocks -/

/-- Closes the blocks that start to the right of a column, or all of them. -/
def closeBlocks (lexer : Lexer) (column? : Option Nat) : Lexer :=
  if lexer.inFlow then
    lexer
  else
    let isOver (start : Nat) : Bool := column?.all (· < start)
    let count := (lexer.blocks.takeWhile isOver).length
    { lexer with
      tokens := List.replicate count .blockEnd ++ lexer.tokens
      blocks := lexer.blocks.drop count }

/-- Opens a block mapping at a column, if the innermost open block starts to the left of it. -/
def openBlock (lexer : Lexer) (column position : Nat) : Lexer :=
  if !lexer.inFlow && lexer.blocks.head?.all (· < column) then
    { lexer.emitAt .blockMappingStart position with blocks := column :: lexer.blocks }
  else
    lexer

/-! ## Spots for keys -/

/-- The innermost spot for a key. -/
def spot? (lexer : Lexer) : Option KeySpot :=
  lexer.spots.head?.join

/-- Replaces the innermost spot. -/
def setSpot (lexer : Lexer) (spot? : Option KeySpot) : Lexer :=
  { lexer with spots := spot? :: lexer.spots.tail }

/-- Gives up the innermost spot; an error if a key must start there. -/
def dropSpot? (lexer : Lexer) : Option Lexer :=
  if lexer.spot?.any (·.required) then none else some (lexer.setSpot none)

/-- Notes that a key may start here, if it may. -/
def markSpot? (lexer : Lexer) : Option Lexer :=
  if lexer.keyAllowed then
    let cursor := lexer.cursor
    let required := !lexer.inFlow && lexer.blocks.head? == some cursor.column
    lexer.dropSpot?.map fun dropped =>
      dropped.setSpot (some ⟨cursor.toPlace, lexer.tokens.length, required⟩)
  else
    some lexer

/-- Whether a key that started at a spot cannot end at a place any more. -/
def KeySpot.isStale (spot : KeySpot) (cursor : Cursor) : Bool :=
  spot.line < cursor.line || spot.offset + maxKeyLength < cursor.offset

/-- Gives up all spots that are stale; an error if a key must start at one of them. -/
def dropStale? (lexer : Lexer) : Option Lexer :=
  if lexer.spots.any (·.any fun spot => spot.required && KeySpot.isStale spot lexer.cursor) then
    none
  else
    some { lexer with
      spots := lexer.spots.map fun spot? => spot?.filter (!KeySpot.isStale · lexer.cursor) }

/-! ## Between tokens -/

/-- Whether a character counts for nothing between tokens: a space, a tab where no key may start,
and a byte order mark at the start of a line. -/
def isBlankAt (tabs : Bool) (place : Place) (c : Char) : Bool :=
  c == ' ' || (tabs && c == '\t') || (place.column == 0 && c == byteOrderMark)

/-- Passes over blanks, comments and line breaks. Outside of flow collections a key may start on
every new line. -/
def skipBlank (inFlow inComment keyAllowed : Bool) (place : Place) : List Char → Bool × Cursor
  | [] => (keyAllowed, ⟨place, []⟩)
  | c :: rest =>
    if isBreak c then
      skipBlank inFlow false (keyAllowed || !inFlow) place.nextLine rest
    else if inComment || isBlankAt (inFlow || !keyAllowed) place c then
      skipBlank inFlow inComment keyAllowed (place.next c) rest
    else if c == '#' then
      skipBlank inFlow true keyAllowed (place.next c) rest
    else
      (keyAllowed, ⟨place, c :: rest⟩)

/-- The lexer at the start of the next token. -/
def toToken (lexer : Lexer) : Lexer :=
  let cursor := lexer.cursor
  let (keyAllowed, cursor) :=
    skipBlank lexer.inFlow false lexer.keyAllowed cursor.toPlace cursor.rest
  { lexer with keyAllowed, cursor }

/-! ## Single tokens -/

/-- A mark that closes all blocks and stands alone: one between documents, or a directive. -/
def readOuter (lexer : Lexer) (token : Token) (stop : Cursor) : Option Lexer := do
  let lexer ← (lexer.closeBlocks none).dropSpot?
  return { lexer.emit token stop with keyAllowed := false }

/-- The start of a flow mapping. -/
def readFlowStart (lexer : Lexer) : Option Lexer := do
  let lexer ← lexer.markSpot?
  let lexer := lexer.emit .flowMappingStart (lexer.cursor.skip 1)
  return { lexer with spots := none :: lexer.spots, keyAllowed := true }

/-- The end of a flow mapping. -/
def readFlowEnd (lexer : Lexer) : Option Lexer := do
  let lexer ← lexer.dropSpot?
  let lexer := lexer.emit .flowMappingEnd (lexer.cursor.skip 1)
  let spots := if lexer.inFlow then lexer.spots.tail else lexer.spots
  return { lexer with spots, keyAllowed := false }

/-- The mark between the entries of a flow mapping. -/
def readFlowEntry (lexer : Lexer) : Option Lexer := do
  let lexer ← lexer.dropSpot?
  return { lexer.emit .flowEntry (lexer.cursor.skip 1) with keyAllowed := true }

/-- The mark of a key. -/
def readKey (lexer : Lexer) : Option Lexer :=
  if !lexer.inFlow && !lexer.keyAllowed then
    none
  else do
    let lexer := lexer.openBlock lexer.cursor.column lexer.tokens.length
    let lexer ← lexer.dropSpot?
    return { lexer.emit .key (lexer.cursor.skip 1) with keyAllowed := !lexer.inFlow }

/-- The mark of a value. If a key may have started before it, it did. -/
def readValue (lexer : Lexer) : Option Lexer :=
  match lexer.spot? with
  | some spot =>
    let lexer := lexer.emitAt .key spot.position
    let lexer := (lexer.openBlock spot.column spot.position).setSpot none
    some { lexer.emit .value (lexer.cursor.skip 1) with keyAllowed := false }
  | none =>
    if !lexer.inFlow && !lexer.keyAllowed then
      none
    else
      let lexer := lexer.openBlock lexer.cursor.column lexer.tokens.length
      some { lexer.emit .value (lexer.cursor.skip 1) with keyAllowed := !lexer.inFlow }

/-- A token that may open a key: an alias, an anchor, a tag or a scalar on one line. -/
def readInner (lexer : Lexer) (result : Option (Token × Cursor)) : Option Lexer := do
  let lexer ← lexer.markSpot?
  let (token, stop) ← result
  return { lexer.emit token stop with keyAllowed := false }

/-- A plain scalar. If a line break stands behind it, a key may start there. -/
def readPlainScalar (lexer : Lexer) : Option Lexer := do
  let marked ← lexer.markSpot?
  let cursor := lexer.cursor
  let scalar ← readPlain lexer.inFlow lexer.minimum [] .empty cursor.toPlace cursor.rest
  return { marked.emit (.scalar .plain scalar.text) scalar.stop with keyAllowed := scalar.broken }

/-- A block scalar. -/
def readBlockScalar (lexer : Lexer) (style : ScalarStyle) : Option Lexer := do
  let lexer ← lexer.dropSpot?
  let (text, stop) ← readBlock (style == .folded) lexer.minimum (lexer.cursor.skip 1)
  return { lexer.emit (.scalar style text) stop with keyAllowed := true }

/-- Whether a plain scalar may start with these characters. -/
def opensPlain (inFlow : Bool) : List Char → Bool
  | [] => false
  | c :: rest =>
    if c == '-' then !(rest.head?.any isSpace)
    else if c == '?' || c == ':' then !inFlow && !endsWord rest
    else
      !isSpace c && !isBreak c && !isFlowMark c &&
        !(['#', '&', '*', '!', '|', '>', '\x27', '\x22', '%', '@', '\x60'].contains c)

/-- Reads one token, which starts here. -/
def readToken (lexer : Lexer) : Option Lexer :=
  let cursor := lexer.cursor
  match cursor.rest with
  | [] => none
  | c :: rest =>
    if cursor.column == 0 && c == '%' then
      match readDirective? (cursor.skip 1) with
      | some (token, stop) => lexer.readOuter token stop
      | none => none
    else if cursor.column == 0 && opensWithDocumentMark (c :: rest) then
      lexer.readOuter (if c == '-' then .documentStart else .documentEnd) (cursor.skip 3)
    else if c == '[' || c == ']' || (c == '-' && endsWord rest) then
      none
    else if c == '\x7b' then
      lexer.readFlowStart
    else if c == '\x7d' then
      lexer.readFlowEnd
    else if c == ',' then
      lexer.readFlowEntry
    else if c == '?' && (lexer.inFlow || endsWord rest) then
      lexer.readKey
    else if c == ':' && (lexer.inFlow || endsWord rest) then
      lexer.readValue
    else if c == '*' then
      lexer.readInner <| (readName? (cursor.skip 1)).map fun (name, stop) => (.alias name, stop)
    else if c == '&' then
      lexer.readInner <| (readName? (cursor.skip 1)).map fun (name, stop) => (.anchor name, stop)
    else if c == '!' then
      lexer.readInner <| (readTag? lexer.inFlow cursor).map fun (name, stop) => (.tag name, stop)
    else if c == '|' && !lexer.inFlow then
      lexer.readBlockScalar .literal
    else if c == '>' && !lexer.inFlow then
      lexer.readBlockScalar .folded
    else if c == '\x27' then
      lexer.readInner <|
        (readSingleQuoted [] .empty (cursor.next c) rest).map fun (text, stop) =>
          (.scalar .singleQuoted text, stop)
    else if c == '\x22' then
      lexer.readInner <|
        (readDoubleQuoted [] .empty (cursor.next c) rest).map fun (text, stop) =>
          (.scalar .doubleQuoted text, stop)
    else if opensPlain lexer.inFlow (c :: rest) then
      lexer.readPlainScalar
    else
      none

/-- Passes over what stands before the next token and closes the blocks that are over. -/
def advance? (lexer : Lexer) : Option Lexer :=
  lexer.toToken.dropStale?.map fun lexer => lexer.closeBlocks (some lexer.cursor.column)

/-- The tokens of a text that ends here. -/
def finish? (lexer : Lexer) : Option (List Token) :=
  (lexer.closeBlocks none).dropSpot?.map (·.tokens.reverse)

/-- Reads all tokens. Every token takes at least one character; one that took none would end the
reading. -/
def readAll? (lexer : Lexer) : Option (List Token) :=
  match lexer.advance? with
  | none => none
  | some lexer' =>
    if lexer'.cursor.rest.isEmpty then
      lexer'.finish?
    else
      match lexer'.readToken with
      | none => none
      | some next =>
        if next.cursor.rest.length < lexer.cursor.rest.length then next.readAll? else none
termination_by lexer.cursor.rest.length

end Lexer

/-- The tokens of a text. -/
def Token.ofText? (cursor : Cursor) : Option (List Token) :=
  Lexer.readAll? { cursor }

end SchemaOptions.Yaml
