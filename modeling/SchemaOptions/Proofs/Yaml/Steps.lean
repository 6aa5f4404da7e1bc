import Mathlib.Logic.Relation
import SchemaOptions.Proofs.Yaml.Scalar.Plain

/-!
# Steps of the lexer

Between two tokens the lexer stands at a place, outside of flow collections and with no key begun
(`Lexer.between`). A step reads one token and goes on to the next one; the steps from the start of a
text to its end make up the reading of all tokens (`Lexer.readAll?_of_steps`).
-/

namespace SchemaOptions.Yaml.Lexer

/-! ## Steps -/

/-- Whether a lexer at the start of a token gets to the start of the next by reading it. -/
def Step (lexer lexer' : Lexer) : Prop :=
  ∃ next, lexer.readToken = some next ∧
    next.cursor.rest.length < lexer.cursor.rest.length ∧ next.advance? = some lexer'

/-- Whether a lexer at the start of a token gets to the start of another by reading tokens. -/
abbrev Steps : Lexer → Lexer → Prop :=
  Relation.ReflTransGen Step

/-- What is passed over before a token makes the text no longer. -/
theorem skipBlank_length {inFlow inComment keyAllowed : Bool} {place : Place} {cs : List Char} :
    (skipBlank inFlow inComment keyAllowed place cs).2.rest.length ≤ cs.length := by
  induction cs generalizing inComment keyAllowed place with
  | nil => exact Nat.le_refl _
  | cons c rest ih =>
    rw [skipBlank]
    split
    · exact Nat.le_succ_of_le ih
    · split
      · exact Nat.le_succ_of_le ih
      · split
        · exact Nat.le_succ_of_le ih
        · exact Nat.le_refl _

@[simp] theorem closeBlocks_cursor (lexer : Lexer) (column? : Option Nat) :
    (lexer.closeBlocks column?).cursor = lexer.cursor := by
  unfold closeBlocks
  split <;> rfl

theorem advance?_length {lexer lexer' : Lexer} (h : lexer.advance? = some lexer') :
    lexer'.cursor.rest.length ≤ lexer.cursor.rest.length := by
  unfold advance? dropStale? at h
  split at h
  · cases h
  · cases h
    rw [closeBlocks_cursor]
    exact skipBlank_length

/-- The tokens of a text are those of its steps up to the end. -/
theorem readAll?_of_steps {lexer first last : Lexer} {tokens : List Token}
    (hadvance : lexer.advance? = some first) (hsteps : Steps first last)
    (hrest : last.cursor.rest = []) (hfinish : last.finish? = some tokens) :
    lexer.readAll? = some tokens := by
  induction hsteps using Relation.ReflTransGen.head_induction_on generalizing lexer with
  | refl =>
    rw [readAll?, hadvance]
    simp only [hrest, List.isEmpty_nil, if_true]
    exact hfinish
  | head hstep _ ih =>
    obtain ⟨next, hread, hlength, hnext⟩ := hstep
    have hlength' := Nat.lt_of_lt_of_le hlength (advance?_length hadvance)
    have hsome : (Cursor.rest (Lexer.cursor _)).isEmpty = false :=
      List.isEmpty_eq_false_iff.2 (List.ne_nil_of_length_pos (Nat.zero_lt_of_lt hlength))
    rw [readAll?, hadvance]
    simp only [hsome, hread, if_pos hlength']
    exact ih hnext

/-! ## Between tokens -/

/-- The lexer between two tokens outside of flow collections, with no key begun. -/
def between (cursor : Cursor) (tokens : List Token) (blocks : List Nat) (keyAllowed : Bool) :
    Lexer :=
  { cursor, tokens, blocks, keyAllowed }

/-- The lexer at the first word of a line, the blocks to the right of it closed. -/
def atLine (line column : Nat) (body : List Char) (tokens : List Token) (blocks : List Nat) :
    Lexer :=
  (between ⟨⟨line, column, column⟩, body⟩ tokens blocks true).closeBlocks (some column)

/-- A block that starts to the right of a line ends before it. -/
theorem atLine_cons_of_lt {line column start : Nat} {body : List Char} {tokens : List Token}
    {blocks : List Nat} (h : column < start) :
    atLine line column body tokens (start :: blocks) =
      atLine line column body (.blockEnd :: tokens) blocks := by
  have htake : (start :: blocks).takeWhile (fun start => decide (column < start)) =
      start :: blocks.takeWhile (fun start => decide (column < start)) :=
    List.takeWhile_cons_of_pos (decide_eq_true h)
  unfold atLine closeBlocks between
  simp only [Option.all_some, htake, List.length_cons, List.replicate_succ',
    List.append_assoc, List.singleton_append, List.drop_succ_cons]
  rfl

/-- No block ends where the innermost one does not start to the right. -/
theorem closeBlocks_eq_self {lexer : Lexer} {column : Nat}
    (h : lexer.blocks.head?.all (· ≤ column) = true) :
    lexer.closeBlocks (some column) = lexer := by
  have htake : lexer.blocks.takeWhile (fun start => decide (column < start)) = [] := by
    cases hblocks : lexer.blocks with
    | nil => rfl
    | cons start outer =>
      rw [hblocks, List.head?_cons, Option.all_some, decide_eq_true_eq] at h
      exact List.takeWhile_cons_of_neg (by simpa using h)
  unfold closeBlocks
  simp only [Option.all_some, htake, List.length_nil, List.replicate_zero, List.nil_append,
    List.drop_zero, ite_self]

theorem atLine_eq_between {line column start : Nat} {body : List Char} {tokens : List Token}
    {blocks : List Nat} (h : start ≤ column) :
    atLine line column body tokens (start :: blocks) =
      between ⟨⟨line, column, column⟩, body⟩ tokens (start :: blocks) true :=
  closeBlocks_eq_self (decide_eq_true h)

/-- Spaces count for nothing between tokens. -/
theorem skipBlank_spaces {keyAllowed : Bool} {rest : List Char} (line column offset count : Nat) :
    skipBlank false false keyAllowed ⟨line, column, offset⟩ (spaces count ++ rest) =
      skipBlank false false keyAllowed ⟨line, column + count, offset + count⟩ rest := by
  induction count generalizing column offset with
  | zero => rfl
  | succ count ih =>
    refine (ih (column + 1) (offset + 1)).trans ?_
    rw [Nat.add_right_comm column, Nat.add_right_comm offset]
    rfl

/-- Nothing is passed over before a word. -/
theorem skipBlank_word {keyAllowed : Bool} {place : Place} {body : List Char}
    (h : body.head?.all opensLine = true) :
    skipBlank false false keyAllowed place body = (keyAllowed, ⟨place, body⟩) := by
  cases body with
  | nil => rfl
  | cons c rest =>
    simp only [List.head?_cons, Option.all_some, opensLine, isSpace, Bool.and_eq_true,
      Bool.not_eq_true', Bool.or_eq_false_iff, bne_iff_ne, ne_eq] at h
    obtain ⟨⟨⟨⟨hspace, htab⟩, hbreak⟩, hsign⟩, hmark⟩ := h
    have hblank : isBlankAt (false || !keyAllowed) place c = false := by
      rw [isBlankAt, hspace, htab, beq_eq_false_iff_ne.2 hmark, Bool.and_false, Bool.and_false]
      rfl
    rw [skipBlank, hbreak, hblank, beq_eq_false_iff_ne.2 hsign]
    rfl

/-- At a line break the lexer goes on to the first word of the next line, where a key may start. -/
theorem skipBlank_line {keyAllowed : Bool} {place : Place} {column : Nat} {body : List Char}
    (h : body.head?.all opensLine = true) :
    skipBlank false false keyAllowed place ('\n' :: (spaces column ++ body)) =
      (true, ⟨⟨place.line + 1, column, column⟩, body⟩) := by
  have hbreak : skipBlank false false keyAllowed place ('\n' :: (spaces column ++ body)) =
      skipBlank false false (keyAllowed || true) place.nextLine (spaces column ++ body) := rfl
  rw [hbreak, Bool.or_true, Place.nextLine, skipBlank_spaces, skipBlank_word h, Nat.zero_add]

/-- Outside of flow collections the lexer goes to where the blanks end. -/
theorem toToken_eq {cursor stop : Cursor} {keyAllowed keyAllowed' : Bool} (tokens : List Token)
    (blocks : List Nat) (spot? : Option KeySpot)
    (hskip : skipBlank false false keyAllowed cursor.toPlace cursor.rest = (keyAllowed', stop)) :
    toToken ⟨cursor, tokens, blocks, [spot?], keyAllowed⟩ =
      ⟨stop, tokens, blocks, [spot?], keyAllowed'⟩ := by
  have hflow : inFlow ⟨cursor, tokens, blocks, [spot?], keyAllowed⟩ = false := rfl
  simp only [toToken, hflow, hskip]

/-- The lexer goes on to the next token, giving up a stale spot where nothing must start. -/
theorem advance?_of_isStale {cursor stop : Cursor} {tokens : List Token} {blocks : List Nat}
    {spot? : Option KeySpot} {keyAllowed keyAllowed' : Bool}
    (hskip : skipBlank false false keyAllowed cursor.toPlace cursor.rest = (keyAllowed', stop))
    (hspot : ∀ spot, spot? = some spot → KeySpot.isStale spot stop = true ∧ spot.required = false) :
    advance? ⟨cursor, tokens, blocks, [spot?], keyAllowed⟩ =
      some ((between stop tokens blocks keyAllowed').closeBlocks (some stop.column)) := by
  have hdrop : dropStale? ⟨stop, tokens, blocks, [spot?], keyAllowed'⟩ =
      some (between stop tokens blocks keyAllowed') := by
    cases hcase : spot? with
    | none => rfl
    | some spot =>
      obtain ⟨hstale, hrequired⟩ := hspot spot hcase
      unfold dropStale? between
      simp [hstale, hrequired]
  rw [advance?, toToken_eq tokens blocks spot? hskip, hdrop]
  rfl

/-- Between tokens the lexer goes on to the next one, unless a block ends there. -/
theorem advance?_between {place stop : Place} {rest body : List Char}
    {keyAllowed keyAllowed' : Bool} (tokens : List Token) (blocks : List Nat)
    (hskip : skipBlank false false keyAllowed place rest = (keyAllowed', ⟨stop, body⟩))
    (hblocks : blocks.head?.all (· ≤ stop.column) = true) :
    (between ⟨place, rest⟩ tokens blocks keyAllowed).advance? =
      some (between ⟨stop, body⟩ tokens blocks keyAllowed') :=
  (advance?_of_isStale hskip fun _ h => by cases h).trans
    (congrArg some (closeBlocks_eq_self hblocks))

/-- At a word the lexer stays as it is, unless its spot is stale or a block ends. -/
theorem advance?_word {cursor : Cursor} {tokens : List Token} {blocks : List Nat} {spot : KeySpot}
    {keyAllowed : Bool} (hword : cursor.rest.head?.all opensLine = true)
    (hspot : KeySpot.isStale spot cursor = false)
    (hblocks : blocks.head?.all (· ≤ cursor.column) = true) :
    advance? ⟨cursor, tokens, blocks, [some spot], keyAllowed⟩ =
      some ⟨cursor, tokens, blocks, [some spot], keyAllowed⟩ := by
  have hdrop : dropStale? ⟨cursor, tokens, blocks, [some spot], keyAllowed⟩ =
      some ⟨cursor, tokens, blocks, [some spot], keyAllowed⟩ := by
    unfold dropStale?
    simp [hspot]
  rw [advance?, toToken_eq tokens blocks (some spot) (skipBlank_word hword), hdrop]
  exact congrArg some (closeBlocks_eq_self hblocks)

/-- The spot that is noted where a token starts that may be a key. -/
def spotAt (cursor : Cursor) (tokens : List Token) (blocks : List Nat) (keyAllowed : Bool) :
    Option KeySpot :=
  if keyAllowed then
    some ⟨cursor.toPlace, tokens.length, blocks.head? == some cursor.column⟩
  else
    none

theorem markSpot?_between (cursor : Cursor) (tokens : List Token) (blocks : List Nat)
    (keyAllowed : Bool) :
    (between cursor tokens blocks keyAllowed).markSpot? =
      some ⟨cursor, tokens, blocks, [spotAt cursor tokens blocks keyAllowed], keyAllowed⟩ := by
  cases keyAllowed <;> rfl

/-- To the right of a mapping's column no key must start, and a spot is stale on the next line. -/
theorem isStale_of_spotAt {place : Place} {rest : List Char} {stop : Cursor} {tokens : List Token}
    {outer : List Nat} {keyAllowed : Bool} {column : Nat} (hcolumn : column < place.column)
    (hline : place.line < stop.line) (spot : KeySpot)
    (h : spotAt ⟨place, rest⟩ tokens (column :: outer) keyAllowed = some spot) :
    KeySpot.isStale spot stop = true ∧ spot.required = false := by
  unfold spotAt at h
  split at h
  · cases h
    refine ⟨?_, beq_eq_false_iff_ne.2 fun heq => ?_⟩
    · rw [KeySpot.isStale, decide_eq_true hline, Bool.true_or]
    · exact Nat.ne_of_lt hcolumn (Option.some.inj heq)
  · cases h

end SchemaOptions.Yaml.Lexer
