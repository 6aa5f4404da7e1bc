import SchemaOptions.Proofs.Yaml.Scalar.Token

/-!
# The tokens of a written document

The lexer gives back the tokens that a document is made of (`ofText?_writeEntries`). Behind every
line the lexer stands at the first word of the next one, so what a content is read as depends on
nothing but the columns of the mappings around it (`steps_write`).
-/

namespace SchemaOptions.Yaml

mutual

/-- The tokens of a content. -/
def Content.tokens : Content → List Token
  | .word s => [.scalar .plain s.toList]
  | .text s => [.scalar (ScalarStyle.ofText s.toList) s.toList]
  | .mapping entries => .blockMappingStart :: (entriesTokens entries ++ [.blockEnd])

/-- The tokens of the entries of a mapping. -/
def entriesTokens : List (String × Content) → List Token
  | [] => []
  | (key, value) :: rest =>
    .key :: .scalar (ScalarStyle.ofText key.toList) key.toList :: .value ::
      (value.tokens ++ entriesTokens rest)

end

namespace Lexer

/-! ## Keys -/

/-- Whether a key at a column opens a mapping there, within the blocks around it, or continues the
one that is open; and the tokens that this gives. -/
inductive Opens (column : Nat) (outer : List Nat) : List Nat → List Token → Prop where
  | first (h : outer.head?.all (· < column) = true) : Opens column outer outer [.blockMappingStart]
  | later : Opens column outer (column :: outer) []

/-- No block ends at a key. -/
theorem Opens.head_le {column : Nat} {outer blocks : List Nat} {start : List Token}
    (h : Opens column outer blocks start) : blocks.head?.all (· ≤ column) = true := by
  cases h with
  | first houter =>
    cases outer with
    | nil => rfl
    | cons c outer => exact decide_eq_true (Nat.le_of_lt (of_decide_eq_true houter))
  | later => exact decide_eq_true (Nat.le_refl column)

/-- A token is put in behind those that stand before a spot. -/
theorem emitAt_eq (cursor : Cursor) (before tokens : List Token) (blocks : List Nat)
    (spot? : Option KeySpot) (keyAllowed : Bool) (token : Token) :
    emitAt ⟨cursor, before ++ tokens, blocks, [spot?], keyAllowed⟩ token tokens.length =
      ⟨cursor, before ++ token :: tokens, blocks, [spot?], keyAllowed⟩ := by
  have hinsert (before : List Token) :
      (before ++ tokens).insertIdx before.length token = before ++ token :: tokens := by
    induction before with
    | nil => rfl
    | cons first before ih => exact congrArg (first :: ·) ih
  have hindex : (before ++ tokens).length - tokens.length = before.length := by
    rw [List.length_append, Nat.add_sub_cancel]
  unfold emitAt
  rw [hindex, hinsert]

/-- At a key a mapping is opened if none is open there. -/
theorem Opens.openBlock_eq {column : Nat} {outer blocks : List Nat} {start : List Token}
    (h : Opens column outer blocks start) (cursor : Cursor) (spot? : Option KeySpot)
    (keyAllowed : Bool) (before tokens : List Token) :
    openBlock ⟨cursor, before ++ tokens, blocks, [spot?], keyAllowed⟩ column tokens.length =
      ⟨cursor, before ++ (start ++ tokens), column :: outer, [spot?], keyAllowed⟩ := by
  cases h with
  | first houter =>
    unfold openBlock
    rw [emitAt_eq]
    exact if_pos houter
  | later =>
    have hopen : (!inFlow ⟨cursor, before ++ tokens, column :: outer, [spot?], keyAllowed⟩ &&
        (column :: outer).head?.all (· < column)) = false := by
      rw [List.head?_cons, Option.all_some, decide_eq_false (Nat.lt_irrefl column), Bool.and_false]
    exact if_neg (Bool.eq_false_iff.1 hopen)

/-- What is written of a key before its colon, on its line and on further ones. -/
def keyText (column : Nat) (key : String) : List Char :=
  let text := writeText (column + indentStep) key.toList
  if isInlineKey key then text else '?' :: ' ' :: (text ++ (lineTail text ++ spaces column))

theorem endLine_eq (cs : List Char) : endLine cs = cs ++ lineTail cs := by
  unfold endLine lineTail
  split
  · rw [List.append_nil]
  · rfl

theorem writeKey_eq (column : Nat) (key : String) :
    writeKey column key = spaces column ++ (keyText column key ++ [':']) := by
  unfold writeKey keyText
  simp only
  split
  · rw [List.append_assoc]
  · have htail := lineTail_append (spaces column ++ ['?', ' '])
      (writeText_ne_nil (column + indentStep) key.toList)
    rw [endLine_eq, htail]
    simp only [List.append_assoc, List.cons_append, List.nil_append]

/-- A plain text opens with a word. -/
theorem opensLine_of_fitsPlain {cs : List Char} (hne : cs ≠ []) (hfits : fitsPlain cs = true)
    (rest : List Char) : (cs ++ rest).head?.all opensLine = true := by
  cases cs with
  | nil => exact absurd rfl hne
  | cons c cs =>
    obtain ⟨hc, hbreak⟩ := shown_of_fitsPlain hfits c List.mem_cons_self
    simp only [fitsPlain, Bool.and_eq_true, Bool.not_eq_true', bne_iff_ne] at hfits
    obtain ⟨⟨⟨⟨⟨-, hhead⟩, -⟩, -⟩, hopens⟩, -⟩ := hfits
    have hspace : isSpace c = false := by
      rw [isSpace_of_isShown hc]
      exact beq_eq_false_iff_ne.2 fun heq => hhead (congrArg some heq)
    have hsign : c ≠ '#' := by
      rintro rfl
      cases hopens
    show (!isSpace c && !isBreak c && c != '#' && c != byteOrderMark) = true
    rw [hspace, hbreak, bne_iff_ne.2 hsign, bne_iff_ne.2 (ne_byteOrderMark_of_isShown hc)]
    rfl

/-- A text opens with a word in whatever style it is written. -/
theorem opensLine_writeText (indent : Nat) (cs rest : List Char) :
    (writeText indent cs ++ rest).head?.all opensLine = true := by
  unfold writeText
  obtain ⟨hstyle, -⟩ | ⟨hstyle, hambiguous, hfits⟩ | ⟨hstyle, -⟩ | hstyle := ofText_cases cs
  · rw [hstyle]
    rfl
  · rw [hstyle]
    refine opensLine_of_fitsPlain ?_ hfits rest
    rintro rfl
    cases hambiguous
  · rw [hstyle]
    rfl
  · rw [hstyle]
    rfl

/-- A key opens with a word. -/
theorem opensLine_keyText (column : Nat) (key : String) (rest : List Char) :
    (keyText column key ++ rest).head?.all opensLine = true := by
  unfold keyText
  simp only
  split
  · exact opensLine_writeText _ _ rest
  · rfl

/-- A colon behind the spot of a key puts in the mark of the key, and opens its mapping. -/
theorem readValue_spot {outer blocks : List Nat} {start : List Token} (key place : Place)
    (rest : List Char) (scalar : Token) (tokens : List Token) (required keyAllowed : Bool)
    (hopens : Opens key.column outer blocks start) :
    readValue ⟨⟨place, ':' :: rest⟩, scalar :: tokens, blocks,
        [some ⟨key, tokens.length, required⟩], keyAllowed⟩ =
      some (between ⟨place.next ':', rest⟩ (.value :: scalar :: .key :: (start ++ tokens))
        (key.column :: outer) false) := by
  have hkey := emitAt_eq ⟨place, ':' :: rest⟩ [scalar] tokens blocks
    (some ⟨key, tokens.length, required⟩) keyAllowed .key
  have hblock := hopens.openBlock_eq ⟨place, ':' :: rest⟩ (some ⟨key, tokens.length, required⟩)
    keyAllowed [scalar, .key] tokens
  have hopened := (congrArg (openBlock · key.column tokens.length) hkey).trans hblock
  exact congrArg (fun lexer : Lexer => some
    { (lexer.setSpot none).emit .value (lexer.cursor.skip 1) with keyAllowed := false }) hopened

/-- Behind a space the lexer stands at the word. -/
theorem advance?_space {column : Nat} {outer : List Nat} {keyAllowed : Bool} {body : List Char}
    (place : Place) (tokens : List Token) (hcolumn : column < place.column)
    (hbody : body.head?.all opensLine = true) :
    (between ⟨place, ' ' :: body⟩ tokens (column :: outer) keyAllowed).advance? =
      some (between ⟨place.next ' ', body⟩ tokens (column :: outer) keyAllowed) := by
  have hskip : skipBlank false false keyAllowed place (' ' :: body) =
      (keyAllowed, ⟨place.next ' ', body⟩) := skipBlank_word hbody
  exact advance?_between tokens (column :: outer) hskip
    (decide_eq_true (Nat.le_succ_of_le (Nat.le_of_lt hcolumn)))

/-- The mark of a key opens its mapping. -/
theorem readKey_eq {outer blocks : List Nat} {start : List Token} (place : Place)
    (rest : List Char) (tokens : List Token) (hopens : Opens place.column outer blocks start) :
    readKey (between ⟨place, '?' :: rest⟩ tokens blocks true) =
      some (between ⟨place.next '?', rest⟩ (.key :: (start ++ tokens)) (place.column :: outer)
        true) := by
  have hopened := hopens.openBlock_eq ⟨place, '?' :: rest⟩ none true [] tokens
  exact congrArg (fun lexer : Lexer => lexer.dropSpot?.bind fun dropped =>
    some { dropped.emit .key (dropped.cursor.skip 1) with keyAllowed := !dropped.inFlow }) hopened

/-- A colon on a line of its own stands before the value of the key above it. -/
theorem readValue_line {outer : List Nat} (place : Place) (rest : List Char)
    (tokens : List Token) :
    readValue (between ⟨place, ':' :: rest⟩ tokens (place.column :: outer) true) =
      some (between ⟨place.next ':', rest⟩ (.value :: tokens) (place.column :: outer) true) := by
  have hopens : Opens place.column outer (place.column :: outer) [] := .later
  have hopened := hopens.openBlock_eq ⟨place, ':' :: rest⟩ none true [] tokens
  exact congrArg (fun lexer : Lexer => some
    { lexer.emit .value (lexer.cursor.skip 1) with keyAllowed := !lexer.inFlow }) hopened

/-- A key with a mark of its own is read up to the colon on the line below it. -/
theorem steps_ownKey {column : Nat} {outer blocks : List Nat} {start : List Token}
    (line : Nat) (cs rest : List Char) (tokens : List Token)
    (hopens : Opens column outer blocks start) :
    ∃ line', Steps
      (between ⟨⟨line, column, column⟩, '?' :: ' ' :: (writeText (column + indentStep) cs ++
        (lineTail (writeText (column + indentStep) cs) ++ (spaces column ++ ':' :: rest)))⟩ tokens
        blocks true)
      (between ⟨⟨line', column, column⟩, ':' :: rest⟩
        (.scalar (ScalarStyle.ofText cs) cs :: .key :: (start ++ tokens)) (column :: outer)
        true) := by
  have hright : column < column + 2 := Nat.lt_add_of_pos_right (by decide)
  obtain ⟨line', hscalar⟩ : ∃ line', Step
      (between ⟨⟨line, column + 2, column + 2⟩, writeText (column + indentStep) cs ++
        (lineTail (writeText (column + indentStep) cs) ++ (spaces column ++ ':' :: rest))⟩
        (.key :: (start ++ tokens)) (column :: outer) true)
      (atLine line' column (':' :: rest)
        (.scalar (ScalarStyle.ofText cs) cs :: .key :: (start ++ tokens)) (column :: outer)) :=
    step_text cs hright (Nat.le_refl column) rfl
  rw [atLine_eq_between (Nat.le_refl column)] at hscalar
  refine ⟨line', .head ⟨_, (readToken_key rfl rfl).trans (readKey_eq ⟨line, column, column⟩ _ tokens
    hopens), Nat.lt_succ_self _, ?_⟩ (.single hscalar)⟩
  have hword := opensLine_writeText (column + indentStep) cs
    (lineTail (writeText (column + indentStep) cs) ++ (spaces column ++ ':' :: rest))
  exact advance?_space _ _ (Nat.lt_succ_self column) hword

/-- A key is read up to the value behind its colon. -/
theorem steps_key {column : Nat} {outer blocks : List Nat} {start : List Token} {rest : List Char}
    (line : Nat) (key : String) (tokens : List Token) (hopens : Opens column outer blocks start)
    (hrest : endsWord rest = true) :
    ∃ colon place keyAllowed, column < Place.column place ∧
      Steps (between ⟨⟨line, column, column⟩, keyText column key ++ ':' :: rest⟩ tokens blocks true)
        colon ∧
      rest.length < colon.cursor.rest.length ∧
      colon.readToken = some (between ⟨place, rest⟩
        (.value :: .scalar (ScalarStyle.ofText key.toList) key.toList :: .key :: (start ++ tokens))
        (column :: outer) keyAllowed) := by
  unfold keyText
  simp only
  split
  · rename_i hkey
    obtain ⟨place, hcolumn, hstep⟩ := step_inlineKey hkey hrest hopens.head_le
    refine ⟨_, place.next ':', false, Nat.lt_succ_of_le hcolumn, .single hstep,
      Nat.lt_succ_self _, ?_⟩
    exact (readToken_value rfl hrest).trans
      (readValue_spot ⟨line, column, column⟩ place rest _ tokens _ false hopens)
  · obtain ⟨line', hsteps⟩ := steps_ownKey line key.toList rest tokens hopens
    simp only [List.append_assoc, List.cons_append]
    refine ⟨_, (Place.mk line' column column).next ':', true, Nat.lt_succ_self column, hsteps,
      Nat.lt_succ_self _, ?_⟩
    exact (readToken_value rfl hrest).trans (readValue_line ⟨line', column, column⟩ rest _)

/-! ## Contents -/

/-- What stands behind a colon opens with a space or a line break. -/
theorem endsWord_write (column : Nat) (content : Content) (rest : List Char) :
    endsWord (content.write column ++ rest) = true := by
  cases content with
  | word s =>
    rw [Content.write, endLine_eq]
    rfl
  | text s =>
    rw [Content.write, endLine_eq]
    rfl
  | mapping entries =>
    rw [Content.write]
    rfl

theorem write_word {column : Nat} {s : String} (hne : s.toList ≠ [])
    (hfits : fitsPlain s.toList = true) :
    (Content.word s).write column = ' ' :: (s.toList ++ ['\n']) := by
  have htail := lineTail_append [' '] hne
  rw [lineTail_of_fitsPlain hfits] at htail
  rw [Content.write, endLine_eq]
  exact congrArg (fun tail => ' ' :: (s.toList ++ tail)) htail

theorem write_text (column : Nat) (s : String) :
    (Content.text s).write column = ' ' :: (writeText (column + indentStep) s.toList ++
      lineTail (writeText (column + indentStep) s.toList)) := by
  have htail := lineTail_append [' '] (writeText_ne_nil (column + indentStep) s.toList)
  rw [Content.write, endLine_eq]
  exact congrArg (fun tail => ' ' :: (writeText (column + indentStep) s.toList ++ tail)) htail

/-- The first line of entries, and the lines below it. -/
theorem writeEntries_cons (column : Nat) (key : String) (value : Content)
    (rest : List (String × Content)) :
    writeEntries column ((key, value) :: rest) = spaces column ++
      (keyText column key ++ ':' :: (value.write column ++ writeEntries column rest)) := by
  rw [writeEntries, writeKey_eq]
  simp only [List.append_assoc, List.cons_append, List.nil_append]

/-- The line behind a value: that of the next entry, or what stands below the mapping. -/
theorem exists_line {column below : Nat} {body : List Char} (entries : List (String × Content))
    (hbelow : below ≤ column) (hbody : body.head?.all opensLine = true) :
    ∃ next text, writeEntries column entries ++ (spaces below ++ body) = spaces next ++ text ∧
      next ≤ column ∧ text.head?.all opensLine = true ∧
      (entries = [] → next = below ∧ text = body) ∧ (entries ≠ [] → next = column) := by
  cases entries with
  | nil => exact ⟨below, body, rfl, hbelow, hbody, fun _ => ⟨rfl, rfl⟩, fun h => absurd rfl h⟩
  | cons entry rest =>
    obtain ⟨key, value⟩ := entry
    rw [writeEntries_cons, List.append_assoc, List.append_assoc]
    exact ⟨column, _, rfl, Nat.le_refl column, opensLine_keyText column key _,
      (fun h => by cases h), fun _ => rfl⟩

mutual

/-- What is written for a content behind its colon is read as its tokens. -/
theorem steps_write {column below : Nat} {body : List Char} (content : Content) (place : Place)
    (tokens : List Token) (outer : List Nat) (keyAllowed : Bool) (hsound : content.Sound)
    (hcolumn : column < place.column) (hbelow : below ≤ column)
    (hbody : body.head?.all opensLine = true) :
    ∃ first line,
      (between ⟨place, content.write column ++ (spaces below ++ body)⟩ tokens (column :: outer)
        keyAllowed).advance? = some first ∧
      Steps first
        (atLine line below body (content.tokens.reverse ++ tokens) (column :: outer)) := by
  have hnext : column < (place.next ' ').column := Nat.lt_succ_of_lt hcolumn
  cases content with
  | word s =>
    obtain ⟨hne, hfits⟩ := hsound
    rw [write_word hne hfits, List.cons_append, List.append_assoc]
    exact ⟨_, _, advance?_space place tokens hcolumn (opensLine_of_fitsPlain hne hfits _),
      .single (step_plain hne hfits hnext hbelow hbody)⟩
  | text s =>
    obtain ⟨line, hstep⟩ := step_text s.toList hnext hbelow hbody
    rw [write_text, List.cons_append, List.append_assoc]
    exact ⟨_, line, advance?_space place tokens hcolumn (opensLine_writeText _ s.toList _),
      .single hstep⟩
  | mapping entries =>
    obtain ⟨hne, hentries⟩ := hsound
    have hright : column < column + indentStep := Nat.lt_add_of_pos_right (by decide)
    obtain ⟨next, text, htext, -, hword, -, hfirst⟩ :=
      exists_line entries (Nat.le_trans hbelow (Nat.le_of_lt hright)) hbody
    rw [hfirst hne] at htext
    have hopens : Opens (column + indentStep) (column :: outer) (column :: outer)
        [.blockMappingStart] := .first (decide_eq_true hright)
    obtain ⟨line, hsteps⟩ := steps_writeEntries entries (place.line + 1) tokens hne hentries hopens
      (Nat.le_trans hbelow (Nat.le_of_lt hright)) hbody htext
    rw [atLine_cons_of_lt (Nat.lt_of_le_of_lt hbelow hright)] at hsteps
    have hskip : skipBlank false false keyAllowed place
        ((Content.mapping entries).write column ++ (spaces below ++ body)) =
        (true, ⟨⟨place.line + 1, column + indentStep, column + indentStep⟩, text⟩) := by
      rw [Content.write, List.cons_append, htext]
      exact skipBlank_line hword
    have hblocks : (column :: outer).head?.all (· ≤ column + indentStep) = true :=
      decide_eq_true (Nat.le_of_lt hright)
    have hadvance := advance?_between tokens (column :: outer) hskip hblocks
    refine ⟨_, line, hadvance, ?_⟩
    have htokens :
        .blockEnd :: ((entriesTokens entries).reverse ++ ([.blockMappingStart] ++ tokens)) =
          (Content.mapping entries).tokens.reverse ++ tokens := by
      simp only [Content.tokens, List.reverse_cons, List.reverse_append, List.reverse_nil,
        List.nil_append, List.append_assoc, List.cons_append]
    rwa [htokens] at hsteps

/-- What is written for entries is read as their tokens. -/
theorem steps_writeEntries {column below : Nat} {outer blocks : List Nat} {start : List Token}
    {body text : List Char} (entries : List (String × Content)) (line : Nat) (tokens : List Token)
    (hne : entries ≠ []) (hsound : SoundEntries entries)
    (hopens : Opens column outer blocks start) (hbelow : below ≤ column)
    (hbody : body.head?.all opensLine = true)
    (htext : writeEntries column entries ++ (spaces below ++ body) = spaces column ++ text) :
    ∃ line', Steps (between ⟨⟨line, column, column⟩, text⟩ tokens blocks true)
      (atLine line' below body ((entriesTokens entries).reverse ++ (start ++ tokens))
        (column :: outer)) := by
  cases entries with
  | nil => exact absurd rfl hne
  | cons entry rest =>
    obtain ⟨key, value⟩ := entry
    obtain ⟨next, after, hafter, hle, hword, hlast, hmore⟩ := exists_line rest hbelow hbody
    rw [writeEntries_cons, List.append_assoc, List.append_cancel_left_eq, List.append_assoc,
      List.cons_append, List.append_assoc, hafter] at htext
    subst htext
    obtain ⟨colon, place, keyAllowed, hcolumn, hkey, hlength, hread⟩ := steps_key line key tokens
      hopens (endsWord_write column value (spaces next ++ after))
    obtain ⟨first, line', hadvance, hvalue⟩ :=
      steps_write value place _ outer keyAllowed hsound.1 hcolumn hle hword
    have hentry := (hkey.tail ⟨_, hread, hlength, hadvance⟩).trans hvalue
    cases rest with
    | nil =>
      obtain ⟨rfl, rfl⟩ := hlast rfl
      refine ⟨line', ?_⟩
      simpa only [entriesTokens, List.append_nil, List.reverse_cons, List.append_assoc,
        List.cons_append, List.nil_append] using hentry
    | cons entry' rest =>
      obtain rfl := hmore (List.cons_ne_nil _ _)
      rw [atLine_eq_between (Nat.le_refl next)] at hentry
      obtain ⟨line'', hrest⟩ := steps_writeEntries (entry' :: rest) line' _ (List.cons_ne_nil _ _)
        hsound.2 .later hbelow hbody hafter
      refine ⟨line'', ?_⟩
      have hsteps := hentry.trans hrest
      rw [entriesTokens]
      simpa only [List.reverse_cons, List.reverse_append, List.append_assoc,
        List.cons_append, List.nil_append] using hsteps

end

end Lexer

/-- The tokens of a document are those of its content. -/
theorem Token.ofText?_writeEntries {entries : List (String × Content)} (hne : entries ≠ [])
    (hsound : SoundEntries entries) :
    Token.ofText? ⟨{}, writeEntries 0 entries⟩ = some (Content.mapping entries).tokens := by
  obtain ⟨next, text, htext, hle, hword, -⟩ : ∃ next text,
      writeEntries 0 entries ++ (spaces 0 ++ []) = spaces next ++ text ∧ next ≤ 0 ∧
        text.head?.all opensLine = true ∧ (entries = [] → next = 0 ∧ text = []) ∧
        (entries ≠ [] → next = 0) :=
    Lexer.exists_line entries (Nat.le_refl 0) rfl
  obtain rfl := Nat.le_zero.1 hle
  have hstart : writeEntries 0 entries = text := (List.append_nil _).symm.trans htext
  have hopens : Lexer.Opens 0 [] [] [.blockMappingStart] := .first rfl
  obtain ⟨line, hsteps⟩ :=
    Lexer.steps_writeEntries entries 0 [] hne hsound hopens (Nat.le_refl 0) rfl htext
  rw [Lexer.atLine_eq_between (Nat.le_refl 0)] at hsteps
  have hadvance : (Lexer.between ⟨{}, text⟩ [] [] true).advance? =
      some (Lexer.between ⟨{}, text⟩ [] [] true) :=
    Lexer.advance?_between [] [] (Lexer.skipBlank_word hword) rfl
  rw [hstart]
  refine Lexer.readAll?_of_steps hadvance hsteps rfl ?_
  show some (Token.blockEnd ::
    ((entriesTokens entries).reverse ++ [.blockMappingStart])).reverse = _
  rw [Content.tokens]
  simp only [List.reverse_cons, List.reverse_append, List.reverse_reverse, List.reverse_nil,
    List.nil_append, List.cons_append]

end SchemaOptions.Yaml
