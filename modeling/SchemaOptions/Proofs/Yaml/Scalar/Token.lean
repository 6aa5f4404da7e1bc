import Mathlib.Data.String.Basic
import SchemaOptions.Proofs.Yaml.Scalar.Block
import SchemaOptions.Proofs.Yaml.Scalar.Quoted
import SchemaOptions.Proofs.Yaml.Steps

/-!
# Scalars as tokens

The first characters of a scalar tell the lexer its style. A scalar that ends its line is one step,
up to the first word of the next line (`step_text`); so is one that stands before the colon behind a
key (`step_key`), for which the spot where it started is kept.
-/

namespace SchemaOptions.Yaml.Lexer

/-! ## First characters -/

section

variable {lexer : Lexer} {place : Place} {rest : List Char}

theorem readToken_singleQuoted (h : lexer.cursor = ⟨place, '\x27' :: rest⟩) :
    lexer.readToken =
      lexer.readInner ((readSingleQuoted [] .empty (place.next '\x27') rest).map
        fun (text, stop) => (.scalar .singleQuoted text, stop)) := by
  have hdirective : (place.column == 0 && '\x27' == '%') = false := Bool.and_false _
  have hmark : (place.column == 0 && opensWithDocumentMark ('\x27' :: rest)) = false :=
    Bool.and_false _
  unfold readToken
  simp only [h, hdirective, hmark]
  rfl

theorem readToken_doubleQuoted (h : lexer.cursor = ⟨place, '\x22' :: rest⟩) :
    lexer.readToken =
      lexer.readInner ((readDoubleQuoted [] .empty (place.next '\x22') rest).map
        fun (text, stop) => (.scalar .doubleQuoted text, stop)) := by
  have hdirective : (place.column == 0 && '\x22' == '%') = false := Bool.and_false _
  have hmark : (place.column == 0 && opensWithDocumentMark ('\x22' :: rest)) = false :=
    Bool.and_false _
  unfold readToken
  simp only [h, hdirective, hmark]
  rfl

theorem readToken_block (h : lexer.cursor = ⟨place, '|' :: rest⟩) (hflow : lexer.inFlow = false) :
    lexer.readToken = lexer.readBlockScalar .literal := by
  have hdirective : (place.column == 0 && '|' == '%') = false := Bool.and_false _
  have hmark : (place.column == 0 && opensWithDocumentMark ('|' :: rest)) = false :=
    Bool.and_false _
  unfold readToken
  simp only [h, hdirective, hmark, hflow]
  rfl

theorem readToken_key (h : lexer.cursor = ⟨place, '?' :: rest⟩) (hrest : endsWord rest = true) :
    lexer.readToken = lexer.readKey := by
  have hdirective : (place.column == 0 && '?' == '%') = false := Bool.and_false _
  have hmark : (place.column == 0 && opensWithDocumentMark ('?' :: rest)) = false :=
    Bool.and_false _
  unfold readToken
  simp only [h, hdirective, hmark, hrest, Bool.or_true]
  rfl

theorem readToken_value (h : lexer.cursor = ⟨place, ':' :: rest⟩) (hrest : endsWord rest = true) :
    lexer.readToken = lexer.readValue := by
  have hdirective : (place.column == 0 && ':' == '%') = false := Bool.and_false _
  have hmark : (place.column == 0 && opensWithDocumentMark (':' :: rest)) = false :=
    Bool.and_false _
  unfold readToken
  simp only [h, hdirective, hmark, hrest, Bool.or_true]
  rfl

end

/-- Three equal marks are not made up of a text that lacks them and something behind it. -/
theorem isPrefixOf_append_eq_false {mark : Char} {cs tail : List Char} (hne : cs ≠ [])
    (h : [mark, mark, mark].isPrefixOf cs = false) (htail : tail.head? ≠ some mark) :
    [mark, mark, mark].isPrefixOf (cs ++ tail) = false := by
  cases tail with
  | nil => rwa [List.append_nil]
  | cons d tail =>
    have hd : (mark == d) = false := beq_eq_false_iff_ne.2 fun heq => htail (congrArg some heq.symm)
    match cs, hne, h with
    | [a], _, _ => simp [List.isPrefixOf, hd]
    | [a, b], _, _ => simp [List.isPrefixOf, hd]
    | a :: b :: c :: rest, _, h => exact h

/-- The mark between documents is not made up of a plain text and what stands behind it. -/
theorem opensWithDocumentMark_append {cs tail : List Char} (hne : cs ≠ [])
    (h : opensLikeDocumentMark cs = false) (hhyphen : tail.head? ≠ some '-')
    (hstop : tail.head? ≠ some '.') : opensWithDocumentMark (cs ++ tail) = false := by
  rw [opensLikeDocumentMark, Bool.or_eq_false_iff] at h
  rw [opensWithDocumentMark, isPrefixOf_append_eq_false hne h.1 hhyphen,
    isPrefixOf_append_eq_false hne h.2 hstop]
  rfl

/-- A word of a plain text does not end behind a character that would then be a mark. -/
theorem endsWord_append {c : Char} {rest : List Char} (tail : List Char)
    (h : opensWithMark (c :: rest) = false) (hc : (c == '?' || c == ':' || c == '-') = true) :
    endsWord (rest ++ tail) = false := by
  have hends : endsAnyWord rest = false := by
    rw [opensWithMark, hc, Bool.true_and] at h
    exact (Bool.or_eq_false_iff.1 h).2
  cases rest with
  | nil => cases hends
  | cons d rest =>
    simp only [endsAnyWord, isSeparator, isLineEnd, Bool.or_eq_false_iff] at hends
    exact Bool.or_eq_false_iff.2 ⟨hends.1.1, hends.1.2.1.1⟩

/-- A text without a mark in front may start a plain scalar. -/
theorem opensPlain_append {c : Char} {rest : List Char} (tail : List Char)
    (h : opensWithMark (c :: rest) = false) (hspace : isSpace c = false)
    (hbreak : isBreak c = false) : opensPlain false (c :: (rest ++ tail)) = true := by
  have hword := endsWord_append tail h
  rw [opensPlain]
  split
  · rename_i hhyphen
    have hends := hword (by rw [hhyphen, Bool.or_true])
    cases hrest : rest ++ tail with
    | nil => rfl
    | cons d after =>
      rw [hrest] at hends
      exact congrArg (!·) (Bool.or_eq_false_iff.1 hends).1
  · split
    · rename_i hmark
      rw [hword (by rw [hmark, Bool.true_or])]
      rfl
    · simp only [opensWithMark, Bool.or_eq_false_iff] at h
      rw [hspace, hbreak, h.1.1, h.1.2]
      rfl

/-- A plain text opens a plain scalar, whether a colon or a line break stands behind it. -/
theorem readToken_plain {lexer : Lexer} {place : Place} {cs tail : List Char}
    (h : lexer.cursor = ⟨place, cs ++ tail⟩) (hflow : lexer.inFlow = false)
    (hne : cs ≠ []) (hfits : fitsPlain cs = true)
    (htail : tail.head? = some ':' ∨ tail.head? = some '\n') :
    lexer.readToken = lexer.readPlainScalar := by
  simp only [fitsPlain, Bool.and_eq_true, Bool.not_eq_true'] at hfits
  obtain ⟨⟨⟨⟨⟨⟨hshown, hline⟩, hhead⟩, -⟩, hdocument⟩, hopens⟩, -⟩ := hfits
  have hdocument : opensWithDocumentMark (cs ++ tail) = false := by
    obtain htail | htail := htail <;>
      exact opensWithDocumentMark_append hne hdocument (by rw [htail]; decide)
        (by rw [htail]; decide)
  cases cs with
  | nil => exact absurd rfl hne
  | cons c rest =>
    have hc : isShown c = true := (shown_cons.1 (shown_iff_all.2 hshown)).1
    have hspace : isSpace c = false := by
      rw [isSpace_of_isShown hc]
      exact beq_eq_false_iff_ne.2 fun heq => by subst heq; cases hhead
    have hbreak : isBreak c = false := by
      rw [← isLineEnd_of_isShown hc]
      exact (Bool.or_eq_false_iff.1 hline).1
    have hplain := opensPlain_append tail hopens hspace hbreak
    have hnot (mark : Char) (hmark : (mark == '?' || mark == ':' || mark == '-') = true) :
        ¬(c = mark ∧ endsWord (rest ++ tail) = true) := by
      rintro ⟨rfl, hends⟩
      exact Bool.false_ne_true ((endsWord_append tail hopens hmark).symm.trans hends)
    simp only [opensWithMark, Bool.or_eq_false_iff, List.contains_cons, List.contains_nil,
      isFlowMark, beq_eq_false_iff_ne] at hopens
    rw [List.cons_append] at h hdocument
    unfold readToken
    simp only [h, hflow, hdocument, hplain, hopens, beq_iff_eq, Bool.and_eq_true,
      Bool.or_eq_true, or_self, false_or, and_false, false_and, if_false, Bool.false_eq_true,
      hnot '-' rfl, hnot '?' rfl, hnot ':' rfl, if_true]

/-- What single quotes hold is a token on lines of its own. -/
theorem readToken_singleQuoted_text {lexer : Lexer} {place : Place} {cs tail : List Char}
    (indent : Nat) (h : lexer.cursor = ⟨place, writeScalar indent .singleQuoted cs ++ tail⟩)
    (hfeed : cs.contains '\n' = false) (hfits : fitsSingleQuotes cs = true) (hindent : 0 < indent)
    (htail : tail.head? ≠ some '\x27') :
    lexer.readToken = lexer.readInner (some (.scalar .singleQuoted cs,
      ⟨place.through (writeScalar indent .singleQuoted cs), tail⟩)) := by
  have hcursor : lexer.cursor =
      ⟨place, '\x27' :: (singleQuotedBody indent false cs ++ '\x27' :: tail)⟩ := by
    rw [h, writeScalar, List.append_assoc]
    rfl
  rw [readToken_singleQuoted hcursor, readSingleQuoted_of_fits (place.next '\x27') tail hfeed hfits
    hindent (Nat.succ_pos _) htail]
  rfl

/-- What double quotes hold is a token within one line. -/
theorem readToken_doubleQuoted_text {lexer : Lexer} {place : Place} {cs tail : List Char}
    (indent : Nat) (h : lexer.cursor = ⟨place, writeScalar indent .doubleQuoted cs ++ tail⟩) :
    lexer.readToken = lexer.readInner (some (.scalar .doubleQuoted cs,
      ⟨place.past (writeScalar indent .doubleQuoted cs), tail⟩)) := by
  have hcursor : lexer.cursor =
      ⟨place, '\x22' :: (cs.flatMap doubleQuotedChar ++ '\x22' :: tail)⟩ := by
    rw [h, writeScalar, List.append_assoc]
    rfl
  rw [readToken_doubleQuoted hcursor, readDoubleQuoted_text [] .empty (place.next '\x22') tail rfl
    (Nat.succ_pos _)]
  rfl

/-- No text is written as nothing. -/
theorem writeText_ne_nil (indent : Nat) (cs : List Char) : writeText indent cs ≠ [] := by
  unfold writeText
  obtain ⟨hstyle, -⟩ | ⟨hstyle, hambiguous, -⟩ | ⟨hstyle, -⟩ | hstyle := ofText_cases cs
  · rw [hstyle]
    exact List.cons_ne_nil _ _
  · rw [hstyle]
    rintro rfl
    cases hambiguous
  · rw [hstyle]
    exact List.cons_ne_nil _ _
  · rw [hstyle]
    exact List.cons_ne_nil _ _

/-- Behind a token the text is shorter. -/
theorem length_lt_append {cs tail : List Char} (h : cs ≠ []) :
    tail.length < (cs ++ tail).length := by
  rw [List.length_append]
  exact Nat.lt_add_of_pos_left (List.length_pos_iff.2 h)

/-- A plain text can be shown, and is on one line. -/
theorem shown_of_fitsPlain {cs : List Char} (h : fitsPlain cs = true) :
    ∀ c ∈ cs, isShown c = true ∧ isBreak c = false := by
  intro c hmem
  simp only [fitsPlain, Bool.and_eq_true, Bool.not_eq_true', List.all_eq_true,
    List.any_eq_false] at h
  have hc := h.1.1.1.1.1.1 c hmem
  refine ⟨hc, ?_⟩
  rw [← isLineEnd_of_isShown hc]
  exact Bool.eq_false_iff.2 (h.1.1.1.1.1.2 c hmem)

/-- Behind a plain text the line goes on. -/
theorem lineTail_of_fitsPlain {cs : List Char} (h : fitsPlain cs = true) : lineTail cs = ['\n'] :=
  lineTail_of_words fun c hmem => by
    obtain ⟨hc, hbreak⟩ := shown_of_fitsPlain h c hmem
    exact (isLineEnd_of_isShown hc).trans hbreak

/-- A literal block ends as its text does. -/
theorem lineTail_literal {indent : Nat} {cs : List Char} (hne : cs ≠ []) :
    lineTail (writeScalar indent .literal cs) = lineTail cs := by
  have hlast (atStart : Bool) (cs : List Char) :
      (indentLines indent atStart cs).getLast? = cs.getLast? := by
    induction cs generalizing atStart with
    | nil => rfl
    | cons c rest ih =>
      rw [indentLines]
      split
      · rw [List.getLast?_cons, List.getLast?_cons, ih]
      · rw [List.getLast?_append_of_ne_nil _ (List.cons_ne_nil _ _), List.getLast?_cons,
          List.getLast?_cons, ih]
  have hlines : indentLines indent true cs ≠ [] := by
    intro hnil
    rw [← List.getLast?_eq_none_iff, hlast, List.getLast?_eq_none_iff] at hnil
    exact hne hnil
  rw [writeScalar, List.append_cons, lineTail_append _ hlines, lineTail, hlast]
  rfl

/-! ## At the end of a line -/

section

variable {place stop : Place} {column below : Nat} {body : List Char} {tokens : List Token}
  {outer : List Nat} {keyAllowed : Bool}

/-- A plain scalar is read up to the first word of the next line. -/
theorem step_plain {cs : List Char} (hne : cs ≠ []) (hfits : fitsPlain cs = true)
    (hcolumn : column < place.column) (hbelow : below ≤ column)
    (hbody : body.head?.all opensLine = true) :
    Step (between ⟨place, cs ++ '\n' :: (spaces below ++ body)⟩ tokens (column :: outer) keyAllowed)
      (atLine (place.line + 1) below body (.scalar .plain cs :: tokens) (column :: outer)) := by
  have hshown := shown_of_fitsPlain hfits
  have hplain : readPlain false (column + 1) [] .empty place
      (cs ++ '\n' :: (spaces below ++ body)) =
      some ⟨cs, ⟨⟨place.line + 1, below, below⟩, body⟩, true⟩ := by
    rw [readPlain_text [] .empty place _ hshown (runsPlain_of_fitsPlain hfits) rfl
      (Nat.le_succ_of_le hcolumn) (fun h => by cases h),
      readPlain_line (Nat.lt_succ_of_le hbelow) hbody, Place.line_past]
    rfl
  have hread : (between ⟨place, cs ++ '\n' :: (spaces below ++ body)⟩ tokens (column :: outer)
      keyAllowed).readToken = some ⟨⟨⟨place.line + 1, below, below⟩, body⟩,
        .scalar .plain cs :: tokens, column :: outer,
        [spotAt ⟨place, cs ++ '\n' :: (spaces below ++ body)⟩ tokens (column :: outer) keyAllowed],
        true⟩ := by
    rw [readToken_plain rfl rfl hne hfits (.inr rfl), readPlainScalar, markSpot?_between]
    exact congrArg (Option.bind · _) hplain
  refine ⟨_, hread, ?_, advance?_of_isStale (skipBlank_word hbody)
    (isStale_of_spotAt hcolumn (Nat.lt_succ_self place.line))⟩
  show body.length < (cs ++ '\n' :: (spaces below ++ body)).length
  simp only [List.length_append, List.length_cons]
  omega

/-- A token within one line is followed by the first word of the next line. -/
theorem step_inner {rest : List Char} {token : Token}
    (hread : (between ⟨place, rest⟩ tokens (column :: outer) keyAllowed).readToken =
      (between ⟨place, rest⟩ tokens (column :: outer) keyAllowed).readInner
        (some (token, ⟨stop, '\n' :: (spaces below ++ body)⟩)))
    (hlength : ('\n' :: (spaces below ++ body)).length < rest.length)
    (hstop : place.line ≤ stop.line) (hcolumn : column < place.column)
    (hbody : body.head?.all opensLine = true) :
    Step (between ⟨place, rest⟩ tokens (column :: outer) keyAllowed)
      (atLine (stop.line + 1) below body (token :: tokens) (column :: outer)) := by
  have hnext : (between ⟨place, rest⟩ tokens (column :: outer) keyAllowed).readToken =
      some ⟨⟨stop, '\n' :: (spaces below ++ body)⟩, token :: tokens, column :: outer,
        [spotAt ⟨place, rest⟩ tokens (column :: outer) keyAllowed], false⟩ := by
    rw [hread, readInner, markSpot?_between]
    rfl
  exact ⟨_, hnext, hlength, advance?_of_isStale (skipBlank_line hbody)
    (isStale_of_spotAt hcolumn (Nat.lt_succ_of_le hstop))⟩

theorem step_singleQuoted {cs : List Char} (hfeed : cs.contains '\n' = false)
    (hfits : fitsSingleQuotes cs = true) (hcolumn : column < place.column)
    (hbody : body.head?.all opensLine = true) :
    ∃ line, Step
      (between ⟨place, writeScalar (column + indentStep) .singleQuoted cs ++
        '\n' :: (spaces below ++ body)⟩ tokens (column :: outer) keyAllowed)
      (atLine line below body (.scalar .singleQuoted cs :: tokens) (column :: outer)) := by
  have hquote : ('\n' :: (spaces below ++ body)).head? ≠ some '\x27' := fun h => by cases h
  exact ⟨_, step_inner
    (readToken_singleQuoted_text (column + indentStep) rfl hfeed hfits (Nat.succ_pos _) hquote)
    (length_lt_append (List.cons_ne_nil _ _)) (place.line_le_through _) hcolumn hbody⟩

theorem step_doubleQuoted {cs : List Char} (hcolumn : column < place.column)
    (hbody : body.head?.all opensLine = true) :
    ∃ line, Step
      (between ⟨place, writeScalar (column + indentStep) .doubleQuoted cs ++
        '\n' :: (spaces below ++ body)⟩ tokens (column :: outer) keyAllowed)
      (atLine line below body (.scalar .doubleQuoted cs :: tokens) (column :: outer)) := by
  exact ⟨_, step_inner (readToken_doubleQuoted_text (column + indentStep) rfl)
    (length_lt_append (List.cons_ne_nil _ _)) (Nat.le_of_eq (place.line_past _).symm) hcolumn hbody⟩

/-- A literal block is read up to the first word of the line below it. -/
theorem step_literal {cs : List Char} (hfeed : cs.contains '\n' = true)
    (hfits : fitsBlock cs = true) (hbelow : below ≤ column)
    (hbody : body.head?.all opensLine = true) :
    ∃ line, Step
      (between ⟨place, writeScalar (column + indentStep) .literal cs ++
        (lineTail cs ++ (spaces below ++ body))⟩ tokens (column :: outer) keyAllowed)
      (atLine line below body (.scalar .literal cs :: tokens) (column :: outer)) := by
  obtain ⟨line, hlt, hblock⟩ := readBlock_text (place.next '|') hfeed hfits hbelow hbody
  have hcursor : Cursor.mk place (writeScalar (column + indentStep) .literal cs ++
      (lineTail cs ++ (spaces below ++ body))) =
      ⟨place, '|' :: (blockHeader cs ++ '\n' :: (indentLines (column + indentStep) true cs ++
        (lineTail cs ++ (spaces below ++ body))))⟩ := by
    rw [writeScalar]
    simp only [List.append_assoc, List.cons_append]
  rw [hcursor]
  refine ⟨line, ⟨⟨⟨line, below, below⟩, body⟩, .scalar .literal cs :: tokens, column :: outer,
    [none], true⟩, ?_, ?_, advance?_of_isStale (skipBlank_word hbody) fun _ h => by cases h⟩
  · rw [readToken_block rfl rfl]
    exact congrArg (Option.bind · _) hblock
  · simp only [between, List.length_append, List.length_cons]
    omega

/-- A text in the style that it needs is read up to the first word of the next line. -/
theorem step_text (cs : List Char) (hcolumn : column < place.column) (hbelow : below ≤ column)
    (hbody : body.head?.all opensLine = true) :
    ∃ line, Step
      (between ⟨place, writeText (column + indentStep) cs ++
        (lineTail (writeText (column + indentStep) cs) ++ (spaces below ++ body))⟩ tokens
        (column :: outer) keyAllowed)
      (atLine line below body (.scalar (ScalarStyle.ofText cs) cs :: tokens)
        (column :: outer)) := by
  unfold writeText
  obtain ⟨hstyle, hfeed, hfits⟩ | ⟨hstyle, hambiguous, hfits⟩ | ⟨hstyle, hfeed, hfits⟩ | hstyle :=
    ofText_cases cs
  · rw [hstyle, lineTail_literal (List.ne_nil_of_mem (List.contains_iff_mem.1 hfeed))]
    exact step_literal hfeed hfits hbelow hbody
  · have hne : cs ≠ [] := by
      rintro rfl
      cases hambiguous
    rw [hstyle]
    show ∃ line, Step (between ⟨place, cs ++ (lineTail cs ++ _)⟩ _ _ _) _
    rw [lineTail_of_fitsPlain hfits]
    exact ⟨_, step_plain hne hfits hcolumn hbelow hbody⟩
  · rw [hstyle, writeScalar, lineTail_append _ (List.cons_ne_nil _ _)]
    exact step_singleQuoted hfeed hfits hcolumn hbody
  · rw [hstyle, writeScalar, lineTail_append _ (List.cons_ne_nil _ _)]
    exact step_doubleQuoted hcolumn hbody

end

/-! ## Before a colon -/

/-- The columns of a line are passed with their bytes. -/
theorem offset_past (place : Place) (cs : List Char) :
    (place.past cs).offset = place.offset + String.utf8Len cs := by
  induction cs generalizing place with
  | nil => rfl
  | cons c rest ih =>
    rw [Place.past_cons, ih, String.utf8Len_cons, Place.next, Nat.add_right_comm, Nat.add_assoc]

theorem utf8Len_upperHex (digits n : Nat) : String.utf8Len (upperHex digits n) = digits := by
  have hdigit : ∀ digit < 16, String.utf8Len [upperHexDigit digit] = 1 := by decide
  induction digits generalizing n with
  | zero => rfl
  | succ digits ih =>
    rw [upperHex, String.utf8Len_append, ih, hdigit _ (Nat.mod_lt n (by decide))]

/-- A character that takes up one byte is one of ASCII. -/
theorem le_utf8Size {c : Char} (h : 0x7F < c.toNat) : 2 ≤ c.utf8Size := by
  have hone : c.utf8Size ≠ 1 := fun heq =>
    absurd (UInt32.le_iff_toNat_le.1 (Char.utf8Size_eq_one_iff.1 heq)) (Nat.not_le_of_lt h)
  have := c.utf8Size_pos
  omega

/-- Between double quotes a character takes up at most five times its bytes. -/
theorem utf8Len_doubleQuotedChar (c : Char) :
    String.utf8Len (doubleQuotedChar c) ≤ 5 * c.utf8Size := by
  have hsize := c.utf8Size_pos
  unfold doubleQuotedChar
  split
  · rw [String.utf8Len_cons, String.utf8Len_nil]
    omega
  · cases hescape : escapeLetter? c with
    | some letter =>
      have hletter : letter.utf8Size = 1 := by
        unfold escapeLetter? at hescape
        split at hescape <;> cases hescape <;> rfl
      simp only [String.utf8Len_cons, String.utf8Len_nil, hletter]
      show 0 + 1 + 1 ≤ _
      omega
    | none =>
      simp only
      split
      · rw [String.utf8Len_cons, String.utf8Len_cons, utf8Len_upperHex]
        show 2 + 1 + 1 ≤ _
        omega
      · have hlarge := le_utf8Size (c := c) (by omega)
        split
        · rw [String.utf8Len_cons, String.utf8Len_cons, utf8Len_upperHex]
          show 4 + 1 + 1 ≤ _
          omega
        · rw [String.utf8Len_cons, String.utf8Len_cons, utf8Len_upperHex]
          show 8 + 1 + 1 ≤ _
          omega

theorem utf8Len_doubleQuoted (cs : List Char) :
    String.utf8Len (cs.flatMap doubleQuotedChar) ≤ 5 * String.utf8Len cs := by
  induction cs with
  | nil => exact Nat.le_refl _
  | cons c rest ih =>
    have hc := utf8Len_doubleQuotedChar c
    rw [List.flatMap_cons, String.utf8Len_append, String.utf8Len_cons]
    omega

theorem utf8Len_singleQuotedBody {indent : Nat} {cs : List Char}
    (h : ∀ c ∈ cs, isLineEnd c = false) :
    String.utf8Len (singleQuotedBody indent false cs) ≤ 5 * String.utf8Len cs := by
  induction cs with
  | nil => exact Nat.le_refl _
  | cons c rest ih =>
    obtain ⟨hc, hrest⟩ := List.forall_mem_cons.1 h
    have hquoted : String.utf8Len (if c == '\x27' then [c, c] else [c]) ≤ 5 * c.utf8Size := by
      split <;> simp only [String.utf8Len_cons, String.utf8Len_nil] <;> omega
    rw [singleQuotedBody, if_neg (Bool.eq_false_iff.1 hc), String.utf8Len_append,
      String.utf8Len_append, String.utf8Len_cons]
    have := ih hrest
    show 0 + _ + _ ≤ _
    omega

/-- A text on one line takes up at most five times its bytes, and its quotes. -/
theorem utf8Len_writeText (indent : Nat) {cs : List Char} (h : ∀ c ∈ cs, isLineEnd c = false) :
    String.utf8Len (writeText indent cs) ≤ 5 * String.utf8Len cs + 2 := by
  have hquotes (inner : List Char) (c : Char) (hc : c.utf8Size = 1) :
      String.utf8Len (c :: inner ++ [c]) = String.utf8Len inner + 2 := by
    rw [String.utf8Len_append, String.utf8Len_cons, String.utf8Len_cons, hc]
    rfl
  unfold writeText
  obtain ⟨-, hfeed, -⟩ | ⟨hstyle, -⟩ | ⟨hstyle, -⟩ | hstyle := ofText_cases cs
  · exact absurd (h '\n' (List.contains_iff_mem.1 hfeed)) (by decide)
  · rw [hstyle, writeScalar]
    omega
  · rw [hstyle, writeScalar, hquotes _ _ rfl]
    exact Nat.add_le_add_right (utf8Len_singleQuotedBody h) 2
  · rw [hstyle, writeScalar, hquotes _ _ rfl]
    exact Nat.add_le_add_right (utf8Len_doubleQuoted cs) 2

theorem isBreak_of_isLineEnd {c : Char} (h : isLineEnd c = false) : isBreak c = false := by
  simp only [isLineEnd, Bool.or_eq_false_iff] at h
  exact h.1.1

/-- On one line single quotes add nothing to a text but themselves. -/
theorem mem_of_mem_singleQuotedBody {indent : Nat} {cs : List Char} {d : Char}
    (h : ∀ c ∈ cs, isLineEnd c = false) (hmem : d ∈ singleQuotedBody indent false cs) : d ∈ cs := by
  induction cs with
  | nil => exact hmem
  | cons c rest ih =>
    obtain ⟨hc, hrest⟩ := List.forall_mem_cons.1 h
    rw [singleQuotedBody, if_neg (Bool.eq_false_iff.1 hc)] at hmem
    obtain hquoted | hbody := List.mem_append.1 hmem
    · have hd : d ∈ if c == '\x27' then [c, c] else [c] := hquoted
      have heq : d = c := by
        split at hd <;> simpa using hd
      exact heq ▸ List.mem_cons_self
    · exact List.mem_cons_of_mem _ (ih hrest hbody)

/-- A short key on one line is read up to the colon behind it. -/
theorem readToken_inlineKey (place : Place) (tokens : List Token) {indent column : Nat}
    {cs rest : List Char} {blocks : List Nat} (hline : ∀ c ∈ cs, isLineEnd c = false)
    (hrest : endsWord rest = true) (hindent : 0 < indent) (hcolumn : column ≤ place.column)
    (hblocks : blocks.head?.all (· ≤ column) = true) :
    (between ⟨place, writeText indent cs ++ ':' :: rest⟩ tokens blocks true).readToken =
      some ⟨⟨place.past (writeText indent cs), ':' :: rest⟩,
        .scalar (ScalarStyle.ofText cs) cs :: tokens, blocks,
        [spotAt ⟨place, writeText indent cs ++ ':' :: rest⟩ tokens blocks true], false⟩ := by
  unfold writeText
  obtain ⟨-, hfeed, -⟩ | ⟨hstyle, hambiguous, hfits⟩ | ⟨hstyle, hfeed, hfits⟩ | hstyle :=
    ofText_cases cs
  · exact absurd (hline '\n' (List.contains_iff_mem.1 hfeed)) (by decide)
  · have hne : cs ≠ [] := by
      rintro rfl
      cases hambiguous
    have hminimum : (between ⟨place, cs ++ ':' :: rest⟩ tokens blocks true).minimum ≤
        place.column + 1 := by
      cases blocks with
      | nil => exact Nat.zero_le _
      | cons start outer =>
        have hstart : start ≤ column := of_decide_eq_true hblocks
        exact Nat.succ_le_succ (Nat.le_trans hstart hcolumn)
    have hplain : readPlain false (between ⟨place, cs ++ ':' :: rest⟩ tokens blocks true).minimum []
        .empty place (cs ++ ':' :: rest) = some ⟨cs, ⟨place.past cs, ':' :: rest⟩, false⟩ := by
      rw [readPlain_text [] .empty place _ (shown_of_fitsPlain hfits) (runsPlain_of_fitsPlain hfits)
        rfl hminimum (fun h => by cases h), readPlain_colon hrest]
      rfl
    rw [hstyle, writeScalar, readToken_plain rfl rfl hne hfits (.inl rfl), readPlainScalar,
      markSpot?_between]
    exact congrArg (Option.bind · _) hplain
  · rw [hstyle]
    have hcolon : (':' :: rest).head? ≠ some '\x27' := fun h => by cases h
    have hbreaks : ∀ c ∈ writeScalar indent .singleQuoted cs, isBreak c = false := by
      intro c hmem
      obtain (rfl | hbody) | hclose := List.mem_append.1 hmem |>.imp_left List.mem_cons.1
      · rfl
      · exact isBreak_of_isLineEnd (hline c (mem_of_mem_singleQuotedBody hline hbody))
      · rw [List.mem_singleton.1 hclose]
        rfl
    rw [readToken_singleQuoted_text indent rfl hfeed hfits hindent hcolon, readInner,
      markSpot?_between, Place.through_eq_past hbreaks]
    rfl
  · rw [hstyle, readToken_doubleQuoted_text indent rfl, readInner, markSpot?_between]
    rfl

/-- A short key on one line is one step, at the end of which its spot is still there. -/
theorem step_inlineKey {line column : Nat} {key : String} {rest : List Char} {tokens : List Token}
    {blocks : List Nat} (hkey : isInlineKey key = true) (hrest : endsWord rest = true)
    (hblocks : blocks.head?.all (· ≤ column) = true) :
    ∃ place : Place, column ≤ place.column ∧
      Step (between ⟨⟨line, column, column⟩,
          writeText (column + indentStep) key.toList ++ ':' :: rest⟩ tokens blocks true)
        ⟨⟨place, ':' :: rest⟩, .scalar (ScalarStyle.ofText key.toList) key.toList :: tokens, blocks,
          [some ⟨⟨line, column, column⟩, tokens.length, blocks.head? == some column⟩], false⟩ := by
  simp only [isInlineKey, Bool.and_eq_true, Bool.not_eq_true', List.any_eq_false,
    decide_eq_true_eq, Bool.not_eq_true] at hkey
  obtain ⟨hline, hsize⟩ := hkey
  have hbytes : String.utf8Len key.toList ≤ maxInlineKey := by
    rwa [← String.utf8ByteSize_ofList, String.ofList_toList]
  have hindent : 0 < column + indentStep := Nat.succ_pos _
  have hread := readToken_inlineKey ⟨line, column, column⟩ tokens hline hrest hindent
    (Nat.le_refl column) hblocks
  have hlength := utf8Len_writeText (column + indentStep) hline
  have hne := writeText_ne_nil (column + indentStep) key.toList
  generalize writeText (column + indentStep) key.toList = written at hread hlength hne ⊢
  have hcolumn : column ≤ ((Place.mk line column column).past written).column := by
    rw [Place.column_past]
    exact Nat.le_add_right _ _
  refine ⟨_, hcolumn, _, hread, length_lt_append hne, advance?_word rfl ?_ ?_⟩
  · have hfar : ¬column + maxKeyLength < ((Place.mk line column column).past written).offset := by
      rw [offset_past]
      have hkeys : 5 * maxInlineKey + 2 ≤ maxKeyLength := by decide
      show ¬column + maxKeyLength < column + String.utf8Len written
      omega
    have hsame : ¬line < ((Place.mk line column column).past written).line := by
      rw [Place.line_past]
      exact Nat.lt_irrefl line
    exact Bool.or_eq_false_iff.2 ⟨decide_eq_false hsame, decide_eq_false hfar⟩
  · cases blocks with
    | nil => rfl
    | cons start outer =>
      exact decide_eq_true (Nat.le_trans (of_decide_eq_true hblocks) hcolumn)

end SchemaOptions.Yaml.Lexer
