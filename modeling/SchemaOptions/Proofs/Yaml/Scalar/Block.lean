import Mathlib.Data.List.Basic
import Mathlib.Data.List.TakeWhile
import SchemaOptions.Proofs.Yaml.Scalar.Plain

/-!
# Block scalars, there and back

A literal block gives back the text that was written in it (`readBlock_text`). The lines are read
one by one; what was read so far is the text up to its last line, and the breaks behind that line
(`readBlockLines_text`). The header says which of these breaks belong to the text, and by how much
the lines are indented if the first of them could not show it.
-/

namespace SchemaOptions.Yaml

/-- The break that stands behind a text on lines of its own, unless the text ends in one. -/
def lineTail (cs : List Char) : List Char :=
  if cs.getLast?.any isLineEnd then [] else ['\n']

/-! ## Indentation -/

/-- Spaces that belong to the indentation are passed. -/
theorem readEmptyLines_spaces {indent? : Option Nat} {breaks rest : List Char} {deepest : Nat}
    (line column offset count : Nat) (h : indent?.all (column + count ≤ ·) = true) :
    readEmptyLines indent? breaks deepest ⟨line, column, offset⟩ (spaces count ++ rest) =
      readEmptyLines indent? breaks deepest ⟨line, column + count, offset + count⟩ rest := by
  induction count generalizing column offset with
  | zero => rfl
  | succ count ih =>
    have hfirst : indent?.all (column < ·) = true := by
      cases indent? with
      | none => rfl
      | some indent =>
        simp only [Option.all_some, decide_eq_true_eq] at h ⊢
        omega
    have hrest : indent?.all (column + 1 + count ≤ ·) = true := by
      rwa [Nat.add_right_comm]
    show readEmptyLines indent? breaks deepest _ (' ' :: (spaces count ++ rest)) = _
    rw [readEmptyLines, hfirst]
    refine (ih (column + 1) (offset + 1) hrest).trans ?_
    rw [Nat.add_right_comm column, Nat.add_right_comm offset]
    rfl

/-- Empty lines end at a character that is neither a break nor part of the indentation. -/
theorem readEmptyLines_stop {indent? : Option Nat} {breaks rest : List Char} {deepest : Nat}
    {place : Place} {c : Char} (hbreak : isBreak c = false) (htab : c ≠ '\t')
    (hspace : c = ' ' → indent?.all (place.column < ·) = false) :
    readEmptyLines indent? breaks deepest place (c :: rest) =
      some ⟨breaks, max deepest place.column, ⟨place, c :: rest⟩⟩ := by
  have hpassed : (c == ' ' && indent?.all (place.column < ·)) = false := by
    cases hc : c == ' ' with
    | false => rfl
    | true => rw [hspace (eq_of_beq hc), Bool.and_false]
  rw [readEmptyLines, hpassed, beq_eq_false_iff_ne.2 htab, hbreak]
  rfl

/-- At a line that is not indented enough, empty lines end behind its indentation. -/
theorem readEmptyLines_line {indent column : Nat} {body : List Char} (breaks : List Char)
    (deepest line : Nat) (hcolumn : column < indent) (hbody : body.head?.all opensLine = true) :
    ∃ deepest', readEmptyLines (some indent) breaks deepest ⟨line, 0, 0⟩ (spaces column ++ body) =
      some ⟨breaks, deepest', ⟨⟨line, column, column⟩, body⟩⟩ := by
  have hindent : (some indent).all (0 + column ≤ ·) = true := by
    simp only [Option.all_some, decide_eq_true_eq]
    omega
  rw [readEmptyLines_spaces line 0 0 column hindent, Nat.zero_add]
  cases body with
  | nil => exact ⟨_, rfl⟩
  | cons c rest =>
    simp only [List.head?_cons, Option.all_some, opensLine, isSpace, Bool.and_eq_true,
      Bool.not_eq_true', Bool.or_eq_false_iff, beq_eq_false_iff_ne, ne_eq] at hbody
    obtain ⟨⟨⟨⟨hspace, htab⟩, hbreak⟩, -⟩, -⟩ := hbody
    exact ⟨_, readEmptyLines_stop hbreak htab fun h => absurd h hspace⟩

/-! ## Lines -/

theorem indentLines_lineEnd {indent : Nat} {atStart : Bool} {c : Char} (h : isLineEnd c = true)
    (cs : List Char) : indentLines indent atStart (c :: cs) = c :: indentLines indent true cs := by
  rw [indentLines, if_pos h]

theorem indentLines_start {indent : Nat} {c : Char} (h : isLineEnd c = false) (cs : List Char) :
    indentLines indent true (c :: cs) = spaces indent ++ indentLines indent false (c :: cs) := by
  rw [indentLines, indentLines, if_neg (Bool.eq_false_iff.1 h), if_neg (Bool.eq_false_iff.1 h)]
  rfl

/-- Within a line the text stands as it is. -/
theorem indentLines_words {indent : Nat} {words : List Char} (h : ∀ c ∈ words, isLineEnd c = false)
    (rest : List Char) :
    indentLines indent false (words ++ rest) = words ++ indentLines indent false rest := by
  induction words with
  | nil => rfl
  | cons c words ih =>
    obtain ⟨hc, hwords⟩ := List.forall_mem_cons.1 h
    rw [List.cons_append, indentLines, if_neg (Bool.eq_false_iff.1 hc), ih hwords]
    rfl

/-- Empty lines end at a line of words, behind its indentation. -/
theorem readEmptyLines_word {indent? : Option Nat} {c : Char} (breaks : List Char)
    (deepest line indent : Nat) (rest tail : List Char) (hc : isShown c = true)
    (hline : isLineEnd c = false) (hindent : indent?.all (indent ≤ ·) = true)
    (hspace : c = ' ' → indent?.all (indent < ·) = false) :
    readEmptyLines indent? breaks deepest ⟨line, 0, 0⟩
        (indentLines indent true (c :: rest) ++ tail) =
      some ⟨breaks, max deepest indent, ⟨⟨line, indent, indent⟩,
        indentLines indent false (c :: rest) ++ tail⟩⟩ := by
  have hbreak : isBreak c = false := (isLineEnd_of_isShown hc).symm.trans hline
  have hfirst : indentLines indent false (c :: rest) = c :: indentLines indent false rest :=
    indentLines_words (List.forall_mem_singleton.2 hline) rest
  have hpassed : indent?.all (0 + indent ≤ ·) = true := by rwa [Nat.zero_add]
  rw [indentLines_start hline, List.append_assoc, readEmptyLines_spaces line 0 0 indent hpassed,
    Nat.zero_add, hfirst, List.cons_append,
    readEmptyLines_stop hbreak (ne_tab_of_isShown hc) hspace]

/-- The empty lines at the start of a text, behind the breaks of others, and where a line follows
that is not empty. -/
theorem readEmptyLines_text {indent column : Nat} {cs tail body : List Char} (breaks : List Char)
    (deepest line : Nat) (hshown : Shown cs) (hcolumn : column < indent)
    (hbody : body.head?.all opensLine = true)
    (htail : cs.dropWhile isLineEnd = [] → tail = spaces column ++ body) :
    ∃ deepest' line', line ≤ line' ∧
      readEmptyLines (some indent) breaks deepest ⟨line, 0, 0⟩
          (indentLines indent true cs ++ tail) =
        some ⟨breaks ++ cs.takeWhile isLineEnd, deepest',
          if (cs.dropWhile isLineEnd).isEmpty then ⟨⟨line', column, column⟩, body⟩
          else ⟨⟨line', indent, indent⟩,
            indentLines indent false (cs.dropWhile isLineEnd) ++ tail⟩⟩ := by
  induction cs generalizing breaks deepest line with
  | nil =>
    obtain ⟨deepest', hread⟩ := readEmptyLines_line breaks deepest line hcolumn hbody
    rw [htail rfl]
    refine ⟨deepest', line, Nat.le_refl _, ?_⟩
    rw [List.takeWhile_nil, List.append_nil]
    exact hread
  | cons c rest ih =>
    obtain ⟨hc, hrest⟩ := shown_cons.1 hshown
    cases hline : isLineEnd c with
    | true =>
      have hbreak : isBreak c = true := (isLineEnd_of_isShown hc).symm.trans hline
      have hspace : isSpace c = false := isSpace_of_isBreak hbreak
      rw [isSpace, Bool.or_eq_false_iff] at hspace
      rw [List.dropWhile_cons_of_pos hline] at htail
      obtain ⟨deepest', line', hle, hread⟩ :=
        ih (breaks ++ [c]) (max deepest 0) (line + 1) hrest htail
      refine ⟨deepest', line', Nat.le_trans (Nat.le_succ _) hle, ?_⟩
      rw [List.takeWhile_cons_of_pos hline, List.dropWhile_cons_of_pos hline,
        indentLines_lineEnd hline, List.append_cons breaks, ← hread, List.cons_append,
        readEmptyLines, hspace.1, hspace.2, hbreak]
      rfl
    | false =>
      have hneg : ¬isLineEnd c = true := Bool.eq_false_iff.1 hline
      refine ⟨max deepest indent, line, Nat.le_refl _, ?_⟩
      rw [List.takeWhile_cons_of_neg hneg, List.dropWhile_cons_of_neg hneg, List.append_nil]
      refine readEmptyLines_word breaks deepest line indent rest tail hc hline ?_ fun _ => ?_
      · exact decide_eq_true (Nat.le_refl indent)
      · exact decide_eq_false (Nat.lt_irrefl indent)

theorem readBlockLines_stop {folded : Bool} {indent : Nat} {sofar : BlockSoFar} {cursor : Cursor}
    (h : cursor.rest = [] ∨ cursor.column ≠ indent) :
    readBlockLines folded indent sofar cursor = some (sofar, cursor) := by
  obtain ⟨place, rest⟩ := cursor
  cases rest with
  | nil => rw [readBlockLines]
  | cons c rest =>
    rw [readBlockLines]
    exact if_pos (h.resolve_left fun h => by cases h)

/-- A line of words goes on to its break, and the empty lines below it follow. -/
theorem readBlockLines_step {words after : List Char} {b : Char} {lines : EmptyLines}
    (sofar : BlockSoFar) (place : Place) (indent : Nat) (hcolumn : place.column = indent)
    (hne : words ≠ []) (hwords : ∀ c ∈ words, isBreak c = false) (hb : isBreak b = true)
    (hlines : readEmptyLines (some indent) [] 0 place.nextLine after = some lines) :
    ∃ spaced, readBlockLines false indent sofar ⟨place, words ++ b :: after⟩ =
      readBlockLines false indent
        ⟨sofar.text ++ (sofar.lastBreak ++ sofar.emptyLines) ++ words, [b], lines.breaks, spaced⟩
        lines.stop := by
  have hpos : ∀ c ∈ words, (!isBreak c) = true := fun c hc => by rw [hwords c hc]; rfl
  have htake : (words ++ b :: after).takeWhile (!isBreak ·) = words := by
    rw [List.takeWhile_append_of_pos hpos, List.takeWhile_cons_of_neg (by simp [hb]),
      List.append_nil]
  have hdrop : (words ++ b :: after).dropWhile (!isBreak ·) = b :: after := by
    rw [List.dropWhile_append_of_pos hpos, List.dropWhile_cons_of_neg (by simp [hb])]
  cases words with
  | nil => exact absurd rfl hne
  | cons c cs =>
    refine ⟨isSpace c, ?_⟩
    rw [List.cons_append] at htake hdrop ⊢
    rw [readBlockLines]
    simp only [hcolumn, ne_eq, not_true_eq_false, if_false]
    split
    · rename_i hnil
      rw [hdrop] at hnil
      cases hnil
    · rename_i b' after' hcons
      rw [hdrop] at hcons
      cases hcons
      split
      · rename_i hnone
        rw [hlines] at hnone
        cases hnone
      · rename_i lines' hsome
        rw [hlines] at hsome
        cases hsome
        rw [htake]
        rfl

/-- How a text ends: in a word, behind which a line break is written, or in line breaks. -/
structure EndsIn (cs core : List Char) (last : Char) (more : List Char) : Prop where
  word : core.getLast?.any (!isLineEnd ·) = true
  breaks : (cs = core ∧ last = '\n' ∧ more = []) ∨
    (cs = core ++ last :: more ∧ isLineEnd last = true ∧ ∀ c ∈ more, isLineEnd c = true)

theorem EndsIn.append {cs core more : List Char} {last : Char} (h : EndsIn cs core last more)
    (before : List Char) : EndsIn (before ++ cs) (before ++ core) last more where
  word := by
    have hword := h.word
    cases hlast : core.getLast? with
    | none =>
      rw [hlast] at hword
      cases hword
    | some c =>
      rw [hlast] at hword
      rwa [List.getLast?_append, hlast, Option.some_or]
  breaks := by
    refine h.breaks.imp ?_ ?_
    · rintro ⟨rfl, hlast⟩
      exact ⟨rfl, hlast⟩
    · rintro ⟨rfl, hlast⟩
      exact ⟨(List.append_assoc ..).symm, hlast⟩

theorem lineTail_append (before : List Char) {cs : List Char} (h : cs ≠ []) :
    lineTail (before ++ cs) = lineTail cs := by
  unfold lineTail
  rw [List.getLast?_append_of_ne_nil _ h]

/-- Behind line breaks there is no other break. -/
theorem lineTail_of_isLineEnd {cs : List Char} (hne : cs ≠ []) (h : ∀ c ∈ cs, isLineEnd c = true) :
    lineTail cs = [] := by
  unfold lineTail
  rw [List.getLast?_eq_some_getLast hne, Option.any_some, h _ (List.getLast_mem hne), if_pos rfl]

/-- Behind words stands a line break. -/
theorem lineTail_of_words {cs : List Char} (h : ∀ c ∈ cs, isLineEnd c = false) :
    lineTail cs = ['\n'] := by
  unfold lineTail
  cases hlast : cs.getLast? with
  | none => rfl
  | some c =>
    rw [Option.any_some, h c (List.mem_of_getLast? hlast)]
    rfl

/-- Behind a text that is all line breaks no other one is written. -/
theorem lineTail_append_of_dropWhile {cs tail : List Char} (hne : cs ≠ [])
    (h : cs.dropWhile isLineEnd = []) : lineTail cs ++ tail = tail := by
  rw [lineTail_of_isLineEnd hne (List.dropWhile_eq_nil_iff.1 h), List.nil_append]

/-- Behind the line breaks at its start a text goes on with a word, and ends as it did. -/
theorem goesOn_of_dropWhile {cs after : List Char} {c : Char} (hshown : Shown cs)
    (h : cs.dropWhile isLineEnd = c :: after) :
    Shown (c :: after) ∧ isLineEnd c = false ∧ lineTail cs = lineTail (c :: after) := by
  have hsplit : cs.takeWhile isLineEnd ++ c :: after = cs := by
    rw [← h]
    exact List.takeWhile_append_dropWhile
  have hnot := List.head?_dropWhile_not isLineEnd cs
  rw [h] at hnot
  refine ⟨?_, hnot, ?_⟩
  · rw [← hsplit] at hshown
    exact (shown_append.1 hshown).2
  · rw [← hsplit, lineTail_append _ (List.cons_ne_nil c after)]

/-- A text that starts with a word: the words of its first line and what stands behind them. -/
theorem exists_words {cs : List Char} (hhead : cs.head?.any (!isLineEnd ·) = true) :
    ∃ words rest, cs = words ++ rest ∧ words ≠ [] ∧ (∀ c ∈ words, isLineEnd c = false) ∧
      rest.head?.all isLineEnd = true := by
  refine ⟨cs.takeWhile (!isLineEnd ·), cs.dropWhile (!isLineEnd ·),
    List.takeWhile_append_dropWhile.symm, ?_, ?_, ?_⟩
  · cases cs with
    | nil => cases hhead
    | cons c cs =>
      have hc : (!isLineEnd c) = true := hhead
      rw [List.takeWhile_cons, if_pos hc]
      exact List.cons_ne_nil _ _
  · intro c hmem
    simpa using List.mem_takeWhile_imp hmem
  · have hnot := List.head?_dropWhile_not (!isLineEnd ·) cs
    cases hrest : (cs.dropWhile (!isLineEnd ·)).head? with
    | none => rfl
    | some c =>
      rw [hrest] at hnot
      simpa using hnot

/-- The first line of a text, with the break that ends it and the empty lines below it. -/
theorem readBlockLines_line {indent column : Nat} {words rest body : List Char} {b : Char}
    (sofar : BlockSoFar) (line : Nat) (hshown : Shown (words ++ b :: rest)) (hne : words ≠ [])
    (hwords : ∀ c ∈ words, isLineEnd c = false) (hb : isLineEnd b = true)
    (hcolumn : column < indent) (hbody : body.head?.all opensLine = true) :
    ∃ spaced line', line < line' ∧
      readBlockLines false indent sofar ⟨⟨line, indent, indent⟩,
          indentLines indent false (words ++ b :: rest) ++
            (lineTail (b :: rest) ++ (spaces column ++ body))⟩ =
        readBlockLines false indent
          ⟨sofar.text ++ (sofar.lastBreak ++ sofar.emptyLines) ++ words, [b],
            rest.takeWhile isLineEnd, spaced⟩
          (if (rest.dropWhile isLineEnd).isEmpty then ⟨⟨line', column, column⟩, body⟩
            else ⟨⟨line', indent, indent⟩, indentLines indent false (rest.dropWhile isLineEnd) ++
              (lineTail (b :: rest) ++ (spaces column ++ body))⟩) := by
  obtain ⟨hshownWords, hshownRest⟩ := shown_append.1 hshown
  obtain ⟨hshownBreak, hshownRest⟩ := shown_cons.1 hshownRest
  have hnoBreak : ∀ c ∈ words, isBreak c = false := fun c hmem =>
    (isLineEnd_of_isShown (hshownWords c hmem)).symm.trans (hwords c hmem)
  have hbreak : isBreak b = true := (isLineEnd_of_isShown hshownBreak).symm.trans hb
  have htail : rest.dropWhile isLineEnd = [] →
      lineTail (b :: rest) ++ (spaces column ++ body) = spaces column ++ body := fun h =>
    lineTail_append_of_dropWhile (List.cons_ne_nil b rest)
      ((List.dropWhile_cons_of_pos hb).trans h)
  obtain ⟨deepest, line', hle, hlines⟩ :=
    readEmptyLines_text [] 0 (line + 1) hshownRest hcolumn hbody htail
  obtain ⟨spaced, hstep⟩ := readBlockLines_step sofar ⟨line, indent, indent⟩
    indent rfl hne hnoBreak hbreak hlines
  refine ⟨spaced, line', hle, ?_⟩
  rw [indentLines_words hwords, indentLines_lineEnd hb, List.append_assoc, List.cons_append]
  exact hstep

/-- The last line of a text that does not end in a break. -/
theorem readBlockLines_lastLine {indent column : Nat} {words body : List Char}
    (sofar : BlockSoFar) (line : Nat) (hshown : Shown words) (hne : words ≠ [])
    (hwords : ∀ c ∈ words, isLineEnd c = false) (hcolumn : column < indent)
    (hbody : body.head?.all opensLine = true) :
    ∃ spaced,
      readBlockLines false indent sofar ⟨⟨line, indent, indent⟩,
          indentLines indent false words ++ (lineTail words ++ (spaces column ++ body))⟩ =
        some (⟨sofar.text ++ (sofar.lastBreak ++ sofar.emptyLines) ++ words, ['\n'], [], spaced⟩,
          ⟨⟨line + 1, column, column⟩, body⟩) := by
  have hnoBreak : ∀ c ∈ words, isBreak c = false := fun c hmem =>
    (isLineEnd_of_isShown (hshown c hmem)).symm.trans (hwords c hmem)
  obtain ⟨deepest, hlines⟩ := readEmptyLines_line [] 0 (line + 1) hcolumn hbody
  obtain ⟨spaced, hstep⟩ := readBlockLines_step sofar ⟨line, indent, indent⟩
    indent rfl hne hnoBreak (b := '\n') rfl hlines
  refine ⟨spaced, ?_⟩
  have htext : indentLines indent false words = words := by
    have hwhole : indentLines indent false (words ++ []) = words ++ [] :=
      indentLines_words hwords []
    rwa [List.append_nil] at hwhole
  rw [htext, lineTail_of_words hwords]
  exact hstep.trans (readBlockLines_stop (.inr (Nat.ne_of_lt hcolumn)))

/-- The lines of a text from one on that is not empty, and the text that they are. -/
theorem readBlockLines_text {indent column : Nat} {body : List Char} (cs : List Char)
    (sofar : BlockSoFar) (line : Nat) (hshown : Shown cs)
    (hhead : cs.head?.any (!isLineEnd ·) = true) (hcolumn : column < indent)
    (hbody : body.head?.all opensLine = true) :
    ∃ core last more spaced line', line < line' ∧ EndsIn cs core last more ∧
      readBlockLines false indent sofar ⟨⟨line, indent, indent⟩,
          indentLines indent false cs ++ (lineTail cs ++ (spaces column ++ body))⟩ =
        some (⟨sofar.text ++ (sofar.lastBreak ++ sofar.emptyLines) ++ core, [last], more, spaced⟩,
          ⟨⟨line', column, column⟩, body⟩) := by
  -- The next line that is not empty may stand below any number of empty ones.
  induction hsize : cs.length using Nat.strongRecOn generalizing cs sofar line with
  | ind size ih => ?_
  obtain ⟨words, rest, rfl, hne, hwords, hrest⟩ := exists_words hhead
  have hword : words.getLast?.any (!isLineEnd ·) = true := by
    rw [List.getLast?_eq_some_getLast hne, Option.any_some, hwords _ (List.getLast_mem hne)]
    rfl
  cases rest with
  | nil =>
    rw [List.append_nil] at hshown ⊢
    obtain ⟨spaced, hread⟩ :=
      readBlockLines_lastLine sofar line hshown hne hwords hcolumn hbody
    exact ⟨words, '\n', [], spaced, line + 1, Nat.lt_succ_self _, ⟨hword, .inl ⟨rfl, rfl, rfl⟩⟩,
      hread⟩
  | cons b rest =>
    have hb : isLineEnd b = true := hrest
    have hsplit : rest.takeWhile isLineEnd ++ rest.dropWhile isLineEnd = rest :=
      List.takeWhile_append_dropWhile
    obtain ⟨spaced, line', hlt, hline⟩ :=
      readBlockLines_line sofar line hshown hne hwords hb hcolumn hbody
    rw [lineTail_append words (List.cons_ne_nil b rest), hline]
    cases hafter : rest.dropWhile isLineEnd with
    | nil =>
      rw [hafter, List.append_nil] at hsplit
      have hmore : ∀ c ∈ rest, isLineEnd c = true := List.dropWhile_eq_nil_iff.1 hafter
      refine ⟨words, b, rest, spaced, line', hlt, ⟨hword, .inr ⟨rfl, hb, hmore⟩⟩, ?_⟩
      rw [hsplit]
      exact readBlockLines_stop (.inr (Nat.ne_of_lt hcolumn))
    | cons c after =>
      rw [hafter] at hsplit
      obtain ⟨hshownAfter, hc, hlineTail⟩ := goesOn_of_dropWhile (shown_append.1 hshown).2
        ((List.dropWhile_cons_of_pos hb).trans hafter)
      have hshorter : (c :: after).length < size := by
        rw [← hsize, ← hsplit]
        simp only [List.length_append, List.length_cons]
        omega
      obtain ⟨core, last, more, spaced', line'', hlt', hends, hread⟩ :=
        ih _ hshorter (c :: after) ⟨sofar.text ++ (sofar.lastBreak ++ sofar.emptyLines) ++ words,
          [b], rest.takeWhile isLineEnd, spaced⟩ line' hshownAfter (congrArg (!·) hc) rfl
      refine ⟨words ++ b :: rest.takeWhile isLineEnd ++ core, last, more, spaced', line'',
        Nat.lt_trans hlt hlt', ?_, ?_⟩
      · have happend := hends.append (words ++ b :: rest.takeWhile isLineEnd)
        rwa [List.append_assoc, List.cons_append, hsplit] at happend
      · rw [hlineTail]
        refine hread.trans ?_
        simp only [List.append_assoc, List.cons_append, List.nil_append]

/-! ## Headers -/

/-- The mark in a header for what becomes of the breaks at the end. -/
def Chomping.mark : Chomping → List Char
  | .clip => []
  | .strip => ['-']
  | .keep => ['+']

/-- The mark in a header for the indentation, if the first line cannot show it. -/
def indentMark (cs : List Char) : List Char :=
  if cs.head?.any fun c => c == ' ' || isLineEnd c then indentStep.repr.toList else []

/-- A header is read up to the end of its line. -/
theorem read?_blockHeader (cs : List Char) (chomping : Chomping) (rest : List Char) :
    BlockHeader.read? (indentMark cs ++ chomping.mark ++ '\n' :: rest) =
      some (⟨chomping, if (indentMark cs).isEmpty then none else some indentStep⟩,
        (indentMark cs ++ chomping.mark).length) := by
  unfold indentMark
  split <;> cases chomping <;> rfl

/-- A text that ends in several line breaks, or is nothing else, keeps all of them. -/
theorem blockHeader_keep {cs others : List Char} {d : Char} (hreverse : cs.reverse = d :: others)
    (hd : isLineEnd d = true) (hothers : others.head?.all isLineEnd = true) :
    blockHeader cs = indentMark cs ++ Chomping.keep.mark := by
  cases others with
  | nil =>
    simp only [blockHeader, indentMark, hreverse, hd, Chomping.mark]
    rfl
  | cons e others =>
    have he : isLineEnd e = true := hothers
    simp only [blockHeader, indentMark, hreverse, hd, he, Chomping.mark]
    rfl

/-- The breaks behind the last word of a text are those that the header leaves of them. -/
theorem blockHeader_of_endsIn {cs core more : List Char} {last : Char}
    (h : EndsIn cs core last more) :
    ∃ chomping : Chomping, blockHeader cs = indentMark cs ++ chomping.mark ∧
      ∀ spaced, (BlockSoFar.mk core [last] more spaced).finish chomping = cs := by
  obtain ⟨c, before, hcore, hc⟩ : ∃ c before, core.reverse = c :: before ∧ isLineEnd c = false := by
    have hword := h.word
    rw [← List.head?_reverse] at hword
    cases hcore : core.reverse with
    | nil =>
      rw [hcore] at hword
      cases hword
    | cons c before =>
      rw [hcore, List.head?_cons, Option.any_some, Bool.not_eq_true'] at hword
      exact ⟨c, before, rfl, hword⟩
  obtain ⟨rfl, rfl, rfl⟩ | ⟨hcs, hlast, hmore⟩ := h.breaks
  · refine ⟨.strip, ?_, fun _ => by simp [BlockSoFar.finish]⟩
    cases before <;> simp only [blockHeader, indentMark, hcore, hc, Chomping.mark] <;> rfl
  · cases hafter : more.reverse with
    | nil =>
      obtain rfl := List.reverse_eq_nil_iff.1 hafter
      have hreverse : cs.reverse = last :: c :: before := by
        rw [hcs, List.reverse_append, hcore]
        rfl
      refine ⟨.clip, ?_, fun _ => by simp [BlockSoFar.finish, hcs]⟩
      simp only [blockHeader, indentMark, hreverse, hlast, hc, Chomping.mark]
      rfl
    | cons d others =>
      have hmem : ∀ c ∈ d :: others, isLineEnd c = true := fun c hc =>
        hmore c (List.mem_reverse.1 (hafter ▸ hc))
      have hreverse : cs.reverse = d :: (others ++ last :: core.reverse) := by
        rw [hcs, List.reverse_append, List.reverse_cons, hafter, List.append_assoc]
        rfl
      refine ⟨.keep, blockHeader_keep hreverse (hmem d List.mem_cons_self) ?_,
        fun _ => by simp [BlockSoFar.finish, hcs]⟩
      cases others with
      | nil => exact hlast
      | cons e others => exact hmem e (List.mem_cons_of_mem _ List.mem_cons_self)

/-- A text of line breaks only keeps all of them. -/
theorem blockHeader_of_isLineEnd {cs : List Char} (hne : cs ≠ [])
    (h : ∀ c ∈ cs, isLineEnd c = true) :
    blockHeader cs = indentMark cs ++ Chomping.keep.mark := by
  cases hreverse : cs.reverse with
  | nil => exact absurd (List.reverse_eq_nil_iff.1 hreverse) hne
  | cons d others =>
    have hmem : ∀ c ∈ d :: others, isLineEnd c = true := fun c hc =>
      h c (List.mem_reverse.1 (hreverse ▸ hc))
    refine blockHeader_keep hreverse (hmem d List.mem_cons_self) ?_
    cases others with
    | nil => rfl
    | cons e others => exact hmem e (List.mem_cons_of_mem _ List.mem_cons_self)

/-! ## Block scalars -/

theorem Cursor.skip_length (place : Place) (cs rest : List Char) :
    (Cursor.mk place (cs ++ rest)).skip cs.length = ⟨place.past cs, rest⟩ := by
  unfold Cursor.skip
  rw [List.take_left, List.drop_left]

/-- The indentation that a header gives a text in a mapping at a column. -/
def givenIndent (column : Nat) (cs : List Char) : Option Nat :=
  if (indentMark cs).isEmpty then none else some (column + indentStep)

/-- The empty lines at the start of a text; with or without the header they tell the indentation. -/
theorem readEmptyLines_opening {column below : Nat} {cs tail body : List Char} (line : Nat)
    (hshown : Shown cs) (hne : cs ≠ []) (hbelow : below ≤ column)
    (hbody : body.head?.all opensLine = true)
    (htail : cs.dropWhile isLineEnd = [] → tail = spaces below ++ body) :
    ∃ lines line', line ≤ line' ∧
      readEmptyLines (givenIndent column cs) [] 0 ⟨line, 0, 0⟩
        (indentLines (column + indentStep) true cs ++ tail) = some lines ∧
      (givenIndent column cs).getD (max (max lines.deepest (column + 1)) 1) =
        column + indentStep ∧
      lines.breaks = cs.takeWhile isLineEnd ∧
      lines.stop = if (cs.dropWhile isLineEnd).isEmpty then ⟨⟨line', below, below⟩, body⟩
        else ⟨⟨line', column + indentStep, column + indentStep⟩,
          indentLines (column + indentStep) false (cs.dropWhile isLineEnd) ++ tail⟩ := by
  cases hhead : cs.head?.any fun c => c == ' ' || isLineEnd c with
  | true =>
    have hgiven : givenIndent column cs = some (column + indentStep) := by
      simp only [givenIndent, indentMark, hhead, if_true]
      rfl
    have hcolumn : below < column + indentStep :=
      Nat.lt_of_le_of_lt hbelow (Nat.lt_add_of_pos_right (by decide))
    obtain ⟨deepest, line', hle, hread⟩ := readEmptyLines_text [] 0 line hshown hcolumn hbody htail
    rw [hgiven]
    exact ⟨_, line', hle, hread, rfl, rfl, rfl⟩
  | false =>
    have hgiven : givenIndent column cs = none := by
      simp only [givenIndent, indentMark, hhead]
      rfl
    -- No indentation is given, and the line of the first word shows it.
    cases cs with
    | nil => exact absurd rfl hne
    | cons c rest =>
      rw [List.head?_cons, Option.any_some, Bool.or_eq_false_iff] at hhead
      obtain ⟨hspace, hline⟩ := hhead
      have hneg : ¬isLineEnd c = true := Bool.eq_false_iff.1 hline
      have hread := readEmptyLines_word [] 0 line (column + indentStep) rest tail
        (shown_cons.1 hshown).1 hline (Option.all_none ..)
        fun h => absurd h (beq_eq_false_iff_ne.1 hspace)
      rw [hgiven, List.takeWhile_cons_of_neg hneg, List.dropWhile_cons_of_neg hneg]
      refine ⟨_, line, Nat.le_refl _, hread, ?_, rfl, rfl⟩
      simp [indentStep]

/-- What a literal block is once its header has been read. -/
theorem readBlock_header {column : Nat} {cs : List Char} {chomping : Chomping} (place : Place)
    (rest : List Char) (h : blockHeader cs = indentMark cs ++ chomping.mark) :
    readBlock false (column + 1) ⟨place, blockHeader cs ++ '\n' :: rest⟩ =
      (readEmptyLines (givenIndent column cs) [] 0 ⟨place.line + 1, 0, 0⟩ rest).bind fun lines =>
        (readBlockLines false
          ((givenIndent column cs).getD (max (max lines.deepest (column + 1)) 1))
          { emptyLines := lines.breaks } lines.stop).map fun (sofar, stop) =>
            (sofar.finish chomping, stop) := by
  have hline (place : Place) : (Cursor.mk place ('\n' :: rest)).finishLine? =
      some ⟨place.nextLine, rest⟩ := rfl
  have hgiven : (if (indentMark cs).isEmpty then none else some indentStep).map
      (column + 1 - 1 + ·) = givenIndent column cs := by
    unfold givenIndent
    split <;> rfl
  have hplace (mark : List Char) : (place.past mark).nextLine = ⟨place.line + 1, 0, 0⟩ := by
    rw [Place.nextLine, Place.line_past]
  unfold readBlock
  rw [h, read?_blockHeader]
  simp only [Option.bind_eq_bind, Option.bind_some, Cursor.skip_length, hline, hgiven, hplace]
  simp only [Option.map_eq_bind]
  rfl

/-- A literal block gives back its text, up to the line below it. -/
theorem readBlock_text {column below : Nat} {cs body : List Char} (place : Place)
    (hfeed : cs.contains '\n' = true) (hfits : fitsBlock cs = true) (hbelow : below ≤ column)
    (hbody : body.head?.all opensLine = true) :
    ∃ line, place.line < line ∧
      readBlock false (column + 1) ⟨place, blockHeader cs ++
          '\n' :: (indentLines (column + indentStep) true cs ++
            (lineTail cs ++ (spaces below ++ body)))⟩ =
        some (cs, ⟨⟨line, below, below⟩, body⟩) := by
  simp only [fitsBlock, Bool.and_eq_true] at hfits
  have hshown : Shown cs := shown_iff_all.2 hfits.1.1
  have hne : cs ≠ [] := by
    rintro rfl
    cases hfeed
  have hcolumn : below < column + indentStep :=
    Nat.lt_of_le_of_lt hbelow (Nat.lt_add_of_pos_right (by decide))
  have hsplit : cs.takeWhile isLineEnd ++ cs.dropWhile isLineEnd = cs :=
    List.takeWhile_append_dropWhile
  obtain ⟨lines, line', hle, hlines, hindent, htake, hstop⟩ :=
    readEmptyLines_opening (place.line + 1) hshown hne hbelow hbody
      (lineTail_append_of_dropWhile hne)
  cases hdrop : cs.dropWhile isLineEnd with
  | nil =>
    rw [hdrop, List.append_nil] at hsplit
    rw [hsplit] at htake
    rw [hdrop] at hstop
    have hbreaks : ∀ c ∈ cs, isLineEnd c = true := List.dropWhile_eq_nil_iff.1 hdrop
    refine ⟨line', hle, ?_⟩
    rw [readBlock_header _ _ (blockHeader_of_isLineEnd hne hbreaks), hlines, Option.bind_some,
      hindent, hstop, readBlockLines_stop (.inr (Nat.ne_of_lt hcolumn)), htake]
    rfl
  | cons c rest =>
    rw [hdrop] at hstop
    obtain ⟨hshownRest, hc, hlineTail⟩ := goesOn_of_dropWhile hshown hdrop
    obtain ⟨core, last, more, spaced, line, hlt, hends, hread⟩ := readBlockLines_text (c :: rest)
      { emptyLines := lines.breaks } line' hshownRest (congrArg (!·) hc) hcolumn hbody
    have happend := hends.append (cs.takeWhile isLineEnd)
    rw [← hdrop, hsplit] at happend
    obtain ⟨chomping, hheader, hfinish⟩ := blockHeader_of_endsIn happend
    refine ⟨line, Nat.lt_trans hle hlt, ?_⟩
    rw [readBlock_header _ _ hheader, hlines, Option.bind_some, hindent, hstop, hlineTail]
    refine (congrArg (Option.map _) hread).trans ?_
    rw [Option.map_some, htake]
    exact congrArg (fun text => some (text, _)) (hfinish spaced)

end SchemaOptions.Yaml
