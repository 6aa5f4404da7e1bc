import Mathlib.Algebra.Group.Nat.Defs
import SchemaOptions.Proofs.Yaml.Scalar.Plain

/-!
# Quoted scalars, there and back

What stands between quotes comes back as it was (`readSingleQuoted_text`, `readDoubleQuoted_text`).
Single quotes are chosen only for a text in which no gap changes anything: there is no space at a
line break, and no line feed. Between double quotes every text is written on one line.
-/

namespace SchemaOptions.Yaml

/-! ## Single quotes -/

/-- Whether a gap is what has been read behind a word once a character of the text was read. -/
inductive Gap.Behind : Gap → Char → Prop where
  | word {c : Char} (hspace : c ≠ ' ') (hline : isLineEnd c = false) : Behind .empty c
  | space (cs : List Char) : Behind (.spaces cs) ' '
  | line {c : Char} (first : Char) (more : List Char) (hc : isLineEnd c = true)
    (hfirst : first ≠ '\n') : Behind (.breaks (some first) more) c

/-- A break that is no line feed and does not follow a space counts for itself. -/
theorem Gap.Behind.addBreak {gap : Gap} {before c : Char} (h : gap.Behind before)
    (hc : isLineEnd c = true) (hfeed : c ≠ '\n') (hbefore : before ≠ ' ') :
    (gap.addBreak c).Behind c ∧ (gap.addBreak c).text = gap.text ++ [c] := by
  cases h with
  | word =>
    refine ⟨.line c [] hc hfeed, ?_⟩
    simp only [Gap.addBreak, Gap.text, hfeed, if_false, List.nil_append]
  | space => exact absurd rfl hbefore
  | line first more _ hfirst =>
    refine ⟨.line first (more ++ [c]) hc hfirst, ?_⟩
    simp only [Gap.addBreak, Gap.text, hfirst, if_false, List.cons_append]

/-- A space that does not follow a break counts for itself. -/
theorem Gap.Behind.addSpace {gap : Gap} {before : Char} (h : gap.Behind before)
    (hbefore : isLineEnd before = false) : gap.addSpace ' ' = .spaces (gap.text ++ [' ']) := by
  cases h with
  | word => rfl
  | space => rfl
  | line _ _ hc _ =>
    rw [hc] at hbefore
    cases hbefore

theorem Gap.isBroken_addBreak (gap : Gap) (c : Char) : (gap.addBreak c).isBroken = true := by
  cases gap <;> rfl

theorem readSingleQuoted_space {acc rest : List Char} {gap : Gap} {place : Place} :
    readSingleQuoted acc gap place (' ' :: rest) =
      readSingleQuoted acc (gap.addSpace ' ') (place.next ' ') rest := by
  rw [readSingleQuoted]
  · rfl
  · intro _ h
    cases h
  · intro h
    cases h

theorem readSingleQuoted_break {acc rest : List Char} {gap : Gap} {place : Place} {c : Char}
    (hc : isBreak c = true) :
    readSingleQuoted acc gap place (c :: rest) =
      readSingleQuoted acc (gap.addBreak c) place.nextLine rest := by
  rw [readSingleQuoted, if_neg (Bool.eq_false_iff.1 (isSpace_of_isBreak hc)), if_pos hc]
  · rintro _ rfl
    cases hc
  · rintro rfl
    cases hc

theorem readSingleQuoted_char {acc rest : List Char} {gap : Gap} {place : Place} {c : Char}
    (hquote : c ≠ '\x27') (hspace : isSpace c = false) (hbreak : isBreak c = false)
    (hcolumn : 0 < place.column) :
    readSingleQuoted acc gap place (c :: rest) =
      readSingleQuoted (acc ++ gap.text ++ [c]) .empty (place.next c) rest := by
  have hmark : (place.column == 0 && opensWithDocumentMark (c :: rest)) = false := by
    rw [beq_eq_false_iff_ne.2 (Nat.ne_of_gt hcolumn), Bool.false_and]
  rw [readSingleQuoted, hspace, hbreak, hmark]
  · rfl
  · exact fun _ h => absurd h hquote
  · exact hquote

/-- The indentation of a line counts for nothing between single quotes. -/
theorem readSingleQuoted_spaces {acc rest more : List Char} {first : Option Char} (count : Nat)
    (place : Place) :
    readSingleQuoted acc (.breaks first more) place (spaces count ++ rest) =
      readSingleQuoted acc (.breaks first more) (place.through (spaces count)) rest := by
  induction count generalizing place with
  | zero => rfl
  | succ count ih =>
    show readSingleQuoted acc _ place (' ' :: (spaces count ++ rest)) = _
    rw [readSingleQuoted_space]
    exact ih (place.next ' ')

/-- What stands before a character between single quotes: the indentation if a line starts here. -/
def quotedIndent (indent : Nat) (afterBreak : Bool) : List Char :=
  if afterBreak then spaces indent else []

theorem readSingleQuoted_indent {acc rest : List Char} {indent : Nat} (gap : Gap) (place : Place) :
    readSingleQuoted acc gap place (quotedIndent indent gap.isBroken ++ rest) =
      readSingleQuoted acc gap (place.through (quotedIndent indent gap.isBroken)) rest := by
  cases gap with
  | breaks first more => exact readSingleQuoted_spaces indent place
  | empty => rfl
  | spaces => rfl

theorem column_quotedIndent {indent : Nat} {afterBreak : Bool} {place : Place}
    (hindent : 0 < indent) (hcolumn : afterBreak = false → 0 < place.column) :
    0 < (place.through (quotedIndent indent afterBreak)).column := by
  cases afterBreak with
  | false => exact hcolumn rfl
  | true =>
    show 0 < (place.through (spaces indent)).column
    rw [Place.through_eq_past (fun c h => by rw [List.eq_of_mem_replicate h]; rfl),
      Place.past_spaces]
    exact Nat.lt_of_lt_of_le hindent (Nat.le_add_left ..)

theorem readSingleQuoted_close {acc tail : List Char} {gap : Gap} {place : Place}
    (htail : tail.head? ≠ some '\x27') :
    readSingleQuoted acc gap place ('\x27' :: tail) =
      some (acc ++ gap.text, ⟨place.next '\x27', tail⟩) := by
  rw [readSingleQuoted]
  rintro rest rfl
  exact htail rfl

/-- A character that is no space comes back, quoted or not, and so does the gap before it. -/
theorem readSingleQuoted_word {acc rest : List Char} {gap : Gap} {place : Place} {c : Char}
    (hc : isShown c = true) (hspace : c ≠ ' ') (hbreak : isBreak c = false)
    (hcolumn : 0 < place.column) :
    readSingleQuoted acc gap place ((if c == '\x27' then [c, c] else [c]) ++ rest) =
      readSingleQuoted (acc ++ gap.text ++ [c]) .empty
        (place.through (if c == '\x27' then [c, c] else [c])) rest := by
  by_cases hquote : c = '\x27'
  · subst hquote
    exact readSingleQuoted.eq_2 acc gap place rest
  · have hword : isSpace c = false := by
      rw [isSpace_of_isShown hc]
      exact beq_eq_false_iff_ne.2 hspace
    rw [if_neg (fun h => hquote (eq_of_beq h)), List.singleton_append,
      readSingleQuoted_char hquote hword hbreak hcolumn, Place.through_of_not_isBreak hbreak]
    rfl

theorem column_doubledQuote {c : Char} {place : Place} (hbreak : isBreak c = false) :
    0 < (place.through (if c == '\x27' then [c, c] else [c])).column := by
  cases c == '\x27' with
  | false =>
    rw [if_neg Bool.false_ne_true, Place.through_of_not_isBreak hbreak]
    exact Nat.succ_pos _
  | true =>
    rw [if_pos rfl, Place.through_of_not_isBreak hbreak, Place.through_of_not_isBreak hbreak]
    exact Nat.succ_pos _

/-- One character of the text is read, together with the indentation before it. -/
theorem readSingleQuoted_step {indent : Nat} {gap : Gap} {before c : Char} (acc : List Char)
    (place : Place) (hbehind : gap.Behind before) (hc : isShown c = true) (hfeed : c ≠ '\n')
    (hindent : 0 < indent) (hspaceBreak : (before == ' ' && isLineEnd c) = false)
    (hbreakSpace : (isLineEnd before && c == ' ') = false)
    (hcolumn : gap.isBroken = false → 0 < place.column) :
    ∃ acc' gap' place', gap'.Behind c ∧ acc' ++ gap'.text = acc ++ gap.text ++ [c] ∧
      (gap'.isBroken = false → 0 < place'.column) ∧
      ∀ rest tail,
        readSingleQuoted acc gap place (singleQuotedBody indent gap.isBroken (c :: rest) ++ tail) =
          readSingleQuoted acc' gap' place' (singleQuotedBody indent gap'.isBroken rest ++ tail) ∧
        place.through (singleQuotedBody indent gap.isBroken (c :: rest) ++ tail) =
          place'.through (singleQuotedBody indent gap'.isBroken rest ++ tail) := by
  cases hline : isLineEnd c with
  | true =>
    have hbreak : isBreak c = true := (isLineEnd_of_isShown hc).symm.trans hline
    have hbefore : before ≠ ' ' := by
      rintro rfl
      rw [hline] at hspaceBreak
      cases hspaceBreak
    obtain ⟨hafter, htext⟩ := hbehind.addBreak hline hfeed hbefore
    refine ⟨acc, gap.addBreak c, place.nextLine, hafter, ?_, ?_, fun rest tail => ?_⟩
    · rw [htext, List.append_assoc]
    · intro h
      rw [Gap.isBroken_addBreak] at h
      cases h
    · rw [Gap.isBroken_addBreak, singleQuotedBody, if_pos hline, List.cons_append,
        readSingleQuoted_break hbreak, Place.through_of_isBreak hbreak]
      exact ⟨rfl, rfl⟩
  | false =>
    have hbreak : isBreak c = false := (isLineEnd_of_isShown hc).symm.trans hline
    have hplace := column_quotedIndent hindent hcolumn
    have hbody (rest tail : List Char) :
        singleQuotedBody indent gap.isBroken (c :: rest) ++ tail =
          quotedIndent indent gap.isBroken ++ ((if c == '\x27' then [c, c] else [c]) ++
            (singleQuotedBody indent false rest ++ tail)) := by
      rw [singleQuotedBody, if_neg (Bool.eq_false_iff.1 hline)]
      simp only [quotedIndent, List.append_assoc]
    simp only [hbody, readSingleQuoted_indent, Place.through_append]
    generalize place.through (quotedIndent indent gap.isBroken) = start at hplace
    by_cases hspace : c = ' '
    · subst hspace
      have hbefore : isLineEnd before = false := by
        rwa [beq_self_eq_true, Bool.and_true] at hbreakSpace
      refine ⟨acc, .spaces (gap.text ++ [' ']), start.next ' ', .space _,
        (List.append_assoc ..).symm, fun _ => Nat.succ_pos _, fun rest tail => ?_⟩
      refine ⟨?_, rfl⟩
      show readSingleQuoted acc gap start (' ' :: (singleQuotedBody indent false rest ++ tail)) = _
      rw [readSingleQuoted_space, hbehind.addSpace hbefore]
      rfl
    · refine ⟨acc ++ gap.text ++ [c], .empty, start.through (if c == '\x27' then [c, c] else [c]),
        .word hspace hline, List.append_nil _, fun _ => column_doubledQuote hbreak,
        fun rest tail => ?_⟩
      exact ⟨readSingleQuoted_word hc hspace hbreak hplace, rfl⟩

/-- What single quotes hold comes back. -/
theorem readSingleQuoted_text {indent : Nat} {cs : List Char} (acc : List Char) (gap : Gap)
    (before : Char) (place : Place) (tail : List Char) (hbehind : gap.Behind before)
    (hshown : ∀ c ∈ cs, isShown c = true ∧ c ≠ '\n') (hindent : 0 < indent)
    (hspaceBreak : hasSpaceBreak (before :: cs) = false)
    (hbreakSpace : hasBreakSpace (before :: cs) = false)
    (hcolumn : gap.isBroken = false → 0 < place.column) (htail : tail.head? ≠ some '\x27') :
    readSingleQuoted acc gap place
        (singleQuotedBody indent gap.isBroken cs ++ '\x27' :: tail) =
      some (acc ++ gap.text ++ cs,
        ⟨place.through (singleQuotedBody indent gap.isBroken cs ++ ['\x27']), tail⟩) := by
  induction cs generalizing acc gap before place with
  | nil =>
    show readSingleQuoted acc gap place (quotedIndent indent gap.isBroken ++ '\x27' :: tail) =
      some (acc ++ gap.text ++ [],
        ⟨place.through (quotedIndent indent gap.isBroken ++ ['\x27']), _⟩)
    rw [readSingleQuoted_indent, readSingleQuoted_close htail, List.append_nil,
      Place.through_append]
    rfl
  | cons c rest ih =>
    obtain ⟨⟨hc, hfeed⟩, hrest⟩ := List.forall_mem_cons.1 hshown
    simp only [hasSpaceBreak, hasBreakSpace, anyAdjacent, Bool.or_eq_false_iff]
      at hspaceBreak hbreakSpace
    obtain ⟨acc', gap', place', hbehind', htext, hcolumn', hstep⟩ := readSingleQuoted_step acc place
      hbehind hc hfeed hindent hspaceBreak.1 hbreakSpace.1 hcolumn
    rw [(hstep rest _).1, (hstep rest _).2,
      ih acc' gap' c place' hbehind' hrest hspaceBreak.2 hbreakSpace.2 hcolumn', htext,
      List.append_assoc, List.singleton_append]

/-- A text that fits single quotes comes back from the start of them. -/
theorem readSingleQuoted_of_fits {indent : Nat} {cs : List Char} (place : Place) (tail : List Char)
    (hfeed : cs.contains '\n' = false) (hfits : fitsSingleQuotes cs = true) (hindent : 0 < indent)
    (hcolumn : 0 < place.column) (htail : tail.head? ≠ some '\x27') :
    readSingleQuoted [] .empty place (singleQuotedBody indent false cs ++ '\x27' :: tail) =
      some (cs, ⟨place.through (singleQuotedBody indent false cs ++ ['\x27']), tail⟩) := by
  simp only [fitsSingleQuotes, Bool.and_eq_true, Bool.not_eq_true', List.all_eq_true] at hfits
  obtain ⟨⟨hshown, hspaceBreak⟩, hbreakSpace⟩ := hfits
  have hword : ∀ c ∈ cs, isShown c = true ∧ c ≠ '\n' := by
    intro c hmem
    refine ⟨hshown c hmem, ?_⟩
    rintro rfl
    rw [List.contains_eq_mem, decide_eq_false_iff_not] at hfeed
    exact hfeed hmem
  -- The quote itself is no space and no break, so nothing changes at the first character.
  have hquote : Gap.Behind .empty '\x27' := .word (by decide) rfl
  refine readSingleQuoted_text [] .empty '\x27' place tail hquote hword hindent ?_ ?_
    (fun _ => hcolumn) htail
  · cases cs with
    | nil => rfl
    | cons c rest => exact hspaceBreak
  · cases cs with
    | nil => rfl
    | cons c rest => exact hbreakSpace

/-! ## Double quotes -/

/-- An escape with a letter stands for its character. -/
theorem ofChar?_of_escapeLetter? {c letter : Char} (h : escapeLetter? c = some letter) :
    Escape.ofChar? letter = some (.character c) ∧ isBreak letter = false := by
  have hself : c = Char.ofNat c.toNat := (Char.ofNat_toNat c).symm
  unfold escapeLetter? at h
  split at h <;> rename_i hcode <;> cases h <;> rw [hcode] at hself <;> subst hself <;>
    exact ⟨rfl, rfl⟩

/-- One more digit is read behind the others. -/
theorem readHex?_succ (digits value : Nat) (cs : List Char) :
    readHex? (digits + 1) value cs =
      (readHex? digits value cs).bind fun (value, rest) => readHex? 1 value rest := by
  induction digits generalizing value cs with
  | zero => rfl
  | succ digits ih =>
    cases cs with
    | nil => rfl
    | cons c rest =>
      rw [readHex?, readHex?, Option.bind_assoc]
      refine congrArg _ (funext fun digit => ?_)
      exact ih (16 * value + digit) rest

/-- A number that was written in hexadecimal digits is read back, up to what does not fit them. -/
theorem readHex?_upperHex (digits value n : Nat) (rest : List Char) :
    readHex? digits value (upperHex digits n ++ rest) =
      some (16 ^ digits * value + n % 16 ^ digits, rest) := by
  have hdigit : ∀ digit < 16, Text.digitOf? 16 (upperHexDigit digit) = some digit := by decide
  induction digits generalizing n rest with
  | zero => simp only [readHex?, upperHex, List.nil_append, Nat.pow_zero, Nat.one_mul, Nat.mod_one,
      Nat.add_zero]
  | succ digits ih =>
    have hlast := hdigit (n % 16) (Nat.mod_lt n (by decide))
    rw [readHex?_succ, upperHex, List.append_assoc, ih, Option.bind_some]
    simp only [List.singleton_append, readHex?, hlast, Option.bind_some, Option.some.injEq,
      Prod.mk.injEq, and_true]
    rw [Nat.pow_succ, Nat.mul_comm (16 ^ digits) 16, Nat.mod_mul, Nat.mul_add, Nat.mul_assoc]
    omega

theorem length_upperHex (digits n : Nat) : (upperHex digits n).length = digits := by
  induction digits generalizing n with
  | zero => rfl
  | succ digits ih => rw [upperHex, List.length_append, ih, List.length_singleton]

theorem charOfCode?_toNat (c : Char) : charOfCode? c.toNat = some c := by
  have hvalid : c.toNat.isValidChar := c.valid
  rw [charOfCode?, if_pos hvalid, Char.ofNat_toNat]

section

variable {acc rest : List Char} {gap : Gap} {place : Place} {c letter : Char}

theorem readDoubleQuoted_space :
    readDoubleQuoted acc gap place (' ' :: rest) =
      readDoubleQuoted acc (gap.addSpace ' ') (place.next ' ') rest := by
  rw [readDoubleQuoted]
  · rfl
  · intro h
    cases h
  · intro h
    cases h
  · intro _ _ h
    cases h

theorem readDoubleQuoted_char (hquote : c ≠ '\x22') (hslash : c ≠ '\\')
    (hspace : isSpace c = false) (hbreak : isBreak c = false) (hcolumn : 0 < place.column) :
    readDoubleQuoted acc gap place (c :: rest) =
      readDoubleQuoted (acc ++ gap.text ++ [c]) .empty (place.next c) rest := by
  have hmark : (place.column == 0 && opensWithDocumentMark (c :: rest)) = false := by
    rw [beq_eq_false_iff_ne.2 (Nat.ne_of_gt hcolumn), Bool.false_and]
  rw [readDoubleQuoted, hspace, hbreak, hmark]
  · rfl
  · exact hquote
  · exact fun h _ => hslash h
  · exact fun _ _ h _ => hslash h

theorem readDoubleQuoted_letter (hletter : Escape.ofChar? letter = some (.character c))
    (hbreak : isBreak letter = false) :
    readDoubleQuoted acc gap place ('\\' :: letter :: rest) =
      readDoubleQuoted (acc ++ gap.text ++ [c]) .empty (place.past ['\\', letter]) rest := by
  rw [readDoubleQuoted, if_neg (Bool.eq_false_iff.1 hbreak), hletter]

theorem readDoubleQuoted_code {digits : Nat} (hletter : Escape.ofChar? letter = some (.code digits))
    (hbreak : isBreak letter = false) (hcode : c.toNat < 16 ^ digits) :
    readDoubleQuoted acc gap place ('\\' :: letter :: (upperHex digits c.toNat ++ rest)) =
      readDoubleQuoted (acc ++ gap.text ++ [c]) .empty
        (place.past ('\\' :: letter :: upperHex digits c.toNat)) rest := by
  have hhex : readHex? digits 0 (upperHex digits c.toNat ++ rest) = some (c.toNat, rest) := by
    rw [readHex?_upperHex, Nat.mul_zero, Nat.zero_add, Nat.mod_eq_of_lt hcode]
  have htake : (upperHex digits c.toNat ++ rest).take digits = upperHex digits c.toNat := by
    rw [List.take_append_of_le_length (Nat.le_of_eq (length_upperHex _ _).symm),
      List.take_of_length_le (Nat.le_of_eq (length_upperHex _ _))]
  rw [readDoubleQuoted, if_neg (Bool.eq_false_iff.1 hbreak), hletter]
  simp only
  split
  · rename_i hnone
    rw [hhex] at hnone
    cases hnone
  · rename_i hsome
    rw [hhex] at hsome
    cases hsome
    rw [charOfCode?_toNat, htake]

/-- A character between double quotes comes back, and so does the gap before it. -/
theorem readDoubleQuoted_word (hspace : c ≠ ' ') (hcolumn : 0 < place.column) :
    readDoubleQuoted acc gap place (doubleQuotedChar c ++ rest) =
      readDoubleQuoted (acc ++ gap.text ++ [c]) .empty (place.past (doubleQuotedChar c)) rest := by
  unfold doubleQuotedChar
  split
  · rename_i hplain
    simp only [Bool.and_eq_true, Bool.not_eq_true', bne_iff_ne, ne_eq] at hplain
    obtain ⟨⟨⟨hc, hline⟩, hquote⟩, hslash⟩ := hplain
    have hword : isSpace c = false := by
      rw [isSpace_of_isShown hc]
      exact beq_eq_false_iff_ne.2 hspace
    have hbreak : isBreak c = false := (isLineEnd_of_isShown hc).symm.trans hline
    exact readDoubleQuoted_char hquote hslash hword hbreak hcolumn
  · cases hescape : escapeLetter? c with
    | some letter =>
      obtain ⟨hletter, hbreak⟩ := ofChar?_of_escapeLetter? hescape
      exact readDoubleQuoted_letter hletter hbreak
    | none =>
      simp only
      have hvalid : c.toNat < 16 ^ 8 := c.val.toNat_lt
      split
      · exact readDoubleQuoted_code rfl rfl (by omega)
      · split
        · exact readDoubleQuoted_code rfl rfl (by omega)
        · exact readDoubleQuoted_code rfl rfl hvalid

end

/-- What double quotes hold comes back. -/
theorem readDoubleQuoted_text {cs : List Char} (acc : List Char) (gap : Gap) (place : Place)
    (tail : List Char) (hgap : gap.isBroken = false) (hcolumn : 0 < place.column) :
    readDoubleQuoted acc gap place (cs.flatMap doubleQuotedChar ++ '\x22' :: tail) =
      some (acc ++ gap.text ++ cs,
        ⟨place.past (cs.flatMap doubleQuotedChar ++ ['\x22']), tail⟩) := by
  induction cs generalizing acc gap place with
  | nil =>
    rw [List.append_nil]
    exact readDoubleQuoted.eq_2 ..
  | cons c rest ih =>
    rw [List.flatMap_cons, List.append_assoc]
    by_cases hspace : c = ' '
    · subst hspace
      show readDoubleQuoted acc gap place (' ' :: (rest.flatMap doubleQuotedChar ++ _)) = _
      have hafter : gap.addSpace ' ' = .spaces (gap.text ++ [' ']) := by
        cases gap with
        | empty => rfl
        | spaces => rfl
        | breaks => cases hgap
      rw [readDoubleQuoted_space, hafter, ih _ (.spaces _) _ rfl (Nat.succ_pos _)]
      simp only [Gap.text, List.append_assoc, List.singleton_append]
      rfl
    · have hnext : 0 < (place.past (doubleQuotedChar c)).column := by
        rw [Place.column_past]
        exact Nat.lt_of_lt_of_le hcolumn (Nat.le_add_right ..)
      rw [readDoubleQuoted_word hspace hcolumn, ih _ .empty _ rfl hnext]
      simp only [Gap.text, List.append_nil, List.append_assoc, List.singleton_append,
        Place.past_append]

end SchemaOptions.Yaml
