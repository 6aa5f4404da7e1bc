import SchemaOptions.Proofs.Yaml.Characters
import SchemaOptions.Yaml.Lexer

/-!
# Plain scalars, there and back

A text that fits a plain scalar is read to its end, and not beyond the colon behind a key
(`readPlain_text`, `readPlain_colon`) or the line break behind a value (`readPlain_line`).
-/

namespace SchemaOptions.Yaml

/-! ## Places -/

namespace Place

theorem line_past (place : Place) (cs : List Char) : (place.past cs).line = place.line := by
  induction cs generalizing place with
  | nil => rfl
  | cons c rest ih => exact ih (place.next c)

theorem past_cons (place : Place) (c : Char) (cs : List Char) :
    place.past (c :: cs) = (place.next c).past cs := rfl

/-- A space takes up one column and one byte. -/
theorem past_spaces (line column offset count : Nat) :
    (Place.mk line column offset).past (spaces count) =
      ⟨line, column + count, offset + count⟩ := by
  induction count generalizing column offset with
  | zero => rfl
  | succ count ih =>
    show (Place.mk line (column + 1) (offset + 1)).past (spaces count) = _
    rw [ih]
    simp only [mk.injEq, true_and]
    omega

/-- The place behind characters among which there may be line breaks. -/
def through (place : Place) (cs : List Char) : Place :=
  cs.foldl (fun place c => if isBreak c then place.nextLine else place.next c) place

theorem through_append (place : Place) (cs ds : List Char) :
    place.through (cs ++ ds) = (place.through cs).through ds :=
  List.foldl_append

theorem through_of_isBreak {c : Char} (h : isBreak c = true) (place : Place) (cs : List Char) :
    place.through (c :: cs) = place.nextLine.through cs := by
  rw [through, List.foldl_cons, if_pos h]
  rfl

theorem through_of_not_isBreak {c : Char} (h : isBreak c = false) (place : Place)
    (cs : List Char) : place.through (c :: cs) = (place.next c).through cs := by
  rw [through, List.foldl_cons, if_neg (Bool.eq_false_iff.1 h)]
  rfl

/-- Characters of one line are passed as such. -/
theorem through_eq_past {cs : List Char} (h : ∀ c ∈ cs, isBreak c = false) (place : Place) :
    place.through cs = place.past cs := by
  induction cs generalizing place with
  | nil => rfl
  | cons c rest ih =>
    obtain ⟨hc, hrest⟩ := List.forall_mem_cons.1 h
    rw [through_of_not_isBreak hc, past_cons, ih hrest]

theorem line_le_through (place : Place) (cs : List Char) :
    place.line ≤ (place.through cs).line := by
  induction cs generalizing place with
  | nil => exact Nat.le_refl _
  | cons c rest ih =>
    cases hc : isBreak c with
    | true =>
      rw [through_of_isBreak hc]
      exact Nat.le_trans (Nat.le_succ _) (ih place.nextLine)
    | false =>
      rw [through_of_not_isBreak hc]
      exact ih (place.next c)

end Place

/-! ## Lines -/

/-- Whether a character can be the first of a line behind its indentation: it opens a word and no
comment. -/
def opensLine (c : Char) : Bool :=
  !isSpace c && !isBreak c && c != '#' && c != byteOrderMark

/-! ## Plain scalars -/

/-- Whether a plain scalar goes on through a text to its end, behind a space or not. -/
def runsPlain (afterSpace : Bool) : List Char → Bool
  | [] => !afterSpace
  | c :: rest =>
    if c == ' ' then runsPlain true rest
    else !(afterSpace && c == '#') && !(c == ':' && endsAnyWord rest) && runsPlain false rest

/-- A text without marks and without a space at its end goes on behind its first character. -/
theorem runsPlain_of_not_holdsMark {a : Char} {cs : List Char} (hmark : holdsMark (a :: cs) = false)
    (htrailing : hasTrailingSpace (a :: cs) = false) : runsPlain (a == ' ') cs = true := by
  induction cs generalizing a with
  | nil =>
    have hspace : (a == ' ') = false := htrailing
    rw [runsPlain, hspace, Bool.not_false]
  | cons b rest ih =>
    simp only [holdsMark, Bool.or_eq_false_iff] at hmark
    obtain ⟨⟨hcolon, hcomment⟩, hrest⟩ := hmark
    have hruns := ih hrest htrailing
    rw [runsPlain]
    split
    · rename_i hspace
      rwa [hspace] at hruns
    · rename_i hspace
      rw [Bool.eq_false_iff.2 hspace] at hruns
      have hsign : (a == ' ' && b == '#') = false := by
        cases ha : a == ' ' with
        | false => rfl
        | true =>
          rw [eq_of_beq ha] at hcomment
          exact hcomment
      rw [hsign, hcolon, hruns]
      rfl

/-- A text that fits a plain scalar goes on to its end. -/
theorem runsPlain_of_fitsPlain {cs : List Char} (h : fitsPlain cs = true) :
    runsPlain false cs = true := by
  simp only [fitsPlain, Bool.and_eq_true, Bool.not_eq_true'] at h
  obtain ⟨⟨⟨⟨⟨⟨-, -⟩, hhead⟩, htrailing⟩, -⟩, hopens⟩, hmark⟩ := h
  cases cs with
  | nil => rfl
  | cons c rest =>
    have hspace : (c == ' ') = false := by
      refine beq_eq_false_iff_ne.2 ?_
      rintro rfl
      cases hhead
    have hruns := runsPlain_of_not_holdsMark hmark htrailing
    rw [hspace] at hruns
    simp only [opensWithMark, Bool.or_eq_false_iff] at hopens
    have hcolon : (c == ':' && endsAnyWord rest) = false := by
      cases hc : c == ':' with
      | false => rfl
      | true =>
        have hword := hopens.2
        rwa [hc, Bool.or_true, Bool.true_or, Bool.true_and] at hword
    rw [runsPlain, if_neg (Bool.eq_false_iff.1 hspace), hcolon, hruns]
    rfl

/-- A plain scalar does not end at a character of a text through which it goes on. -/
theorem endsPlain_of_runsPlain {indent column : Nat} {gap : Gap} {c : Char} {rest : List Char}
    (tail : List Char) (hc : c ≠ ' ') (hruns : runsPlain (!gap.isEmpty) (c :: rest) = true)
    (hcolumn : gap.isEmpty = false → indent ≤ column ∧ 0 < column) :
    endsPlain false indent gap column (c :: (rest ++ tail)) = false := by
  rw [runsPlain, if_neg (fun h => hc (eq_of_beq h))] at hruns
  simp only [Bool.and_eq_true, Bool.not_eq_true'] at hruns
  obtain ⟨⟨hsign, hcolon⟩, -⟩ := hruns
  have hfirst : (!gap.isEmpty && ((!false && decide (column < indent)) || c == '#' ||
      (column == 0 && opensWithDocumentMark (c :: (rest ++ tail))))) = false := by
    cases hgap : gap.isEmpty with
    | true => rfl
    | false =>
      obtain ⟨hindent, hpositive⟩ := hcolumn hgap
      rw [hgap, Bool.not_false, Bool.true_and] at hsign
      rw [hsign, decide_eq_false (Nat.not_lt_of_le hindent),
        beq_eq_false_iff_ne.2 (Nat.ne_of_gt hpositive)]
      rfl
  have hword : (c == ':' && endsWord (rest ++ tail)) = false := by
    cases hc : c == ':' with
    | false => rfl
    | true =>
      rw [hc, Bool.true_and] at hcolon
      cases rest with
      | nil => cases hcolon
      | cons d rest =>
        simp only [endsAnyWord, isSeparator, isLineEnd, Bool.or_eq_false_iff] at hcolon
        obtain ⟨⟨hspace, ⟨hbreak, -⟩, -⟩, -⟩ := hcolon
        show (true && (isSpace d || isBreak d)) = false
        rw [hspace, hbreak]
        rfl
  rw [endsPlain, hfirst, hword]
  rfl

theorem readPlain_space {indent : Nat} {acc rest : List Char} {gap : Gap} {place : Place} :
    readPlain false indent acc gap place (' ' :: rest) =
      readPlain false indent acc (gap.addSpace ' ') (place.next ' ') rest := by
  have htab : (gap.isBroken && ' ' == '\t' && decide (place.column < indent)) = false := by
    rw [show (' ' == '\t') = false from rfl, Bool.and_false, Bool.false_and]
  rw [readPlain, htab]
  rfl

theorem readPlain_char {indent : Nat} {acc rest : List Char} {gap : Gap} {place : Place} {c : Char}
    (hspace : isSpace c = false) (hbreak : isBreak c = false)
    (hends : endsPlain false indent gap place.column (c :: rest) = false) :
    readPlain false indent acc gap place (c :: rest) =
      readPlain false indent (acc ++ gap.text ++ [c]) .empty (place.next c) rest := by
  rw [readPlain, hspace, hbreak, hends]
  rfl

/-- A plain scalar is read to the end of a text through which it goes on. -/
theorem readPlain_text {indent : Nat} {cs : List Char} (acc : List Char) (gap : Gap) (place : Place)
    (tail : List Char) (hshown : ∀ c ∈ cs, isShown c = true ∧ isBreak c = false)
    (hruns : runsPlain (!gap.isEmpty) cs = true) (hgap : gap.isBroken = false)
    (hcolumn : indent ≤ place.column + 1)
    (hspaced : gap.isEmpty = false → indent ≤ place.column ∧ 0 < place.column) :
    readPlain false indent acc gap place (cs ++ tail) =
      readPlain false indent (acc ++ gap.text ++ cs) .empty (place.past cs) tail := by
  induction cs generalizing acc gap place with
  | nil =>
    cases gap with
    | empty => simp only [Gap.text, List.nil_append, List.append_nil, Place.past_nil]
    | spaces => cases hruns
    | breaks => cases hgap
  | cons c rest ih =>
    obtain ⟨⟨hc, hbreak⟩, hrest⟩ := List.forall_mem_cons.1 hshown
    rw [List.cons_append, Place.past_cons]
    by_cases hspace : c = ' '
    · subst hspace
      have hnext : runsPlain true rest = true := hruns
      have hafter : indent ≤ (place.next ' ').column ∧ 0 < (place.next ' ').column :=
        ⟨hcolumn, Nat.succ_pos _⟩
      rw [readPlain_space]
      cases gap with
      | empty =>
        rw [Gap.addSpace, ih acc (.spaces [' ']) _ hrest hnext rfl (Nat.le_succ_of_le hafter.1)
          fun _ => hafter]
        simp only [Gap.text, List.append_nil, List.append_assoc, List.singleton_append]
      | spaces cs =>
        rw [Gap.addSpace, ih acc (.spaces (cs ++ [' '])) _ hrest hnext rfl
          (Nat.le_succ_of_le hafter.1) fun _ => hafter]
        simp only [Gap.text, List.append_assoc, List.singleton_append]
      | breaks => cases hgap
    · have hends := endsPlain_of_runsPlain tail hspace hruns hspaced
      have hword : isSpace c = false := by
        rw [isSpace_of_isShown hc]
        exact beq_eq_false_iff_ne.2 hspace
      have hnext : runsPlain (!Gap.empty.isEmpty) rest = true := by
        rw [runsPlain, if_neg (fun h => hspace (eq_of_beq h)), Bool.and_eq_true] at hruns
        exact hruns.2
      rw [readPlain_char hword hbreak hends,
        ih _ .empty _ hrest hnext rfl (Nat.le_succ_of_le hcolumn) fun h => by cases h]
      simp only [Gap.text, List.append_nil, List.append_assoc, List.singleton_append]

/-- A plain scalar ends before the colon behind a key. -/
theorem readPlain_colon {indent : Nat} {acc rest : List Char} {place : Place}
    (hrest : endsWord rest = true) :
    readPlain false indent acc .empty place (':' :: rest) =
      some ⟨acc, ⟨place, ':' :: rest⟩, false⟩ := by
  have hends : endsPlain false indent .empty place.column (':' :: rest) = true := by
    rw [endsPlain, hrest]
    rfl
  rw [readPlain, hends]
  rfl

/-- Behind a line break a plain scalar ends at a line that is not indented enough. -/
theorem readPlain_line {indent column : Nat} {acc body : List Char} {place : Place}
    (hcolumn : column < indent) (hbody : body.head?.all opensLine = true) :
    readPlain false indent acc .empty place ('\n' :: (spaces column ++ body)) =
      some ⟨acc, ⟨⟨place.line + 1, column, column⟩, body⟩, true⟩ := by
  have hspaces (count : Nat) (start : Place) :
      readPlain false indent acc (.breaks (some '\n') []) start (spaces count ++ body) =
        readPlain false indent acc (.breaks (some '\n') []) (start.past (spaces count)) body := by
    induction count generalizing start with
    | zero => rfl
    | succ count ih =>
      show readPlain false indent acc _ start (' ' :: (spaces count ++ body)) = _
      rw [readPlain_space]
      exact ih (start.next ' ')
  have hbreak : readPlain false indent acc .empty place ('\n' :: (spaces column ++ body)) =
      readPlain false indent acc (.breaks (some '\n') []) place.nextLine (spaces column ++ body) :=
    rfl
  rw [hbreak, hspaces, Place.nextLine, Place.past_spaces, Nat.zero_add]
  cases body with
  | nil => rfl
  | cons c rest =>
    simp only [List.head?_cons, Option.all_some, opensLine, Bool.and_eq_true, Bool.not_eq_true']
      at hbody
    obtain ⟨⟨⟨hspace, hline⟩, -⟩, -⟩ := hbody
    have hends : endsPlain false indent (.breaks (some '\n') []) column (c :: rest) = true := by
      rw [endsPlain, decide_eq_true hcolumn]
      rfl
    rw [readPlain, hspace, hline, hends]
    rfl

end SchemaOptions.Yaml
