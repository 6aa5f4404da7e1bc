import SchemaOptions.Config.Writing

/-!
# What a written document is made of

Whatever texts a document holds, it is written with characters that can be shown
(`shown_writeEntries`). Such characters may all stand in a text, and unifying the line breaks leaves
them as they are.
-/

namespace SchemaOptions.Yaml

/-! ## Characters that can be shown -/

/-- A character that can be shown is no tab. -/
theorem ne_tab_of_isShown {c : Char} (h : isShown c = true) : c ≠ '\t' := by
  rintro rfl
  cases h

/-- A character that can be shown is no byte order mark. -/
theorem ne_byteOrderMark_of_isShown {c : Char} (h : isShown c = true) : c ≠ byteOrderMark := by
  rintro rfl
  cases h

/-- Among characters that can be shown only the space counts as one. -/
theorem isSpace_of_isShown {c : Char} (h : isShown c = true) : isSpace c = (c == ' ') := by
  rw [isSpace, beq_eq_false_iff_ne.2 (ne_tab_of_isShown h), Bool.or_false]

/-- Among characters that can be shown, those that end a line are line breaks. -/
theorem isLineEnd_of_isShown {c : Char} (h : isShown c = true) : isLineEnd c = isBreak c := by
  have hreturn : (c == '\r') = false := by
    refine beq_eq_false_iff_ne.2 ?_
    rintro rfl
    cases h
  have hnext : (c == '\u0085') = false := by
    refine beq_eq_false_iff_ne.2 ?_
    rintro rfl
    cases h
  rw [isLineEnd, hreturn, hnext, Bool.or_false, Bool.or_false]

/-- What can be shown may stand in a text. -/
theorem isAllowed_of_isShown {c : Char} (h : isShown c = true) : isAllowed c = true := by
  simp only [isShown, isAllowed, Bool.or_eq_true, Bool.and_eq_true, beq_iff_eq, bne_iff_ne,
    decide_eq_true_eq] at h ⊢
  omega

/-- A break is no space. -/
theorem isSpace_of_isBreak {c : Char} (h : isBreak c = true) : isSpace c = false := by
  simp only [isBreak, Bool.or_eq_true, beq_iff_eq] at h
  obtain (rfl | rfl) | rfl := h <;> rfl

/-! ## Texts that can be shown -/

/-- Whether all characters of a text can be shown. -/
def Shown (cs : List Char) : Prop :=
  ∀ c ∈ cs, isShown c = true

theorem shown_nil : Shown [] := fun _ h => absurd h List.not_mem_nil

theorem shown_cons {c : Char} {cs : List Char} : Shown (c :: cs) ↔ isShown c = true ∧ Shown cs :=
  List.forall_mem_cons

theorem shown_append {cs ds : List Char} : Shown (cs ++ ds) ↔ Shown cs ∧ Shown ds :=
  List.forall_mem_append

theorem shown_iff_all {cs : List Char} : Shown cs ↔ cs.all isShown = true :=
  List.all_eq_true.symm

/-- A text that can be shown has unified line breaks. -/
theorem unifyBreaks_of_shown {cs : List Char} (h : Shown cs) : unifyBreaks cs = cs := by
  induction cs with
  | nil => rfl
  | cons c rest ih =>
    obtain ⟨hc, hrest⟩ := shown_cons.1 h
    have hreturn : c ≠ '\r' := by
      rintro rfl
      cases hc
    have hnext : c ≠ '\u0085' := by
      rintro rfl
      cases hc
    rw [unifyBreaks, ih hrest, if_neg]
    · exact fun hbreak => hbreak.elim hreturn hnext
    · exact fun _ heq _ => hreturn heq

/-! ## Scalars -/

theorem shown_spaces (count : Nat) : Shown (spaces count) := by
  intro c hmem
  rw [List.eq_of_mem_replicate hmem]
  rfl

theorem shown_indentLines {cs : List Char} (h : Shown cs) (indent : Nat) (atStart : Bool) :
    Shown (indentLines indent atStart cs) := by
  induction cs generalizing atStart with
  | nil => exact shown_nil
  | cons c rest ih =>
    obtain ⟨hc, hrest⟩ := shown_cons.1 h
    rw [indentLines]
    split
    · exact shown_cons.2 ⟨hc, ih hrest true⟩
    · refine shown_append.2 ⟨?_, shown_cons.2 ⟨hc, ih hrest false⟩⟩
      split
      · exact shown_spaces indent
      · exact shown_nil

theorem shown_singleQuotedBody {cs : List Char} (h : Shown cs) (indent : Nat)
    (afterBreak : Bool) : Shown (singleQuotedBody indent afterBreak cs) := by
  have hindent (afterBreak : Bool) : Shown (if afterBreak then spaces indent else []) := by
    split
    · exact shown_spaces indent
    · exact shown_nil
  induction cs generalizing afterBreak with
  | nil => exact hindent afterBreak
  | cons c rest ih =>
    obtain ⟨hc, hrest⟩ := shown_cons.1 h
    rw [singleQuotedBody]
    split
    · exact shown_cons.2 ⟨hc, ih hrest true⟩
    · refine shown_append.2 ⟨shown_append.2 ⟨hindent afterBreak, ?_⟩, ih hrest false⟩
      split
      · exact shown_cons.2 ⟨hc, shown_cons.2 ⟨hc, shown_nil⟩⟩
      · exact shown_cons.2 ⟨hc, shown_nil⟩

theorem shown_upperHex (digits n : Nat) : Shown (upperHex digits n) := by
  have hdigit : ∀ digit < 16, isShown (upperHexDigit digit) = true := by decide
  induction digits generalizing n with
  | zero => exact shown_nil
  | succ digits ih =>
    have hlast := hdigit (n % 16) (Nat.mod_lt n (by decide))
    exact shown_append.2 ⟨ih (n / 16), shown_cons.2 ⟨hlast, shown_nil⟩⟩

/-- Between double quotes everything can be shown. -/
theorem shown_doubleQuotedChar (c : Char) : Shown (doubleQuotedChar c) := by
  unfold doubleQuotedChar
  split
  · rename_i h
    simp only [Bool.and_eq_true] at h
    exact shown_cons.2 ⟨h.1.1.1, shown_nil⟩
  · refine shown_cons.2 ⟨rfl, ?_⟩
    split
    · rename_i letter hletter
      refine shown_cons.2 ⟨?_, shown_nil⟩
      unfold escapeLetter? at hletter
      split at hletter <;> cases hletter <;> rfl
    · simp only
      split
      · exact shown_cons.2 ⟨rfl, shown_upperHex 2 _⟩
      · split
        · exact shown_cons.2 ⟨rfl, shown_upperHex 4 _⟩
        · exact shown_cons.2 ⟨rfl, shown_upperHex 8 _⟩

theorem shown_blockHeader (cs : List Char) : Shown (blockHeader cs) := by
  unfold blockHeader
  refine shown_append.2 ⟨?_, ?_⟩
  · split
    · exact shown_iff_all.2 (by decide)
    · exact shown_nil
  · split
    · exact shown_iff_all.2 (by decide)
    · split <;> exact shown_iff_all.2 (by decide)
    · split
      · split <;> exact shown_iff_all.2 (by decide)
      · exact shown_iff_all.2 (by decide)

/-- What the styles other than the one with double quotes ask of a text. -/
theorem ofText_cases (cs : List Char) :
    (ScalarStyle.ofText cs = .literal ∧ cs.contains '\n' = true ∧ fitsBlock cs = true) ∨
    (ScalarStyle.ofText cs = .plain ∧ isAmbiguous cs = false ∧ fitsPlain cs = true) ∨
    (ScalarStyle.ofText cs = .singleQuoted ∧ cs.contains '\n' = false ∧
      fitsSingleQuotes cs = true) ∨
    ScalarStyle.ofText cs = .doubleQuoted := by
  unfold ScalarStyle.ofText
  split
  · rename_i hfeed
    split
    · rename_i hfits
      exact .inl ⟨rfl, hfeed, hfits⟩
    · exact .inr (.inr (.inr rfl))
  · rename_i hfeed
    split
    · rename_i hplain
      rw [Bool.and_eq_true, Bool.not_eq_true'] at hplain
      exact .inr (.inl ⟨rfl, hplain⟩)
    · split
      · rename_i hfits
        exact .inr (.inr (.inl ⟨rfl, Bool.eq_false_iff.2 hfeed, hfits⟩))
      · exact .inr (.inr (.inr rfl))

/-- A text can be shown in the style in which it is written. -/
theorem shown_writeText (indent : Nat) (cs : List Char) : Shown (writeText indent cs) := by
  unfold writeText
  obtain ⟨hstyle, -, hfits⟩ | ⟨hstyle, -, hfits⟩ | ⟨hstyle, -, hfits⟩ | hstyle := ofText_cases cs
  · rw [hstyle]
    simp only [fitsBlock, Bool.and_eq_true] at hfits
    have hlines := shown_indentLines (shown_iff_all.2 hfits.1.1) indent true
    exact shown_append.2 ⟨shown_cons.2 ⟨rfl, shown_blockHeader cs⟩, shown_cons.2 ⟨rfl, hlines⟩⟩
  · rw [hstyle]
    simp only [fitsPlain, Bool.and_eq_true] at hfits
    exact shown_iff_all.2 hfits.1.1.1.1.1.1
  · rw [hstyle]
    simp only [fitsSingleQuotes, Bool.and_eq_true] at hfits
    have hbody := shown_singleQuotedBody (shown_iff_all.2 hfits.1.1) indent false
    exact shown_append.2 ⟨shown_cons.2 ⟨rfl, hbody⟩, shown_cons.2 ⟨rfl, shown_nil⟩⟩
  · rw [hstyle]
    refine shown_append.2 ⟨shown_cons.2 ⟨rfl, ?_⟩, shown_cons.2 ⟨rfl, shown_nil⟩⟩
    intro c hmem
    obtain ⟨d, -, hc⟩ := List.mem_flatMap.1 hmem
    exact shown_doubleQuotedChar d c hc

/-! ## Entries -/

theorem shown_endLine {cs : List Char} (h : Shown cs) : Shown (endLine cs) := by
  unfold endLine
  split
  · exact h
  · exact shown_append.2 ⟨h, shown_cons.2 ⟨rfl, shown_nil⟩⟩

theorem shown_writeKey (column : Nat) (key : String) : Shown (writeKey column key) := by
  have hcolon : Shown [':'] := shown_cons.2 ⟨rfl, shown_nil⟩
  have htext := shown_writeText (column + indentStep) key.toList
  unfold writeKey
  simp only
  split
  · exact shown_append.2 ⟨shown_append.2 ⟨shown_spaces column, htext⟩, hcolon⟩
  · have hmark : Shown ['?', ' '] := shown_cons.2 ⟨rfl, shown_cons.2 ⟨rfl, shown_nil⟩⟩
    have hline := shown_append.2 ⟨shown_append.2 ⟨shown_spaces column, hmark⟩, htext⟩
    exact shown_append.2 ⟨shown_append.2 ⟨shown_endLine hline, shown_spaces column⟩, hcolon⟩

mutual

/-- Whether a content can be read back: each word may stand as it is, and no mapping is empty. -/
def Content.Sound : Content → Prop
  | .word s => s.toList ≠ [] ∧ fitsPlain s.toList = true
  | .text _ => True
  | .mapping entries => entries ≠ [] ∧ SoundEntries entries

/-- Whether the values of all entries can be read back. -/
def SoundEntries : List (String × Content) → Prop
  | [] => True
  | (_, value) :: rest => value.Sound ∧ SoundEntries rest

end

mutual

/-- What is written for a content can be shown. -/
theorem shown_write (column : Nat) (content : Content) (h : content.Sound) :
    Shown (content.write column) := by
  cases content with
  | word s =>
    obtain ⟨-, hfits⟩ := h
    simp only [fitsPlain, Bool.and_eq_true] at hfits
    exact shown_endLine (shown_cons.2 ⟨rfl, shown_iff_all.2 hfits.1.1.1.1.1.1⟩)
  | text s => exact shown_endLine (shown_cons.2 ⟨rfl, shown_writeText _ s.toList⟩)
  | mapping entries =>
    exact shown_cons.2 ⟨rfl, shown_writeEntries (column + indentStep) entries h.2⟩

/-- What is written for entries can be shown. -/
theorem shown_writeEntries (column : Nat) (entries : List (String × Content))
    (h : SoundEntries entries) : Shown (writeEntries column entries) := by
  cases entries with
  | nil => exact shown_nil
  | cons entry rest =>
    obtain ⟨key, value⟩ := entry
    exact shown_append.2 ⟨shown_append.2 ⟨shown_writeKey column key, shown_write column value h.1⟩,
      shown_writeEntries column rest h.2⟩

end

end SchemaOptions.Yaml
