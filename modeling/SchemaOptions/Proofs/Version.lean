import SchemaOptions.Naming.Version

/-!
# The grammar of versions

A version is the letter `v` and a number, behind which there may be the letter `p` and another
number, and behind these a stage (`Version`). `isVersionWord` reads it from left to right and every
number as far as it goes. That loses nothing, because what may follow a number never opens with a
digit, and a stage never opens with the letter `p` (`Stage.opening`). So what it accepts is exactly
what can be taken apart in the way that the grammar says (`isVersionWord_iff`).
-/

namespace SchemaOptions.Naming

open SchemaOptions.Text

/-! ## The grammar -/

/-- One or more decimal digits. -/
structure Number (cs : List Char) : Prop where
  nonempty : cs ≠ []
  digits : ∀ c ∈ cs, isDecimalDigit c = true

/-- What may stand behind the number of a version: nothing, or the letter `p` and another number. -/
inductive Revision : List Char → Prop where
  | absent : Revision []
  | present {digits : List Char} (number : Number digits) : Revision ('p' :: digits)

/-- The class `[a-z0-9]`. -/
def LabelClass (c : Char) : Prop :=
  'a' ≤ c ∧ c ≤ 'z' ∨ '0' ≤ c ∧ c ≤ '9'

/-- What may stand at the end of a version: nothing, or a word for how far it has come, with digits
or a label behind it that may be missing. -/
inductive Stage : List Char → Prop where
  | absent : Stage []
  | alpha {digits : List Char} (h : ∀ c ∈ digits, isDecimalDigit c = true) :
      Stage (['a', 'l', 'p', 'h', 'a'] ++ digits)
  | beta {digits : List Char} (h : ∀ c ∈ digits, isDecimalDigit c = true) :
      Stage (['b', 'e', 't', 'a'] ++ digits)
  | test {label : List Char} (h : ∀ c ∈ label, LabelClass c) :
      Stage (['t', 'e', 's', 't'] ++ label)

/-- The versions: what falls into the letter `v`, a number, a revision and a stage. -/
inductive Version : List Char → Prop where
  | parts {number revision stage : List Char} (opens : Number number) (follows : Revision revision)
      (ends : Stage stage) : Version ('v' :: (number ++ revision ++ stage))

/-! ## Reading the parts -/

theorem isLabelPart_iff {c : Char} : isLabelPart c = true ↔ LabelClass c := by
  have hrange (low high : Char) :
      (decide (low.val ≤ c.val) && decide (c.val ≤ high.val)) = true ↔ low ≤ c ∧ c ≤ high := by
    simp only [Bool.and_eq_true, decide_eq_true_eq, Char.le_def]
  rw [isLabelPart, Bool.or_eq_true]
  exact or_congr (hrange 'a' 'z') (hrange '0' '9')

/-- A stage opens with a letter that is neither a digit nor the `p` of a revision. -/
theorem Stage.opening {stage : List Char} (h : Stage stage) :
    ∀ c ∈ stage.head?, isDecimalDigit c = false ∧ c ≠ 'p' := by
  intro c hc
  cases h with
  | absent => cases hc
  | alpha | beta | test =>
    cases hc
    decide

/-- A number is read up to the first character that is no digit. -/
theorem afterNumber?_eq_some_iff {cs rest : List Char} :
    afterNumber? cs = some rest ↔
      ∃ digits, cs = digits ++ rest ∧ Number digits ∧
        ∀ c ∈ rest.head?, isDecimalDigit c = false := by
  constructor
  · intro h
    cases cs with
    | nil => cases h
    | cons first others =>
      rw [afterNumber?] at h
      split at h
      · rename_i hfirst
        cases h
        refine ⟨first :: others.takeWhile isDecimalDigit, ?_, ⟨List.cons_ne_nil _ _, ?_⟩, ?_⟩
        · rw [List.cons_append, List.takeWhile_append_dropWhile]
        · intro c hc
          rcases List.mem_cons.1 hc with rfl | hc
          · exact hfirst
          · exact List.all_eq_true.1 List.all_takeWhile c hc
        · intro c hc
          have hstop := List.head?_dropWhile_not isDecimalDigit others
          rw [Option.mem_def.1 hc] at hstop
          simpa using hstop
      · cases h
  · rintro ⟨digits, rfl, hnumber, hstop⟩
    obtain ⟨first, others, rfl⟩ := List.exists_cons_of_ne_nil hnumber.nonempty
    have hothers : ∀ c ∈ others, isDecimalDigit c = true := fun c hc =>
      hnumber.digits c (List.mem_cons_of_mem _ hc)
    have hrest : rest.dropWhile isDecimalDigit = rest := by
      cases rest with
      | nil => rfl
      | cons c cs => exact List.dropWhile_cons_of_neg (by simp [hstop c rfl])
    rw [List.cons_append, afterNumber?, if_pos (hnumber.digits first List.mem_cons_self),
      List.dropWhile_append_of_pos hothers, hrest]

/-- A labelled word is the word and a label behind it. -/
theorem isLabelled_iff {word cs : List Char} {part : Char → Bool} :
    isLabelled word part cs = true ↔ ∃ label, cs = word ++ label ∧ ∀ c ∈ label, part c = true := by
  rw [isLabelled, Bool.and_eq_true, List.isPrefixOf_iff_prefix, List.all_eq_true]
  constructor
  · rintro ⟨⟨label, rfl⟩, hparts⟩
    rw [List.drop_left] at hparts
    exact ⟨label, rfl, hparts⟩
  · rintro ⟨label, rfl, hparts⟩
    rw [List.drop_left]
    exact ⟨List.prefix_append word label, hparts⟩

theorem isStage_iff {cs : List Char} : isStage cs = true ↔ Stage cs := by
  simp only [isStage, Bool.or_eq_true, List.isEmpty_iff, isLabelled_iff, isLabelPart_iff]
  constructor
  · rintro (((rfl | ⟨digits, rfl, h⟩) | ⟨digits, rfl, h⟩) | ⟨label, rfl, h⟩)
    · exact .absent
    · exact .alpha h
    · exact .beta h
    · exact .test h
  · intro h
    cases h with
    | absent => exact .inl (.inl (.inl rfl))
    | alpha h => exact .inl (.inl (.inr ⟨_, rfl, h⟩))
    | beta h => exact .inl (.inr ⟨_, rfl, h⟩)
    | test h => exact .inr ⟨_, rfl, h⟩

/-- Behind the first number, a version goes on with a revision and a stage. -/
theorem isVersionTail_iff {cs : List Char} :
    isVersionTail cs = true ↔
      ∃ revision stage, cs = revision ++ stage ∧ Revision revision ∧ Stage stage := by
  constructor
  · intro h
    unfold isVersionTail at h
    split at h
    · split at h
      · rename_i stage hnumber
        obtain ⟨digits, rfl, hdigits, -⟩ := afterNumber?_eq_some_iff.1 hnumber
        exact ⟨'p' :: digits, stage, rfl, .present hdigits, isStage_iff.1 h⟩
      · cases h
    · exact ⟨[], cs, rfl, .absent, isStage_iff.1 h⟩
  · rintro ⟨revision, stage, rfl, hrevision, hstage⟩
    cases hrevision with
    | absent =>
      -- A stage does not open with the letter that a revision opens with.
      rw [List.nil_append]
      unfold isVersionTail
      split
      · exact absurd rfl (hstage.opening 'p' rfl).2
      · exact isStage_iff.2 hstage
    | @present digits hdigits =>
      have hnumber : afterNumber? (digits ++ stage) = some stage :=
        afterNumber?_eq_some_iff.2 ⟨digits, rfl, hdigits, fun c hc => (hstage.opening c hc).1⟩
      rw [List.cons_append, isVersionTail, hnumber]
      exact isStage_iff.2 hstage

/-- What stands behind the first number of a version does not open with a digit. -/
theorem isDecimalDigit_of_mem_head? {revision stage : List Char} (hrevision : Revision revision)
    (hstage : Stage stage) : ∀ c ∈ (revision ++ stage).head?, isDecimalDigit c = false := by
  intro c hc
  cases hrevision with
  | absent => exact (hstage.opening c hc).1
  | present =>
    cases hc
    decide

/-! ## Versions -/

/-- The versions are the texts that fall into the parts of the grammar. -/
theorem isVersionWord_iff {cs : List Char} : isVersionWord cs = true ↔ Version cs := by
  constructor
  · intro h
    unfold isVersionWord at h
    split at h
    · split at h
      · rename_i tail hnumber
        obtain ⟨number, rfl, hdigits, -⟩ := afterNumber?_eq_some_iff.1 hnumber
        obtain ⟨revision, stage, rfl, hrevision, hstage⟩ := isVersionTail_iff.1 h
        rw [← List.append_assoc]
        exact .parts hdigits hrevision hstage
      · cases h
    · cases h
  · intro h
    obtain ⟨hnumber, hrevision, hstage⟩ := h
    rename_i number revision stage
    have hafter : afterNumber? (number ++ revision ++ stage) = some (revision ++ stage) :=
      afterNumber?_eq_some_iff.2 ⟨number, List.append_assoc .., hnumber,
        isDecimalDigit_of_mem_head? hrevision hstage⟩
    rw [isVersionWord, hafter]
    exact isVersionTail_iff.2 ⟨revision, stage, rfl, hrevision, hstage⟩

instance (cs : List Char) : Decidable (Version cs) :=
  decidable_of_iff (isVersionWord cs = true) isVersionWord_iff

/-- No full stop stands in a version. -/
theorem Version.not_stop {cs : List Char} (h : Version cs) : '.' ∉ cs := by
  have hdigits {digits : List Char} (h : ∀ c ∈ digits, isDecimalDigit c = true) : '.' ∉ digits :=
    fun hmem => absurd (h '.' hmem) (by decide)
  obtain ⟨hnumber, hrevision, hstage⟩ := h
  simp only [List.mem_cons, List.mem_append, not_or]
  refine ⟨by decide, ⟨hdigits hnumber.digits, ?_⟩, ?_⟩
  · cases hrevision with
    | absent => exact List.not_mem_nil
    | present hnumber => simpa using hdigits hnumber.digits
  · cases hstage with
    | absent => exact List.not_mem_nil
    | alpha h => simpa using hdigits h
    | beta h => simpa using hdigits h
    | test h =>
      have hlabel {label : List Char} (h : ∀ c ∈ label, LabelClass c) : '.' ∉ label :=
        fun hmem => absurd (isLabelPart_iff.2 (h '.' hmem)) (by decide)
      simpa using hlabel h

end SchemaOptions.Naming
