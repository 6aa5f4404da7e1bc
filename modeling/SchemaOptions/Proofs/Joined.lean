import Mathlib.Computability.Language
import SchemaOptions.Proofs.Naming
import SchemaOptions.Proofs.PascalCase

/-!
# Words with separators

A text is one or more words with a separator between each two (`Joined`) just if it falls into words
when it is split at the separators (`joined_iff_splitOn`), provided that no word holds one. It is
what a regular expression matches that says so (`mem_separated_iff`). Such texts can be joined
in turn (`Joined.append`).

Identifiers are the words here: what `Naming.isIdentifier` and `Naming.isDottedIdentifier` accept is
what their regular expressions match.
-/

namespace SchemaOptions

open scoped Computability

/-! ## Words with separators -/

/-- Whether a text is one or more words with a separator between each two. -/
inductive Joined (sep : Char) (word : List Char → Prop) : List Char → Prop where
  | word {cs : List Char} (h : word cs) : Joined sep word cs
  | cons {cs others : List Char} (h : word cs) (rest : Joined sep word others) :
      Joined sep word (cs ++ sep :: others)

section

variable {sep : Char} {word : List Char → Prop} {cs others : List Char}

/-- Words joined with others, joined in turn, are all joined. -/
theorem Joined.append (h : Joined sep word cs) (hothers : Joined sep word others) :
    Joined sep word (cs ++ sep :: others) := by
  induction h with
  | word h => exact .cons h hothers
  | cons h _ ih =>
    rw [List.append_assoc, List.cons_append]
    exact .cons h ih

/-- The characters of a text are those of its words and separators. -/
theorem Joined.forall_mem {p : Char → Prop} (h : Joined sep word cs) (hsep : p sep)
    (hword : ∀ cs, word cs → ∀ c ∈ cs, p c) : ∀ c ∈ cs, p c := by
  induction h with
  | word h => exact hword _ h
  | cons h _ ih => exact List.forall_mem_append.2 ⟨hword _ h, List.forall_mem_cons.2 ⟨hsep, ih⟩⟩

theorem joined_intercalate {words : List (List Char)} (hne : words ≠ [])
    (h : ∀ cs ∈ words, word cs) : Joined sep word ([sep].intercalate words) := by
  induction words with
  | nil => exact absurd rfl hne
  | cons first rest ih =>
    obtain ⟨hfirst, hrest⟩ := List.forall_mem_cons.1 h
    cases rest with
    | nil =>
      rw [List.intercalate_singleton]
      exact .word hfirst
    | cons second others =>
      rw [List.intercalate_cons_cons, List.append_assoc]
      exact .cons hfirst (ih (List.cons_ne_nil _ _) hrest)

/-- A text is words with separators if it falls into words when it is split at the separators. -/
theorem joined_iff_splitOn (hsep : ∀ cs, word cs → sep ∉ cs) :
    Joined sep word cs ↔ ∀ part ∈ cs.splitOn sep, word part := by
  constructor
  · intro h
    induction h with
    | word h =>
      rw [List.splitOn_eq_singleton (hsep _ h)]
      exact List.forall_mem_singleton.2 h
    | cons h _ ih =>
      rw [List.splitOn_append_cons_self, List.splitOn_eq_singleton (hsep _ h)]
      exact List.forall_mem_cons.2 ⟨h, ih⟩
  · intro h
    have hjoined : Joined sep word ([sep].intercalate (cs.splitOn sep)) :=
      joined_intercalate (List.splitOn_ne_nil sep cs) h
    rwa [List.intercalate_splitOn] at hjoined

/-- The parts of a text hold its characters, but not the one at which it is split. -/
theorem mem_of_mem_splitOn {part : List Char} (h : part ∈ cs.splitOn sep) :
    ∀ c ∈ part, c ∈ cs ∧ c ≠ sep := by
  intro c hc
  obtain ⟨hmem, hsep⟩ := Naming.mem_of_mem_splitOnP h c hc
  exact ⟨hmem, beq_eq_false_iff_ne.1 hsep⟩

end

/-! ## Regular expressions -/

/-- The texts of a single character of a class. -/
def oneOf (p : Char → Prop) : Language Char :=
  {cs | ∃ c, p c ∧ cs = [c]}

theorem mem_kstar_oneOf {p : Char → Prop} {cs : List Char} :
    cs ∈ (oneOf p)∗ ↔ ∀ c ∈ cs, p c := by
  rw [Language.mem_kstar]
  constructor
  · rintro ⟨pieces, rfl, hpieces⟩ c hmem
    obtain ⟨piece, hpiece, hc⟩ := List.mem_flatten.1 hmem
    obtain ⟨d, hd, rfl⟩ := hpieces piece hpiece
    exact List.mem_singleton.1 hc ▸ hd
  · intro h
    refine ⟨cs.map fun c => [c], (List.flatMap_singleton' cs).symm, fun piece hpiece => ?_⟩
    obtain ⟨c, hc, rfl⟩ := List.mem_map.1 hpiece
    exact ⟨c, h c hc, rfl⟩

/-- One word, and then any number of times a separator and another word. -/
def separated (sep : Char) (words : Language Char) : Language Char :=
  words * (oneOf (· = sep) * words)∗

theorem mem_separated_iff {sep : Char} {words : Language Char} {cs : List Char} :
    cs ∈ separated sep words ↔ Joined sep (· ∈ words) cs := by
  constructor
  · intro h
    obtain ⟨first, hfirst, rest, hrest, rfl⟩ := Language.mem_mul.1 h
    obtain ⟨pieces, rfl, hpieces⟩ := Language.mem_kstar.1 hrest
    clear h hrest
    -- Each piece is a separator and a word, which is the first word for the pieces behind it.
    induction pieces generalizing first with
    | nil => exact (List.append_nil first).symm ▸ .word hfirst
    | cons piece pieces ih =>
      obtain ⟨hpiece, hlater⟩ := List.forall_mem_cons.1 hpieces
      obtain ⟨_, ⟨_, rfl, rfl⟩, second, hsecond, rfl⟩ := Language.mem_mul.1 hpiece
      exact .cons hfirst (ih second hsecond hlater)
  · intro h
    induction h with
    | word h => exact Language.mem_mul.2 ⟨_, h, [], Language.nil_mem_kstar _, List.append_nil _⟩
    | @cons first others h _ ih =>
      obtain ⟨second, hsecond, rest, hrest, rfl⟩ := Language.mem_mul.1 ih
      refine Language.mem_mul.2 ⟨first, h, sep :: (second ++ rest), ?_, rfl⟩
      refine (mul_kstar_le_kstar : (oneOf (· = sep) * words) * _ ≤ _) ?_
      exact Language.mem_mul.2 ⟨sep :: second,
        Language.mem_mul.2 ⟨[sep], ⟨sep, rfl, rfl⟩, second, hsecond, rfl⟩, rest, hrest, rfl⟩

/-! ## Identifiers -/

namespace Naming

/-- The class `[A-Za-z_]`. -/
def OpeningClass (c : Char) : Prop :=
  'A' ≤ c ∧ c ≤ 'Z' ∨ 'a' ≤ c ∧ c ≤ 'z' ∨ c = '_'

/-- The class `[A-Za-z0-9_]`. -/
def FollowingClass (c : Char) : Prop :=
  OpeningClass c ∨ '0' ≤ c ∧ c ≤ '9'

theorem isIdentifierStart_iff {c : Char} : isIdentifierStart c = true ↔ OpeningClass c := by
  simp only [isIdentifierStart, OpeningClass, Bool.or_eq_true, Text.isAlpha_iff, beq_iff_eq,
    or_assoc]

theorem isIdentifierPart_iff {c : Char} : isIdentifierPart c = true ↔ FollowingClass c := by
  rw [FollowingClass, ← isIdentifierStart_iff]
  simp only [isIdentifierPart, isIdentifierStart, Bool.or_eq_true, Text.isAlphanum_iff]
  exact or_right_comm

/-- The regular expression `[A-Za-z_][A-Za-z0-9_]*`. -/
def identifiers : Language Char :=
  oneOf OpeningClass * (oneOf FollowingClass)∗

theorem mem_identifiers_iff {cs : List Char} :
    cs ∈ identifiers ↔ isIdentifierWord cs = true := by
  rw [identifiers, Language.mem_mul]
  constructor
  · rintro ⟨_, ⟨c, hc, rfl⟩, rest, hrest, rfl⟩
    refine Bool.and_eq_true_iff.2 ⟨isIdentifierStart_iff.2 hc, List.all_eq_true.2 fun d hd => ?_⟩
    exact isIdentifierPart_iff.2 (mem_kstar_oneOf.1 hrest d hd)
  · intro h
    cases cs with
    | nil => cases h
    | cons c rest =>
      obtain ⟨hc, hrest⟩ := Bool.and_eq_true_iff.1 h
      have hparts : rest ∈ (oneOf FollowingClass)∗ :=
        mem_kstar_oneOf.2 fun d hd => isIdentifierPart_iff.1 (List.all_eq_true.1 hrest d hd)
      exact ⟨[c], ⟨c, isIdentifierStart_iff.1 hc, rfl⟩, rest, hparts, rfl⟩

/-- No full stop stands in an identifier. -/
theorem not_stop_of_isIdentifierWord {cs : List Char} (h : isIdentifierWord cs = true) :
    '.' ∉ cs :=
  fun hmem => nomatch isIdentifierPart_of_mem h '.' hmem

theorem isDottedIdentifier_iff_joined {text : String} :
    isDottedIdentifier text = true ↔ Joined '.' (isIdentifierWord · = true) text.toList := by
  rw [joined_iff_splitOn fun _ => not_stop_of_isIdentifierWord, isDottedIdentifier,
    List.all_eq_true]

/-- Identifiers joined with identifiers by a full stop are joined identifiers. -/
theorem isDottedIdentifier_append {text other : String} (h : isDottedIdentifier text)
    (hother : isDottedIdentifier other) : isDottedIdentifier (text ++ "." ++ other) := by
  rw [isDottedIdentifier_iff_joined, toList_joined '.' rfl]
  exact (isDottedIdentifier_iff_joined.1 h).append (isDottedIdentifier_iff_joined.1 hother)

/-- No NUL character stands in joined identifiers. -/
theorem nul_not_mem_of_isDottedIdentifier {text : String} (h : isDottedIdentifier text) :
    '\x00' ∉ text.toList := by
  have hne : ∀ c ∈ text.toList, c ≠ '\x00' :=
    (isDottedIdentifier_iff_joined.1 h).forall_mem (by decide) fun cs hcs c hc hnul =>
      nomatch isIdentifierPart_of_mem hcs '\x00' (hnul ▸ hc)
  exact fun hmem => hne _ hmem rfl

/-- The texts that fall into identifiers at their full stops are those that the regular expression
`[A-Za-z_][A-Za-z0-9_]*(\.[A-Za-z_][A-Za-z0-9_]*)*` matches. -/
theorem mem_separated_identifiers_iff {text : String} :
    text.toList ∈ separated '.' identifiers ↔ isDottedIdentifier text = true := by
  simp only [mem_separated_iff, mem_identifiers_iff, isDottedIdentifier_iff_joined]

end Naming

end SchemaOptions
